import RowDirectives.Dict
import RowDirectives.Log

/-! Which kind of stage each keyword stands for. A kind can be bound to its own keyword only, so the two
kinds of mask exclude each other. -/
namespace RowDirectives

/-- The two revisions of the mask directive. -/
inductive MaskGrammar where
  | substitution
  | range
  deriving DecidableEq, Repr

namespace MaskGrammar

def default : MaskGrammar := substitution

def kind : MaskGrammar → Kind
  | substitution => .maskSubstitution
  | range => .maskRange

end MaskGrammar

structure Registry where
  bindings : Dict Kind

namespace Registry

def empty : Registry := ⟨Dict.empty⟩

/-- Binds a kind to its own keyword, in place of the kind that was bound to it. -/
def bind (r : Registry) (kind : Kind) : Registry := ⟨r.bindings.insert kind.keyword kind⟩

def ofMaskGrammar (g : MaskGrammar) : Registry :=
  ((empty.bind .rename).bind .toText).bind g.kind

def default : Registry := ofMaskGrammar .default

/-- Binds a kind to a keyword, which has to be its own. -/
def register (keyword : String) (kind : Kind) : Step Registry Unit := do
  if keyword ≠ kind.keyword then
    throw (.config
      s!"keyword '{keyword}' cannot be bound to {kind.title}, which expects '{kind.keyword}'")
  modify (·.bind kind)

def kindOf (r : Registry) (keyword : String) : Except Fault Kind :=
  match r.bindings.get? keyword with
  | some kind => .ok kind
  | none => .error (.invalidDirective s!"unknown transformation keyword: {keyword}")

/-- The keywords in ascending order. -/
def keywords (r : Registry) : List String := r.bindings.names

/-- The first word of the line chooses the kind, whose own grammar then reads the whole line. -/
def read (r : Registry) (line? : Option String) : Except Fault Stage := do
  match line? with
  | none => .error (.invalidDirective "Directive command line is null.")
  | some line =>
    match keywordOf? line with
    | none => .error (.invalidDirective "Directive command line is empty.")
    | some keyword => (← r.kindOf keyword).read (some line)

/-- Reads a directive and reports the success. -/
def compile (r : Registry) (line? : Option String) : Except Fault Stage × List LogEntry :=
  match r.read line? with
  | .ok stage => (.ok stage, [.compiledDirective (line?.getD "") stage.kind])
  | .error fault => (.error fault, [])

end Registry
end RowDirectives
