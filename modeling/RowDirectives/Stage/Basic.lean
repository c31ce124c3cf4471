import RowDirectives.Directive
import RowDirectives.Mask

/-! Stages: what a directive says once it is read. Each kind of stage has one grammar, and each stage has
one line of text that stands for it. -/
namespace RowDirectives

inductive Kind where
  | rename
  | toText
  | maskRange
  | maskSubstitution
  deriving DecidableEq, Repr

inductive Stage where
  | rename (source target : String)
  | toText (column : String)
  | mask (column : String) (mask : Mask)
  deriving DecidableEq, Repr

namespace Kind

def grammar : Kind → Grammar
  | rename => ⟨"rename", 3, .whitespace, "rename old_column_name new_column_name"⟩
  | toText => ⟨"to-string", 2, .singleSpace, "to-string column_name"⟩
  | maskRange => ⟨"mask", 4, .singleSpace, "mask column_name from_position to_position"⟩
  | maskSubstitution => ⟨"mask", 5, .singleSpace, "mask column_name left|right mask_char n"⟩

def keyword (kind : Kind) : String := kind.grammar.keyword

/-- The name of a kind in messages. -/
def title : Kind → String
  | rename => "Rename"
  | toText => "ToString"
  | maskRange => "MaskRange"
  | maskSubstitution => "MaskSubstitution"

/-- The stage that a directive of the right form describes. Arguments are checked from left to right. -/
def stageOf (kind : Kind) (d : Directive) : Except Fault Stage := do
  match kind with
  | rename =>
    let source ← d.argument 1
    let target ← d.argument 2
    pure (.rename source target)
  | toText =>
    let column ← d.argument 1
    pure (.toText column)
  | maskRange =>
    let column ← d.argument 1
    let start ← d.position 2 "from_position"
    let stop ← d.position 3 "to_position"
    if stop < start then
      .error (.invalidDirective s!"from_position {start} is greater than to_position {stop}.")
    else pure (.mask column (.range start stop))
  | maskSubstitution =>
    let column ← d.argument 1
    let side ← Side.read (← d.argument 2)
    let cover ← d.character 3 "mask_char"
    let count ← d.count 4 "n"
    pure (.mask column (.substitution side cover count))

/-- Reads a line as a directive of the given kind. -/
def read (kind : Kind) (line? : Option String) : Except Fault Stage :=
  (kind.grammar.parse line?).bind kind.stageOf

end Kind

namespace Stage

def kind : Stage → Kind
  | rename _ _ => .rename
  | toText _ => .toText
  | mask _ (.range _ _) => .maskRange
  | mask _ (.substitution _ _ _) => .maskSubstitution

def keyword (stage : Stage) : String := stage.kind.keyword

def arguments : Stage → List String
  | rename source target => [source, target]
  | toText column => [column]
  | mask column (.range start stop) => [column, Number.text start, Number.text stop]
  | mask column (.substitution side cover count) =>
    [column, side.name, String.singleton cover, Number.text count]

/-- The canonical text of a stage. -/
def line (stage : Stage) : String := " ".intercalate (stage.keyword :: stage.arguments)

end Stage
end RowDirectives
