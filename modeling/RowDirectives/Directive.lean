import RowDirectives.Fault
import RowDirectives.Number.Digits
import RowDirectives.Text.Pieces

/-! Directives: the tokens of one line, typed access to them, and the fixed form of the directives of one
kind. -/
namespace RowDirectives

/-- How a line is cut into tokens. -/
inductive SplitPolicy where
  /-- Each single space is a delimiter, so two of them enclose an empty token. -/
  | singleSpace
  /-- A whole run of blanks is one delimiter. -/
  | whitespace
  deriving DecidableEq, Repr

namespace SplitPolicy

def cut : SplitPolicy → List Char → List (List Char)
  | singleSpace => Text.pieces (· == ' ')
  | whitespace => Text.runPieces Text.isBlank

/-- The tokens of a line. Empty tokens at the right end are dropped, whatever the policy. -/
def split (policy : SplitPolicy) (line : String) : List String :=
  (Text.dropTrailing (policy.cut line.toList)).map String.ofList

end SplitPolicy

/-- The first word of a line. It alone decides which kind of directive the line is taken for. -/
def keywordOf? (line : String) : Option String :=
  (Text.firstRun? Text.isBlank line.toList).map String.ofList

structure Directive where
  tokens : List String
  deriving DecidableEq, Repr

namespace Directive

def tokenize (policy : SplitPolicy) (line : String) : Directive := ⟨policy.split line⟩

def size (d : Directive) : Nat := d.tokens.length

def isEmpty (d : Directive) : Bool := d.tokens.isEmpty

def keyword? (d : Directive) : Option String := d.tokens.head?

/-- The tokens with one space between each two. -/
def line (d : Directive) : String := " ".intercalate d.tokens

def argument (d : Directive) (index : Nat) : Except Fault String :=
  match d.tokens[index]? with
  | some token => .ok token
  | none => .error (.invalidDirective s!"missing argument at position {index}")

/-- A position in a text: an unsigned integer. -/
def position (d : Directive) (index : Nat) (name : String) : Except Fault Nat := do
  let token ← d.argument index
  match Number.unsigned? token.toList with
  | some n => .ok n
  | none => .error (.invalidDirective s!"{name} '{token}' is not a non-negative integer.")

/-- A count is read as a signed integer, so that a negative one can be told from no integer at all. -/
def count (d : Directive) (index : Nat) (name : String) : Except Fault Nat := do
  let token ← d.argument index
  match Number.signed? token.toList with
  | some i =>
    if i < 0 then .error (.invalidDirective s!"{name} '{token}' must not be negative.")
    else .ok i.toNat
  | none => .error (.invalidDirective s!"{name} '{token}' is not an integer.")

def character (d : Directive) (index : Nat) (name : String) : Except Fault Char := do
  let token ← d.argument index
  match token.toList with
  | [c] => .ok c
  | _ => .error (.invalidDirective s!"{name} '{token}' must be a single character.")

end Directive

structure Grammar where
  keyword : String
  /-- The number of tokens, with the keyword. -/
  arity : Nat
  policy : SplitPolicy
  usage : String
  deriving DecidableEq, Repr

namespace Grammar

/-- The number of tokens is looked at before the keyword. -/
def parse (g : Grammar) (line? : Option String) : Except Fault Directive :=
  match line? with
  | none => .error (.invalidDirective "Directive command line is null.")
  | some line =>
    let directive := Directive.tokenize g.policy line
    if directive.size ≠ g.arity then
      .error (.invalidDirective s!"Directive should have {g.arity} tokens. Usage: {g.usage}.")
    else if directive.keyword? ≠ some g.keyword then
      .error (.invalidDirective s!"Directive is not a {g.keyword} transformation. Usage: {g.usage}.")
    else .ok directive

end Grammar
end RowDirectives
