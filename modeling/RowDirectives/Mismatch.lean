import RowDirectives.Text.Quoted

/-! Why a text does not hold a value of the wanted type, and how that is said. -/
namespace RowDirectives

/-- What stands where a value of another type was wanted. -/
inductive Found where
  | bool (value : Bool)
  | integer (value : Int)
  /-- An integer beyond 64 bits. -/
  | wideInteger (value : Int)
  | floating (text : String)
  | string (value : String)
  | null
  | unit
  | sequence
  | map
  | unitVariant
  deriving DecidableEq, Repr

inductive Mismatch where
  /-- The text is not well formed, or has no value of the right shape at all. -/
  | malformed
  | wrongType (found : Found) (expected : String)
  | wrongLength (length : Nat) (expected : String)
  | unknownField (name : String) (known : List String)
  | unknownVariant (name : String) (known : List String)
  | duplicateField (name : String)
  | missingField (name : String)
  deriving DecidableEq, Repr

namespace Found

def message : Found → String
  | bool b => s!"boolean `{b}`"
  | integer i => s!"integer `{i}`"
  | wideInteger i => if i < 0 then s!"integer `{i}` as i128" else s!"integer `{i}` as u128"
  | floating text => s!"floating point `{text}`"
  | string s => s!"string {Text.quoted s}"
  | null => "null"
  | unit => "unit value"
  | sequence => "sequence"
  | map => "map"
  | unitVariant => "unit variant"

end Found

namespace Mismatch

/-- The known names between backticks: two are joined by a word, more are listed. -/
def choice (known : List String) : String :=
  let names := known.map fun name => s!"`{name}`"
  match names with
  | [a, b] => s!"{a} or {b}"
  | [a] => a
  | names => "one of " ++ ", ".intercalate names

/-- What is wrong, but not where: the place in the text is not told. A text that is not well formed may be so
in many ways, and there is one word for all of them. -/
def message : Mismatch → String
  | malformed => "malformed"
  | wrongType found expected => s!"invalid type: {found.message}, expected {expected}"
  | wrongLength n expected => s!"invalid length {n}, expected {expected}"
  | unknownField name known => s!"unknown field `{name}`, expected {choice known}"
  | unknownVariant name known => s!"unknown variant `{name}`, expected {choice known}"
  | duplicateField name => s!"duplicate field `{name}`"
  | missingField name => s!"missing field `{name}`"

end Mismatch
end RowDirectives
