import RowDirectives.Fault

/-! Masks replace characters of a text by a cover character. They count characters, never change their
number, and leave a text alone that is too short for them. -/
namespace RowDirectives

/-- The end of a text that stays readable. -/
inductive Side where
  | left
  | right
  deriving DecidableEq, Repr

namespace Side

def name : Side → String
  | left => "left"
  | right => "right"

/-- The names are read in any mixture of upper and lower case letters, ASCII ones only. -/
def read (token : String) : Except Fault Side :=
  let lower := token.toList.map Char.toLower
  if lower = "left".toList then .ok left
  else if lower = "right".toList then .ok right
  else .error (.invalidDirective s!"Masking direction '{token}' must be either left or right.")

end Side

inductive Mask where
  /-- Covers the characters from `start` up to, but without, `stop` with asterisks. -/
  | range (start stop : Nat)
  /-- Keeps `count` characters at one side and covers all others. -/
  | substitution (side : Side) (cover : Char) (count : Nat)
  deriving DecidableEq, Repr

namespace Mask

def rangeCover : Char := '*'

def cover : Mask → Char
  | range _ _ => rangeCover
  | substitution _ cover _ => cover

/-- Texts of this length or shorter are left alone. -/
def threshold : Mask → Nat
  | range start _ => start
  | substitution _ _ count => count

/-- Whether the character at `index` is covered in a text of `length` characters. -/
def covers (m : Mask) (length index : Nat) : Bool :=
  match m with
  | range start stop => start ≤ index && index < min stop length
  | substitution .left _ count => count ≤ index
  | substitution .right _ count => index < length - count

def applyChars (m : Mask) (cs : List Char) : List Char :=
  cs.mapIdx fun index c => if m.covers cs.length index then m.cover else c

/-- The masked text, none where the text is too short. -/
def masked? (m : Mask) (text : String) : Option String :=
  if text.length ≤ m.threshold then none
  else some (String.ofList (m.applyChars text.toList))

end Mask
end RowDirectives
