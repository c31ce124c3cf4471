/-! Blank characters, and cutting a text at marked characters. The blanks are the characters with the
Unicode property `White_Space`; every place that splits, trims or looks for a keyword asks this one table.
`pieces` takes each mark for a boundary of its own, `runPieces` a whole run of marks for one boundary; both keep
the empty pieces at the ends, and `dropTrailing` removes those at the right end. `beforeLast?` cuts at the last
place where a whole phrase stands. -/
namespace RowDirectives.Text

def blankRanges : List (Nat × Nat) :=
  [(0x9, 0xD), (0x20, 0x20), (0x85, 0x85), (0xA0, 0xA0), (0x1680, 0x1680), (0x2000, 0x200A),
   (0x2028, 0x2029), (0x202F, 0x202F), (0x205F, 0x205F), (0x3000, 0x3000)]

def isBlank (c : Char) : Bool :=
  blankRanges.any fun (lo, hi) => lo ≤ c.toNat && c.toNat ≤ hi

theorem isBlank_space : isBlank ' ' = true := by decide

theorem isBlank_newline : isBlank '\n' = true := by decide

theorem isBlank_return : isBlank '\r' = true := by decide

/-- The text without the blanks at its two ends. -/
def trim (cs : List Char) : List Char :=
  ((cs.dropWhile isBlank).reverse.dropWhile isBlank).reverse

variable {α : Type}

/-- Puts a character in front of the first piece. -/
def consFirst (c : α) : List (List α) → List (List α)
  | [] => [[c]]
  | w :: ws => (c :: w) :: ws

def pieces (mark : α → Bool) : List α → List (List α)
  | [] => [[]]
  | c :: cs => if mark c then [] :: pieces mark cs else consFirst c (pieces mark cs)

/-- A mark before another mark opens no piece: only the last mark of a run does. -/
def runPieces (mark : α → Bool) : List α → List (List α)
  | [] => [[]]
  | c :: cs =>
    if mark c then
      if cs.head?.any mark then runPieces mark cs else [] :: runPieces mark cs
    else consFirst c (runPieces mark cs)

/-- The list without the empty pieces at its right end. -/
def dropTrailing : List (List α) → List (List α)
  | [] => []
  | w :: ws =>
    match dropTrailing ws with
    | [] => if w.isEmpty then [] else [w]
    | rest => w :: rest

/-- The first maximal run of unmarked characters. -/
def firstRun? (mark : α → Bool) (cs : List α) : Option (List α) :=
  match (cs.dropWhile mark).takeWhile (!mark ·) with
  | [] => none
  | run => some run

/-- What comes before the last occurrence of a phrase. -/
def beforeLast? [BEq α] (phrase : List α) : List α → Option (List α)
  | [] => if phrase.isEmpty then some [] else none
  | c :: cs =>
    match beforeLast? phrase cs with
    | some before => some (c :: before)
    | none => if phrase.isPrefixOf (c :: cs) then some [] else none

theorem pieces_ne_nil (mark : α → Bool) (cs : List α) : pieces mark cs ≠ [] := by
  cases cs with
  | nil => simp [pieces]
  | cons c cs =>
    unfold pieces
    split
    · simp
    · cases pieces mark cs <;> simp [consFirst]

end RowDirectives.Text
