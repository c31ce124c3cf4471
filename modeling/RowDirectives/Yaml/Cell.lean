/-! The characters of a YAML text with their places. Indentation decides about the structure of a block, so
each character keeps its column and line. Line ends have one form here: a carriage return, a line feed,
both together or a next-line character become one line feed. -/
namespace RowDirectives.Yaml

/-- A character and its place. `offset` counts the bytes before it. -/
structure Cell where
  char : Char
  line : Nat
  column : Nat
  offset : Nat

namespace Cell

/-- Whether nothing stands in front of a character. -/
def isFirst (cell : Cell) : Bool := cell.line == 0 && cell.column == 0

/-- A byte order mark at the start of a line says nothing, but it takes a column. -/
def isOrderMark (cell : Cell) : Bool := cell.column == 0 && cell.char == '\uFEFF'

end Cell

/-- Characters that may occur anywhere in a text. -/
def isAllowed (c : Char) : Bool :=
  let n := c.toNat
  c == '\t' || c == '\n' || c == '\r' || (0x20 ≤ n && n ≤ 0x7E) || n == 0x85 ||
    (0xA0 ≤ n && n ≤ 0xD7FF) || (0xE000 ≤ n && n ≤ 0xFFFD) || 0x10000 ≤ n

/-- The end of a text, which no text contains. -/
def finish : Char := '\x00'

def lineSeparators : List Char := ['\u2028', '\u2029']

def isBreak (c : Char) : Bool := c == '\n' || lineSeparators.contains c

def isBlank (c : Char) : Bool := c == ' ' || c == '\t'

/-- Blanks, line breaks and the end: what may follow an indicator. -/
def isGap (c : Char) : Bool := isBlank c || isBreak c || c == finish

/-- Numbers the characters, and closes the text with a cell for its end. -/
def cellsFrom (line column offset : Nat) : List Char → List Cell
  | [] => [⟨finish, line, column, offset⟩]
  | '\r' :: '\n' :: rest => ⟨'\n', line, column, offset⟩ :: cellsFrom (line + 1) 0 (offset + 2) rest
  | c :: rest =>
    let next := offset + c.utf8Size
    let c := if c == '\r' || c == '\u0085' then '\n' else c
    ⟨c, line, column, offset⟩ ::
      if isBreak c then cellsFrom (line + 1) 0 next rest
      else cellsFrom line (column + 1) next rest

def cells (text : List Char) : List Cell := cellsFrom 0 0 0 text

def charAt (cells : List Cell) (offset : Nat) : Char :=
  (cells[offset]?.map Cell.char).getD finish

/-- Three equal characters at the start of a line, and nothing close behind them. -/
def marks (c : Char) (cells : List Cell) : Bool :=
  (cells.head?.any fun cell => cell.column == 0) && charAt cells 0 == c && charAt cells 1 == c &&
    charAt cells 2 == c && isGap (charAt cells 3)

/-- A line that starts or ends a document. -/
def isDocumentMark (cells : List Cell) : Bool := marks '-' cells || marks '.' cells

end RowDirectives.Yaml
