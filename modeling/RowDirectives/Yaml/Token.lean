import RowDirectives.Yaml.Scalar

/-! The tokens of a YAML text. Indentation becomes tokens of its own: a block opens where something stands
further to the right than before, and closes where the text goes back. A scalar or a flow collection may
turn out to be the key of an entry only when the colon behind it is met; until then it is a candidate,
and the key token is put in front of it afterwards. Tokens are released in their order, each as soon as it
is certain, so what was certain before a flaw is still read. -/
namespace RowDirectives.Yaml

inductive Token where
  | scalar (value : Scalar)
  | entry
  | key
  | value
  | openList
  | closeList
  | openRecord
  | closeRecord
  | comma
  | openBlockList
  | openBlockRecord
  | closeBlock
  | openDocument
  | closeDocument
  | finish
  /-- Here the text stops being a row of tokens. -/
  | unreadable
  deriving DecidableEq, Repr

/-- A token that may still turn out to start a key. One that stands where the entries of its block start
has to be a key. `position` is the number of tokens before it. -/
structure Candidate where
  position : Nat
  required : Bool
  line : Nat
  column : Nat
  offset : Nat

/-- The state of a scan. `candidates` holds one place for each open flow collection and one for the block
around them, the innermost first. `tokens` are those that have not been released, and `released` is the
number of the others. The scan is finished when the end of the text has become a token. -/
structure Scan where
  rest : List Cell
  flow : Nat
  indent : Int
  outer : List Int
  keyAllowed : Bool
  candidates : List (Option Candidate)
  released : Nat
  tokens : List Token
  finished : Bool

namespace Scan

def start (text : List Cell) : Scan := ⟨text, 0, -1, [], true, [none], 0, [], false⟩

def inFlow (s : Scan) : Bool := s.flow != 0

/-- The number of tokens so far. -/
def size (s : Scan) : Nat := s.released + s.tokens.length

def push (s : Scan) (token : Token) : Scan := { s with tokens := s.tokens ++ [token] }

/-- Puts a token in front of one that has not been released. -/
def insert (s : Scan) (position : Nat) (token : Token) : Scan :=
  { s with tokens := s.tokens.insertIdx (position - s.released) token }

/-- Passes blanks, breaks, comments and the byte order marks of lines. A new line in a block may start a
key; a tab may not indent one. -/
def passBlanks (inFlow : Bool) : Bool → Bool → List Cell → Bool × List Cell
  | keyAllowed, _, [] => (keyAllowed, [])
  | keyAllowed, inComment, cell :: rest =>
    let c := cell.char
    if isBreak c then passBlanks inFlow (keyAllowed || !inFlow) false rest
    else if c == finish then (keyAllowed, cell :: rest)
    else if inComment || cell.isOrderMark || c == ' ' || c == '\t' && (inFlow || !keyAllowed) then
      passBlanks inFlow keyAllowed inComment rest
    else if c == '#' then passBlanks inFlow keyAllowed true rest
    else (keyAllowed, cell :: rest)

/-- The greatest number of bytes between the start of a key and its colon. -/
def keyReach : Nat := 1024

/-- Gives up candidates whose line is over or that are too far away; a required one must not be given up. -/
def dropStale (s : Scan) : Option Scan := do
  match s.rest with
  | [] => some s
  | here :: _ =>
    let candidates ← s.candidates.mapM fun candidate? =>
      match candidate? with
      | none => some none
      | some candidate =>
        if candidate.line < here.line || candidate.offset + keyReach < here.offset then
          if candidate.required then none else some none
        else some (some candidate)
    some { s with candidates := candidates }

/-- Closes the blocks that start right of a column. -/
def unindent (column : Int) (s : Scan) : Scan :=
  if s.inFlow then s else close s.indent s.outer s.tokens
where
  close (indent : Int) (outer : List Int) (tokens : List Token) : Scan :=
    match outer with
    | [] => { s with indent := indent, outer := [], tokens := tokens }
    | next :: others =>
      if column < indent then close next others (tokens ++ [.closeBlock])
      else { s with indent := indent, outer := next :: others, tokens := tokens }

/-- Opens a block at a column that lies right of the current one; its token goes to `position`. -/
def indentTo (s : Scan) (column position : Nat) (token : Token) : Scan :=
  if !s.inFlow && s.indent < column then
    { s with indent := column, outer := s.indent :: s.outer }.insert position token
  else s

/-- Gives up the innermost candidate. -/
def dropCandidate (s : Scan) : Option Scan :=
  match s.candidates with
  | some candidate :: others =>
    if candidate.required then none else some { s with candidates := none :: others }
  | _ => some s

/-- Notes that the next token may start a key. -/
def noteCandidate (s : Scan) : Option Scan :=
  match s.rest with
  | [] => some s
  | here :: _ =>
    if s.keyAllowed then
      s.dropCandidate.map fun s =>
        let candidate : Candidate :=
          { position := s.size
            required := !s.inFlow && s.indent == (here.column : Int)
            line := here.line
            column := here.column
            offset := here.offset }
        { s with candidates := some candidate :: s.candidates.drop 1 }
    else some s

def advance (s : Scan) (count : Nat) : Scan := { s with rest := s.rest.drop count }

def openFlow (s : Scan) (token : Token) : Option Scan :=
  s.noteCandidate.map fun s =>
    ({ s with flow := s.flow + 1, keyAllowed := true, candidates := none :: s.candidates }.push
      token).advance 1

def closeFlow (s : Scan) (token : Token) : Option Scan :=
  s.dropCandidate.map fun s =>
    let candidates := if s.inFlow then s.candidates.drop 1 else s.candidates
    ({ s with flow := s.flow - 1, keyAllowed := false, candidates := candidates }.push
      token).advance 1

def comma (s : Scan) : Option Scan :=
  s.dropCandidate.map fun s => ({ s with keyAllowed := true }.push .comma).advance 1

/-- A dash before a gap: the next entry of a list. -/
def entry (s : Scan) (column : Nat) : Option Scan :=
  if !s.inFlow && !s.keyAllowed then none
  else
    (s.indentTo column s.size .openBlockList).dropCandidate.map fun s =>
      ({ s with keyAllowed := true }.push .entry).advance 1

/-- A question mark before a gap: a key of any kind. -/
def explicitKey (s : Scan) (column : Nat) : Option Scan :=
  if !s.inFlow && !s.keyAllowed then none
  else
    (s.indentTo column s.size .openBlockRecord).dropCandidate.map fun s =>
      ({ s with keyAllowed := !s.inFlow }.push .key).advance 1

/-- A colon: what the innermost candidate started is a key, or the key has been given before. -/
def value (s : Scan) (column : Nat) : Option Scan :=
  match s.candidates with
  | some candidate :: others =>
    let s := { s with candidates := none :: others, keyAllowed := false }.insert candidate.position .key
    some (((s.indentTo candidate.column candidate.position .openBlockRecord).push .value).advance 1)
  | _ =>
    if !s.inFlow && !s.keyAllowed then none
    else
      let s := s.indentTo column s.size .openBlockRecord
      some (({ s with keyAllowed := !s.inFlow }.push .value).advance 1)

def scalar (s : Scan) (here : Cell) (plain : Bool) (scan : Scan → Option Scanned) : Option Scan := do
  let s ← s.noteCandidate
  let scanned ← scan s
  some ({ s with rest := scanned.rest, keyAllowed := scanned.broken }.push
    (.scalar ⟨String.ofList scanned.text, plain, here.isFirst⟩))

def documentMark (s : Scan) (token : Token) : Option Scan :=
  (s.unindent (-1)).dropCandidate.map fun s =>
    ({ s with keyAllowed := false }.push token).advance 3

/-- The end of the text ends its last line, if anything stands on it. -/
def finishText (s : Scan) (here : Cell) : Option Scan :=
  (s.unindent (-1)).dropCandidate.map fun s =>
    let line := if here.column == 0 then here.line else here.line + 1
    { s with
      keyAllowed := false
      rest := [{ here with line := line, column := 0 }]
      finished := true }.push .finish

/-- Characters that start no plain scalar, or only before certain others. -/
def indicators : List Char :=
  ['-', '?', ':', ',', '[', ']', '{', '}', '#', '&', '*', '!', '|', '>', '\'', '"', '%', '@', '\x60']

def startsPlain (inFlow : Bool) (c next : Char) : Bool :=
  !(isGap c || indicators.contains c) || (c == '-' && !isBlank next) ||
    (!inFlow && (c == '?' || c == ':') && !isGap next)

/-- Reads the token that starts at the first cell. -/
def token (s : Scan) (here : Cell) : Option Scan :=
  let c := here.char
  let next := charAt s.rest 1
  if c == Yaml.finish then s.finishText here
  else if here.column == 0 && c == '%' then none
  else if marks '-' s.rest then s.documentMark .openDocument
  else if marks '.' s.rest then s.documentMark .closeDocument
  else if c == '[' then s.openFlow .openList
  else if c == '{' then s.openFlow .openRecord
  else if c == ']' then s.closeFlow .closeList
  else if c == '}' then s.closeFlow .closeRecord
  else if c == ',' then s.comma
  else if c == '-' && isGap next then s.entry here.column
  else if c == '?' && (s.inFlow || isGap next) then s.explicitKey here.column
  else if c == ':' && (s.inFlow || isGap next) then s.value here.column
  else if c == '\'' then s.scalar here false fun s => scanSingle [] .none (s.rest.drop 1)
  else if c == '"' then s.scalar here false fun s => scanDouble [] .none .none (s.rest.drop 1)
  else if startsPlain s.inFlow c next then
    s.scalar here true fun s => scanPlain s.inFlow (s.indent + 1) [] .none s.rest
  else none

/-- Passes blanks and reads one token. -/
def step (s : Scan) : Option Scan := do
  let (keyAllowed, rest) := passBlanks s.inFlow s.keyAllowed false s.rest
  let s ← { s with keyAllowed := keyAllowed, rest := rest }.dropStale
  match s.rest with
  | [] => none
  | here :: _ => (s.unindent here.column).token here

/-- The number of tokens before the first that might still become a key. Only these are certain. -/
def certain (s : Scan) : Nat :=
  (((s.candidates.filterMap id).map Candidate.position).min?).getD s.size

/-- The tokens that have become certain, and the scan without them. -/
def release (s : Scan) : List Token × Scan :=
  let count := s.certain - s.released
  (s.tokens.take count, { s with released := s.released + count, tokens := s.tokens.drop count })

/-- The tokens of at most `count` steps. A step that fails releases nothing: neither the tokens it has made
nor those it would have made certain. -/
def run : Nat → Scan → List Token
  | 0, _ => [.unreadable]
  | count + 1, s =>
    match s.step.bind dropStale with
    | none => [.unreadable]
    | some s =>
      let (tokens, s) := s.release
      tokens ++ if s.finished then [] else run count s

end Scan

/-- The tokens of a text. Each step takes a character at least, and the cell of the end is the last. -/
def tokens (text : List Char) : List Token :=
  if text.all isAllowed then
    let text := cells text
    Scan.run text.length (Scan.start text)
  else [.unreadable]

end RowDirectives.Yaml
