import RowDirectives.Json.Decode
import RowDirectives.Proofs.Literals

/-! What is read from the text of a value. A value is written as a row of lexemes, and its text may have spaces
before, between and after them. Every such text is cut into the tokens of the lexemes, and the tokens have the
tree of the value. So a reader is given that tree, whatever the spaces are, and what it answers is a matter of
trees alone. -/
namespace RowDirectives.Json

/-- A token as it is written. -/
structure Lexeme where
  token : Token
  chars : List Char

/-- The number that a text stands for. -/
def numeralOf (cs : List Char) : Option Numeral := (scanNumber cs).bind fun found => found.1.numeral?

theorem numeralOf_chars {l : Literal} (h : l.Proper) : numeralOf l.chars = l.numeral? := by
  have hends : Ends [] := fun _ hc => by cases hc
  have hscan := Literal.scanNumber_chars h hends
  rw [List.append_nil] at hscan
  rw [numeralOf, hscan]
  rfl

namespace Lexeme

def null : Lexeme := ⟨.null, Json.chars .null⟩

def bool (b : Bool) : Lexeme := ⟨.bool b, Json.chars (.bool b)⟩

def number (cs : List Char) : Lexeme := ⟨.number (numeralOf cs), cs⟩

def string (s : String) : Lexeme := ⟨.string (some s), quote s⟩

def comma : Lexeme := ⟨.comma, [',']⟩

def colon : Lexeme := ⟨.colon, [':']⟩

def openList : Lexeme := ⟨.openList, ['[']⟩

def closeList : Lexeme := ⟨.closeList, [']']⟩

def openRecord : Lexeme := ⟨.openRecord, ['{']⟩

def closeRecord : Lexeme := ⟨.closeRecord, ['}']⟩

end Lexeme

mutual

def lexemes : Json → List Lexeme
  | null => [.null]
  | bool b => [.bool b]
  | int i => [.number (Number.signedDigits i)]
  | double x => [.number x.text]
  | string s => [.string s]
  | array items => .openList :: (itemLexemes items ++ [.closeList])
  | object members => .openRecord :: (memberLexemes members ++ [.closeRecord])

def itemLexemes : List Json → List Lexeme
  | [] => []
  | [item] => lexemes item
  | item :: rest => lexemes item ++ .comma :: itemLexemes rest

def memberLexemes : List (String × Json) → List Lexeme
  | [] => []
  | [(name, value)] => .string name :: .colon :: lexemes value
  | (name, value) :: rest =>
    .string name :: .colon :: (lexemes value ++ .comma :: memberLexemes rest)

end

mutual

theorem flatMap_lexemes : ∀ v : Json, v.lexemes.flatMap Lexeme.chars = v.chars
  | null => rfl
  | bool true => rfl
  | bool false => rfl
  | int i => by simp [lexemes, chars, Lexeme.number]
  | double x => by simp [lexemes, chars, Lexeme.number]
  | string s => by simp [lexemes, chars, Lexeme.string]
  | array items => by
    simp [lexemes, chars, flatMap_itemLexemes items, Lexeme.openList, Lexeme.closeList]
  | object members => by
    simp [lexemes, chars, flatMap_memberLexemes members, Lexeme.openRecord, Lexeme.closeRecord]

theorem flatMap_itemLexemes : ∀ items : List Json,
    (itemLexemes items).flatMap Lexeme.chars = itemChars items
  | [] => rfl
  | [item] => by rw [itemLexemes, itemChars, flatMap_lexemes item]
  | item :: next :: rest => by
    simp [itemLexemes, itemChars, flatMap_lexemes item, flatMap_itemLexemes (next :: rest),
      Lexeme.comma]

theorem flatMap_memberLexemes : ∀ members : List (String × Json),
    (memberLexemes members).flatMap Lexeme.chars = memberChars members
  | [] => rfl
  | [(name, value)] => by
    simp [memberLexemes, memberChars, flatMap_lexemes value, Lexeme.string, Lexeme.colon]
  | (name, value) :: next :: rest => by
    simp [memberLexemes, memberChars, flatMap_lexemes value, flatMap_memberLexemes (next :: rest),
      Lexeme.string, Lexeme.colon, Lexeme.comma]

end

section Lexing

variable {l : Lexeme} {ls : List Lexeme} {cs blanks : List Char} {c : Char} {rest : List Char}

def Spaces (cs : List Char) : Prop := ∀ c ∈ cs, isSpace c = true

/-- A text of the lexemes, with any spaces before, between and after them. -/
inductive Spaced : List Lexeme → List Char → Prop
  | trail {blanks : List Char} : Spaces blanks → Spaced [] blanks
  | lexeme {blanks cs : List Char} {l : Lexeme} {ls : List Lexeme} :
      Spaces blanks → Spaced ls cs → Spaced (l :: ls) (blanks ++ (l.chars ++ cs))

theorem spaced_flatMap (ls : List Lexeme) : Spaced ls (ls.flatMap Lexeme.chars) := by
  have hnone : Spaces [] := fun _ h => absurd h List.not_mem_nil
  induction ls with
  | nil => exact .trail hnone
  | cons l ls ih => exact .lexeme hnone ih

theorem eq_of_isSpace (h : isSpace c = true) : c = ' ' ∨ c = '\n' ∨ c = '\t' ∨ c = '\r' := by
  simpa [isSpace, or_assoc] using h

theorem ends_of_isSpace (h : isSpace c = true) :
    c.isDigit = false ∧ c ≠ '.' ∧ c ≠ 'e' ∧ c ≠ 'E' := by
  rcases eq_of_isSpace h with rfl | rfl | rfl | rfl <;> decide

theorem lexFrom_spaces (h : Spaces blanks) (cs : List Char) (count : Nat) :
    lexFrom (blanks.length + count) (blanks ++ cs) = lexFrom count cs := by
  induction blanks with
  | nil => rw [List.length_nil, Nat.zero_add, List.nil_append]
  | cons c blanks ih =>
    obtain ⟨hc, hblanks⟩ := List.forall_mem_cons.mp h
    rw [List.length_cons, Nat.add_right_comm, List.cons_append, lexFrom, if_pos hc, ih hblanks]

theorem lexFrom_of_scanToken {token : Token} (hc : isSpace c = false)
    (h : scanToken (c :: rest) = some (token, cs)) (count : Nat) :
    lexFrom (count + 1) (c :: rest) = token :: lexFrom count cs := by
  rw [lexFrom, if_neg (by simp [hc]), h]

/-- Every spaced text of the lexemes is cut into their tokens. -/
def Lexes (ls : List Lexeme) : Prop :=
  ∀ cs, Spaced ls cs → ∀ count, cs.length ≤ count → lexFrom count cs = ls.map Lexeme.token

/-- No spaced text of the lexemes goes on with a number that stands before it. -/
def Stops (ls : List Lexeme) : Prop := ∀ cs, Spaced ls cs → Ends cs

theorem lexes_nil : Lexes [] := by
  rintro blanks ⟨h⟩ count hcount
  obtain ⟨count, rfl⟩ := Nat.exists_eq_add_of_le hcount
  have hlex := lexFrom_spaces h [] count
  rw [List.append_nil] at hlex
  rw [hlex]
  cases count <;> rfl

theorem Lexes.cons (h : Lexes ls) (hchars : l.chars = c :: rest) (hc : isSpace c = false)
    (hscan : ∀ cs, Spaced ls cs → scanToken (l.chars ++ cs) = some (l.token, cs)) :
    Lexes (l :: ls) := by
  intro text htext count hcount
  cases htext with
  | @lexeme blanks cs _ _ hblanks hcs =>
    simp only [hchars, List.length_append, List.length_cons] at hcount
    obtain ⟨count, rfl⟩ := Nat.exists_eq_add_of_le hcount
    have htoken := hscan cs hcs
    rw [hchars, List.cons_append] at htoken
    have hsteps : blanks.length + (rest.length + 1 + cs.length) + count =
        blanks.length + ((rest.length + cs.length + count) + 1) := by omega
    rw [hsteps, lexFrom_spaces hblanks, hchars, List.cons_append, lexFrom_of_scanToken hc htoken,
      h cs hcs _ (by omega), List.map_cons]

theorem Lexes.mark (h : Lexes ls) {token : Token} (hc : isSpace c = false)
    (hscan : ∀ cs, scanToken (c :: cs) = some (token, cs)) : Lexes (⟨token, [c]⟩ :: ls) :=
  h.cons rfl hc fun cs _ => hscan cs

theorem Lexes.string (h : Lexes ls) (s : String) : Lexes (.string s :: ls) :=
  h.cons (l := .string s) rfl rfl fun cs _ => scanToken_quote s cs

theorem Literal.Proper.exists_chars {l : Literal} (h : l.Proper) :
    ∃ c rest, l.chars = c :: rest ∧ (c.isDigit = true ∨ c = '-') := by
  obtain ⟨c, whole, hwhole⟩ := List.exists_cons_of_ne_nil h.ne_nil
  rw [Literal.chars, Literal.unsignedChars, hwhole]
  split
  · exact ⟨_, _, rfl, .inr rfl⟩
  · exact ⟨_, _, rfl, .inl (h.isDigit c (hwhole ▸ List.mem_cons_self))⟩

theorem scanToken_of_lead (h : c.isDigit = true ∨ c = '-') (cs : List Char) :
    scanToken (c :: cs) = (scanNumber (c :: cs)).map fun found =>
      (.number found.1.numeral?, found.2) := by
  rw [scanToken]
  all_goals
    intro _ heq
    obtain ⟨rfl, -⟩ := List.cons.inj heq
    exact absurd h (by decide)

theorem isSpace_of_lead (h : c.isDigit = true ∨ c = '-') : isSpace c = false := by
  by_cases hspace : isSpace c = true
  · rcases eq_of_isSpace hspace with rfl | rfl | rfl | rfl <;> exact absurd h (by decide)
  · exact eq_false_of_ne_true hspace

theorem Lexes.number (h : Lexes ls) (hstops : Stops ls) {literal : Literal} (hliteral : literal.Proper)
    (hcs : literal.chars = cs) : Lexes (.number cs :: ls) := by
  subst hcs
  obtain ⟨c, rest, hchars, hc⟩ := hliteral.exists_chars
  refine h.cons (l := .number literal.chars) hchars (isSpace_of_lead hc) fun cs hcs => ?_
  have hscan := Literal.scanNumber_chars hliteral (hstops cs hcs)
  simp only [Lexeme.number, numeralOf_chars hliteral]
  rw [hchars, List.cons_append] at hscan ⊢
  rw [scanToken_of_lead hc, hscan]
  rfl

theorem stops_nil : Stops [] := by
  rintro blanks ⟨h⟩ c hc
  exact ends_of_isSpace (h c (List.mem_of_mem_head? hc))

theorem stops_cons (hchars : l.chars = c :: rest)
    (hc : c.isDigit = false ∧ c ≠ '.' ∧ c ≠ 'e' ∧ c ≠ 'E') (ls : List Lexeme) : Stops (l :: ls) := by
  intro text htext d hd
  cases htext with
  | @lexeme blanks cs _ _ hblanks hcs =>
    cases blanks with
    | nil =>
      rw [hchars] at hd
      obtain rfl := Option.some.inj hd
      exact hc
    | cons blank blanks =>
      obtain rfl := Option.some.inj hd
      exact ends_of_isSpace (hblanks blank List.mem_cons_self)

theorem stops_comma (ls : List Lexeme) : Stops (.comma :: ls) :=
  stops_cons (l := .comma) rfl (by decide) ls

mutual

theorem lexes_lexemes : ∀ (v : Json) {ls : List Lexeme}, Lexes ls → Stops ls → Lexes (v.lexemes ++ ls)
  | null, _, h, _ => h.cons rfl rfl fun _ _ => rfl
  | bool true, _, h, _ => h.cons rfl rfl fun _ _ => rfl
  | bool false, _, h, _ => h.cons rfl rfl fun _ _ => rfl
  | int i, _, h, hstops => h.number hstops (Literal.proper_ofInt i) (Literal.chars_ofInt i)
  | double x, _, h, hstops => by
    obtain ⟨literal, hliteral, hchars⟩ := x.exists_literal
    exact h.number hstops hliteral hchars
  | string s, _, h, _ => h.string s
  | array items, ls, h, _ => by
    have hclose : Lexes (.closeList :: ls) := h.mark rfl fun _ => rfl
    have hstops : Stops (.closeList :: ls) := stops_cons (l := .closeList) rfl (by decide) ls
    rw [lexemes, List.cons_append, List.append_assoc]
    exact (lexes_itemLexemes items hclose hstops).mark rfl fun _ => rfl
  | object members, ls, h, _ => by
    have hclose : Lexes (.closeRecord :: ls) := h.mark rfl fun _ => rfl
    have hstops : Stops (.closeRecord :: ls) := stops_cons (l := .closeRecord) rfl (by decide) ls
    rw [lexemes, List.cons_append, List.append_assoc]
    exact (lexes_memberLexemes members hclose hstops).mark rfl fun _ => rfl

theorem lexes_itemLexemes : ∀ (items : List Json) {ls : List Lexeme},
    Lexes ls → Stops ls → Lexes (itemLexemes items ++ ls)
  | [], _, h, _ => h
  | [item], _, h, hstops => lexes_lexemes item h hstops
  | item :: next :: rest, ls, h, hstops => by
    have hrest : Lexes (.comma :: (itemLexemes (next :: rest) ++ ls)) :=
      (lexes_itemLexemes (next :: rest) h hstops).mark rfl fun _ => rfl
    have hall := lexes_lexemes item hrest (stops_comma _)
    simpa [itemLexemes] using hall

theorem lexes_memberLexemes : ∀ (members : List (String × Json)) {ls : List Lexeme},
    Lexes ls → Stops ls → Lexes (memberLexemes members ++ ls)
  | [], _, h, _ => h
  | [(name, value)], ls, h, hstops => by
    have hvalue : Lexes (.colon :: (value.lexemes ++ ls)) :=
      (lexes_lexemes value h hstops).mark rfl fun _ => rfl
    exact hvalue.string name
  | (name, value) :: next :: rest, ls, h, hstops => by
    have hrest : Lexes (.comma :: (memberLexemes (next :: rest) ++ ls)) :=
      (lexes_memberLexemes (next :: rest) h hstops).mark rfl fun _ => rfl
    have hvalue : Lexes (.colon :: (value.lexemes ++ .comma :: (memberLexemes (next :: rest) ++ ls))) :=
      (lexes_lexemes value hrest (stops_comma _)).mark rfl fun _ => rfl
    simpa [memberLexemes] using hvalue.string name

end

end Lexing

section Parsing

mutual

/-- The tree of a value; a double has that of its text. -/
def tree : Json → Tree
  | null => .null
  | bool b => .bool b
  | int i => .number (numeralOf (Number.signedDigits i))
  | double x => .number (numeralOf x.text)
  | string s => .string (some s)
  | array items => .list (itemTrees items) true
  | object members => .record (memberTrees members) true

def itemTrees : List Json → List Tree
  | [] => []
  | item :: rest => tree item :: itemTrees rest

def memberTrees : List (String × Json) → List (Option String × Tree)
  | [] => []
  | (name, value) :: rest => (some name, tree value) :: memberTrees rest

end

theorem itemTrees_eq_map (items : List Json) : itemTrees items = items.map tree := by
  induction items with
  | nil => rfl
  | cons item rest ih => rw [itemTrees, ih, List.map_cons]

theorem memberTrees_eq_map (members : List (String × Json)) :
    memberTrees members = members.map fun member => (some member.1, member.2.tree) := by
  induction members with
  | nil => rfl
  | cons member rest ih => rw [memberTrees, ih, List.map_cons]

theorem tree_int {i : Int} (hlow : leastInt ≤ i) (hhigh : i ≤ greatestInt) :
    (int i).tree = .number (some (.int i)) := by
  rw [tree, ← Literal.chars_ofInt, numeralOf_chars (Literal.proper_ofInt i),
    Literal.numeral?_ofInt hlow hhigh]

mutual

theorem complete_tree : ∀ v : Json, v.tree.complete = true
  | null => rfl
  | bool _ => rfl
  | int _ => rfl
  | double _ => rfl
  | string _ => rfl
  | array items => by rw [tree, Tree.complete, complete_itemTrees items, Bool.and_self]
  | object members => by rw [tree, Tree.complete, complete_memberTrees members, Bool.and_self]

theorem complete_itemTrees : ∀ items : List Json, Tree.completeItems (itemTrees items) = true
  | [] => rfl
  | item :: rest => by
    rw [itemTrees, Tree.completeItems, complete_tree item, complete_itemTrees rest, Bool.and_self]

theorem complete_memberTrees : ∀ members : List (String × Json),
    Tree.completeEntries (memberTrees members) = true
  | [] => rfl
  | (name, value) :: rest => by
    rw [memberTrees, Tree.completeEntries, complete_tree value, complete_memberTrees rest,
      Bool.and_self]

end

def tokens (v : Json) : List Token := v.lexemes.map Lexeme.token

def itemTokens (items : List Json) : List Token := (itemLexemes items).map Lexeme.token

def memberTokens (members : List (String × Json)) : List Token :=
  (memberLexemes members).map Lexeme.token

theorem tokens_array (items : List Json) :
    (array items).tokens = .openList :: (itemTokens items ++ [.closeList]) := by
  simp [tokens, itemTokens, lexemes, Lexeme.openList, Lexeme.closeList]

theorem tokens_object (members : List (String × Json)) :
    (object members).tokens = .openRecord :: (memberTokens members ++ [.closeRecord]) := by
  simp [tokens, memberTokens, lexemes, Lexeme.openRecord, Lexeme.closeRecord]

theorem itemTokens_singleton (item : Json) : itemTokens [item] = item.tokens := rfl

theorem itemTokens_cons (item next : Json) (rest : List Json) :
    itemTokens (item :: next :: rest) = item.tokens ++ .comma :: itemTokens (next :: rest) := by
  simp [itemTokens, itemLexemes, tokens, Lexeme.comma]

theorem memberTokens_singleton (name : String) (value : Json) :
    memberTokens [(name, value)] = .string (some name) :: .colon :: value.tokens := rfl

theorem memberTokens_cons (name : String) (value : Json) (next : String × Json)
    (rest : List (String × Json)) :
    memberTokens ((name, value) :: next :: rest) = .string (some name) :: .colon ::
      (value.tokens ++ .comma :: memberTokens (next :: rest)) := by
  simp [memberTokens, memberLexemes, tokens, Lexeme.string, Lexeme.colon, Lexeme.comma]

/-- No item starts with the end of its list. -/
theorem exists_itemTokens_eq_cons (item : Json) (items : List Json) :
    ∃ token rest, itemTokens (item :: items) = token :: rest ∧ token ≠ .closeList := by
  have hfirst : ∃ token rest, item.tokens = token :: rest ∧ token ≠ .closeList := by
    cases item <;> exact ⟨_, _, rfl, by rintro ⟨⟩⟩
  obtain ⟨token, rest, hrest, htoken⟩ := hfirst
  cases items with
  | nil => exact ⟨token, rest, hrest, htoken⟩
  | cons next items => exact ⟨token, _, by rw [itemTokens_cons, hrest, List.cons_append], htoken⟩

variable {after : List Token} {count : Nat}

theorem parseValue_openList {token : Token} (h : token ≠ .closeList) (count : Nat)
    (rest : List Token) : parseValue (count + 1) (.openList :: token :: rest) =
      (.list (parseItems count (token :: rest)).1 (parseItems count (token :: rest)).2.1,
        (parseItems count (token :: rest)).2.2) := by
  cases token <;> first | rfl | exact absurd rfl h

theorem parseValue_array {item : Json} {items : List Json} {trees : List Tree}
    (h : parseItems count (itemTokens (item :: items) ++ .closeList :: after) = (trees, true, after)) :
    parseValue (count + 1) ((array (item :: items)).tokens ++ after) = (.list trees true, after) := by
  obtain ⟨token, rest, hrest, htoken⟩ := exists_itemTokens_eq_cons item items
  rw [hrest, List.cons_append] at h
  rw [tokens_array, hrest, List.cons_append, List.cons_append, List.cons_append, List.append_assoc,
    List.singleton_append, parseValue_openList htoken, h]

theorem parseValue_object {member : String × Json} {members : List (String × Json)}
    {trees : List (Option String × Tree)}
    (h : parseEntries count (memberTokens (member :: members) ++ .closeRecord :: after) =
      (trees, true, after)) :
    parseValue (count + 1) ((object (member :: members)).tokens ++ after) =
      (.record trees true, after) := by
  obtain ⟨name, rest, hrest⟩ : ∃ name rest,
      memberTokens (member :: members) = .string (some name) :: rest := by
    cases members <;> exact ⟨_, _, rfl⟩
  rw [hrest, List.cons_append] at h
  rw [tokens_object, hrest, List.cons_append, List.cons_append, List.cons_append, List.append_assoc,
    List.singleton_append, parseValue]
  · simp only [h]
  · rintro _ ⟨⟩

mutual

/-- Two steps for each token are enough. -/
theorem parseValue_tokens : ∀ (v : Json) (after : List Token) (count : Nat),
    2 * v.tokens.length ≤ count → parseValue count (v.tokens ++ after) = (v.tree, after)
  | null, _, _ + 1, _ => rfl
  | bool _, _, _ + 1, _ => rfl
  | int _, _, _ + 1, _ => rfl
  | double _, _, _ + 1, _ => rfl
  | string _, _, _ + 1, _ => rfl
  | array [], _, _ + 1, _ => rfl
  | object [], _, _ + 1, _ => rfl
  | array (item :: rest), after, count + 1, h => by
    simp only [tokens_array, List.length_cons, List.length_append, List.length_nil] at h
    exact parseValue_array (parseItems_itemTokens item rest after count (by omega))
  | object (member :: rest), after, count + 1, h => by
    simp only [tokens_object, List.length_cons, List.length_append, List.length_nil] at h
    exact parseValue_object (parseEntries_memberTokens member rest after count (by omega))

theorem parseItems_itemTokens : ∀ (item : Json) (rest : List Json) (after : List Token) (count : Nat),
    2 * (itemTokens (item :: rest)).length + 1 ≤ count →
    parseItems count (itemTokens (item :: rest) ++ .closeList :: after) =
      (itemTrees (item :: rest), true, after)
  | item, [], after, count + 1, h => by
    rw [itemTokens_singleton] at h ⊢
    rw [parseItems, parseValue_tokens item (.closeList :: after) count (by omega)]
    rfl
  | item, next :: rest, after, count + 1, h => by
    rw [itemTokens_cons] at h ⊢
    simp only [List.length_append, List.length_cons] at h
    have hrest := parseItems_itemTokens next rest after count (by omega)
    rw [parseItems, List.append_assoc, parseValue_tokens item _ count (by omega), List.cons_append]
    simp only [hrest]
    rfl

theorem parseEntries_memberTokens : ∀ (member : String × Json) (rest : List (String × Json))
    (after : List Token) (count : Nat), 2 * (memberTokens (member :: rest)).length + 1 ≤ count →
    parseEntries count (memberTokens (member :: rest) ++ .closeRecord :: after) =
      (memberTrees (member :: rest), true, after)
  | (name, value), [], after, count + 1, h => by
    rw [memberTokens_singleton] at h ⊢
    simp only [List.length_cons] at h
    rw [List.cons_append, List.cons_append, parseEntries,
      parseValue_tokens value (.closeRecord :: after) count (by omega)]
    rfl
  | (name, value), next :: rest, after, count + 1, h => by
    rw [memberTokens_cons] at h ⊢
    simp only [List.length_append, List.length_cons] at h
    have hrest := parseEntries_memberTokens next rest after count (by omega)
    rw [List.cons_append, List.cons_append, parseEntries, List.append_assoc,
      parseValue_tokens value _ count (by omega), List.cons_append]
    simp only [hrest]
    rfl

end

theorem parse_tokens (v : Json) : parse v.tokens = (v.tree, []) := by
  have h := parseValue_tokens v [] (2 * v.tokens.length + 1) (by omega)
  rwa [List.append_nil] at h

end Parsing

/-- The text holds the value, with any spaces around what is written of it. -/
def Writes (v : Json) (text : String) : Prop := Spaced v.lexemes text.toList

variable {v : Json} {text : String}

theorem writes_render (v : Json) : v.Writes v.render := by
  rw [Writes, render, String.toList_ofList, ← flatMap_lexemes]
  exact spaced_flatMap v.lexemes

theorem Writes.lex_eq (h : v.Writes text) : lex text.toList = v.tokens := by
  have hall := lexes_lexemes v lexes_nil stops_nil
  rw [List.append_nil] at hall
  exact hall text.toList h _ (Nat.le_refl _)

/-- A reader sees the tree of the value that a text holds, and all of the text is read. -/
theorem Writes.decode_eq {α : Type} (h : v.Writes text) (reader : Tree → Except Mismatch α) :
    Tree.decode reader text = reader v.tree := by
  rw [Tree.decode, h.lex_eq, parse_tokens]
  cases hvalue : reader v.tree <;> simp [hvalue, bind, Except.bind]

end RowDirectives.Json
