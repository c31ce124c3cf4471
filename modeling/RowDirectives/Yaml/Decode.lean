import RowDirectives.Text.Pieces
import RowDirectives.Yaml.Node

/-! Reading typed values off a YAML node, in the order of the text and up to the first mismatch. -/
namespace RowDirectives.Yaml

/-- A mismatch, and whether the scalar that caused it is the first thing in the text. -/
structure Misfit where
  mismatch : Mismatch
  leads : Bool
  deriving DecidableEq, Repr

namespace Misfit

def malformed : Misfit := ⟨.malformed, false⟩

/-- What stands between a message and the place of its cause. -/
def placeMark : String := " at line "

/-- A message ends before the place of its cause. The first thing in a text has no place, so where its
message has the mark of a place in itself, it ends there. -/
def message (m : Misfit) : String :=
  let whole := m.mismatch.message
  if m.leads then
    ((Text.beforeLast? placeMark.toList whole.toList).map String.ofList).getD whole
  else whole

end Misfit

namespace Node

/-- A mismatch that this node causes. -/
def misfit (node : Node) (mismatch : Mismatch) : Misfit :=
  match node with
  | scalar s => ⟨mismatch, s.leads⟩
  | _ => ⟨mismatch, false⟩

def refuse (node : Node) (expected : String) : Misfit :=
  node.misfit <| match node with
    | scalar s => .wrongType s.found expected
    | list _ _ => .wrongType .sequence expected
    | record _ _ => .wrongType .map expected
    | nothing => .malformed
    | broken => .malformed

/-- Any scalar is a text where a text is wanted. -/
def text (expected : String) : Node → Except Misfit String
  | scalar s => .ok s.text
  | node => .error (node.refuse expected)

/-- Whether nothing at all is written. -/
def isEmpty : Node → Bool
  | nothing => true
  | scalar s => s.plain && s.text.isEmpty
  | _ => false

/-- A list of values; nothing at all is an empty list. -/
def listOf {α : Type} (item : Node → Except Misfit α) (node : Node) : Except Misfit (List α) :=
  if node.isEmpty then .ok []
  else
    match node with
    | list items closed => do
      let values ← items.mapM item
      if closed then .ok values else .error .malformed
    | _ => .error (node.refuse "a sequence")

/-- Reads the entries of a record one after the other into `state`; nothing at all has no entries. An entry
is read from the node and the text of its name, and the node of its value. -/
def entriesInto {σ : Type} (title : String) (entry : σ → Node → String → Node → Except Misfit σ)
    (state : σ) (node : Node) : Except Misfit σ :=
  if node.isEmpty then .ok state
  else
    match node with
    | record entries closed => do
      let state ← entries.foldlM (fun state (name, value) => do
        entry state name (← name.text "field identifier") value) state
      if closed then .ok state else .error .malformed
    | _ => .error (node.refuse title)

/-- Reads a whole text with `reader`; nothing may follow its document. -/
def decode {α : Type} (reader : Node → Except Misfit α) (source : String) : Except Misfit α := do
  let (node, last) := ofTokens (tokens source.toList)
  let value ← reader node
  if last then .ok value else .error .malformed

end Node
end RowDirectives.Yaml
