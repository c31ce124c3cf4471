import RowDirectives.Pipeline
import RowDirectives.Stored
import RowDirectives.Yaml.Decode

/-! Configurations: which mask revision is meant, and the directives of the pipeline. They are read from
JSON, where they are a record of the two parts or a list of them in order, from YAML, where an empty text is the
default configuration, and from scripts. Either part of a record may be missing, and it has no other part. The
extension of a file's name tells the format. -/
namespace RowDirectives

structure Config where
  maskGrammar : MaskGrammar
  directives : List String
  deriving DecidableEq, Repr

namespace Config

def default : Config := ⟨.default, []⟩

def registry (c : Config) : Registry := .ofMaskGrammar c.maskGrammar

def build (c : Config) : Except Fault Pipeline × List LogEntry :=
  Pipeline.compile c.registry (c.directives.map some)

/-- A script is a configuration with the default revision. -/
def ofScript (script : String) : Config := ⟨.default, Script.directives script⟩

/-- The parts of a configuration that have been read so far. -/
structure Parts where
  maskGrammar? : Option MaskGrammar
  directives? : Option (List String)

namespace Parts

def empty : Parts := ⟨none, none⟩

/-- What was not given has its default value. -/
def config (parts : Parts) : Config :=
  ⟨parts.maskGrammar?.getD .default, parts.directives?.getD []⟩

end Parts

def knownFields : List String := ["mask_grammar", "directives"]

def title : String := "struct ZiPipelineConfig"

section Json
open Json

def toJson (c : Config) : Json :=
  .object [("directives", .array (c.directives.map .string)),
    ("mask_grammar", .string c.maskGrammar.storedName)]

def maskGrammarOfTree (tree : Tree) : Except Mismatch MaskGrammar :=
  Tree.nameAmong MaskGrammar.alternatives tree

def directivesOfTree (tree : Tree) : Except Mismatch (List String) :=
  Tree.listOf (depthLimit - 1) Tree.text tree

/-- Reads a bare list of directives. -/
def readDirectives (text : String) : Except Mismatch (List String) :=
  Tree.decode directivesOfTree text

def entry (parts : Parts) (name : String) (tree : Tree) : Except Mismatch Parts :=
  if name = "mask_grammar" then
    if parts.maskGrammar?.isSome then .error (.duplicateField name)
    else (maskGrammarOfTree tree).map fun g => { parts with maskGrammar? := some g }
  else if name = "directives" then
    if parts.directives?.isSome then .error (.duplicateField name)
    else (directivesOfTree tree).map fun ds => { parts with directives? := some ds }
  else .error (.unknownField name knownFields)

def ofItems : List Tree → Except Mismatch Config
  | [] => .ok default
  | [g] => do
    let g ← maskGrammarOfTree g
    .ok { default with maskGrammar := g }
  | g :: ds :: others => do
    let g ← maskGrammarOfTree g
    let ds ← directivesOfTree ds
    if others.isEmpty then .ok ⟨g, ds⟩ else .error .malformed

def ofTree : Tree → Except Mismatch Config
  | .list items closed => do
    let config ← ofItems items
    if closed then .ok config else .error .malformed
  | .record entries closed => do
    let parts ← Tree.entriesInto entry Parts.empty entries
    if closed then .ok parts.config else .error .malformed
  | tree => .error (tree.refuse title)

/-- The message of a refusal does not go on to tell the place in the text. -/
def ofJsonText (source : String) : Except Fault Config :=
  (Tree.decode ofTree source).mapError fun mismatch =>
    .config s!"Invalid JSON config: {mismatch.message}"

end Json

end Config

section Yaml
open Yaml

namespace MaskGrammar

/-- A revision is named by a scalar of any kind. -/
def ofNode (node : Node) : Except Misfit MaskGrammar := do
  let name ← node.text "a YAML tag starting with '!'"
  (Json.Tree.chooseFrom alternatives name).mapError node.misfit

def ofYamlText (source : String) : Except Fault MaskGrammar :=
  (Node.decode ofNode source).mapError fun misfit => .serialization misfit.message

end MaskGrammar

namespace Config

def nodeEntry (parts : Parts) (key : Node) (name : String) (node : Node) : Except Misfit Parts :=
  if name = "mask_grammar" then
    if parts.maskGrammar?.isSome then .error (key.misfit (.duplicateField name))
    else (MaskGrammar.ofNode node).map fun g => { parts with maskGrammar? := some g }
  else if name = "directives" then
    if parts.directives?.isSome then .error (key.misfit (.duplicateField name))
    else (node.listOf fun item => item.text "a string").map fun ds =>
      { parts with directives? := some ds }
  else .error (key.misfit (.unknownField name knownFields))

def ofNode (node : Node) : Except Misfit Config :=
  (node.entriesInto title nodeEntry Parts.empty).map Parts.config

def ofYamlText (source : String) : Except Fault Config :=
  (Node.decode ofNode source).mapError fun misfit =>
    .config s!"Invalid YAML config: {misfit.message}"

end Config

end Yaml

namespace Config

/-- The last part of a path whose parts end in slashes. Empty parts and single dots do not count. -/
def lastPart (path : List Char) : List Char :=
  ((Text.pieces (· == '/') path).filter fun part => part != [] && part != ['.']).getLast?.getD []

/-- What follows the last dot of a name; nothing if that dot is the first character. -/
def extension (name : List Char) : List Char :=
  match name.reverse.span (· != '.') with
  | (_, []) => []
  | (_, [_]) => []
  | (reversed, _) => reversed.reverse

inductive Format where
  | json
  | yaml
  | script
  deriving DecidableEq, Repr

/-- The extension of the last part of a path tells the format. Extensions are compared without regard to case.
Lower-casing ASCII letters is enough: no other character has a letter of these extensions as its lower case. -/
def formatOf (path : String) : Format :=
  let lower := String.ofList ((extension (lastPart path.toList)).map Char.toLower)
  if lower = "json" then .json
  else if lower = "yaml" || lower = "yml" then .yaml
  else .script

/-- Reads a configuration from the path and the content of a file. The content is missing when there is
no such file. -/
def ofFile (path : String) (content? : Option ByteArray) : Except Fault Config :=
  match content? with
  | none => .error (.io "No such file or directory (os error 2)")
  | some bytes =>
    match String.fromUTF8? bytes with
    | none => .error (.io "stream did not contain valid UTF-8")
    | some source =>
      match formatOf path with
      | .json => ofJsonText source
      | .yaml => ofYamlText source
      | .script => .ok (ofScript source)

end Config
end RowDirectives
