import RowDirectives.Registry
import RowDirectives.Stage.Step

/-! Pipelines: stages in the order in which they are applied. The first failure ends what is done, and what
was changed before it stays changed. Scripts hold the directives of a pipeline, one a line. Blanks around a
directive do not count, so a line may end in a carriage return; empty lines and lines that start with `#` hold
none. -/
namespace RowDirectives

namespace Script

def isDirective (line : List Char) : Bool :=
  !line.isEmpty && line.head? != some '#'

def lines (script : List Char) : List (List Char) :=
  ((Text.pieces (· == '\n') script).map Text.trim).filter isDirective

def directives (script : String) : List String :=
  (lines script.toList).map String.ofList

end Script

structure Pipeline where
  stages : List Stage
  deriving DecidableEq, Repr

/-- What is left after the work on a host: how it ended, the host, and what was reported. -/
structure Outcome (σ : Type) where
  result : Except Fault Unit
  state : σ
  log : List LogEntry

namespace Pipeline

def name : String := "pipeline"

def size (p : Pipeline) : Nat := p.stages.length

def isEmpty (p : Pipeline) : Bool := p.stages.isEmpty

/-- The canonical text of every stage. -/
def directives (p : Pipeline) : List String := p.stages.map Stage.line

/-- The stages of the lines, the first of which has the number `index`. -/
def compileFrom (r : Registry) (index : Nat) :
    List (Option String) → Except Fault (List Stage) × List LogEntry
  | [] => (.ok [], [])
  | line? :: rest =>
    match r.compile line? with
    | (.error fault, log) => (.error fault, log ++ [.refusedDirective index line? fault])
    | (.ok stage, log) =>
      let (stages, later) := compileFrom r (index + 1) rest
      (stages.map (stage :: ·), log ++ later)

/-- Compiles all lines, or none: the first refusal is the answer. -/
def compile (r : Registry) (lines : List (Option String)) :
    Except Fault Pipeline × List LogEntry :=
  match compileFrom r 1 lines with
  | (.ok stages, log) => (.ok ⟨stages⟩, log ++ [.compiledPipeline stages.length])
  | (.error fault, log) => (.error fault, log)

def compileScript (r : Registry) (script : String) : Except Fault Pipeline × List LogEntry :=
  compile r ((Script.directives script).map some)

/-- Takes the steps of the stages one after the other, and reports the one that fails. -/
def steps {σ : Type} (step : Stage → Step σ Unit) (report : Stage → Fault → LogEntry) :
    List Stage → σ → Outcome σ
  | [], s => ⟨.ok (), s, []⟩
  | stage :: rest, s =>
    match (step stage).run s with
    | (.ok (), s') => steps step report rest s'
    | (.error fault, s') => ⟨.error fault, s', [report stage fault]⟩

def transformSchema {σ : Type} [SchemaHost σ] (p : Pipeline) (schema : σ) : Outcome σ :=
  steps Stage.schemaStep .failedSchemaStep p.stages schema

def transformRow {σ : Type} [RowHost σ] (p : Pipeline) (row : σ) : Outcome σ :=
  steps Stage.rowStep .failedRowStep p.stages row

/-- Transforms rows in order up to the first that fails; the rows after it stay as they are. -/
def transformRows (p : Pipeline) : List Row → Outcome (List Row)
  | [] => ⟨.ok (), [], []⟩
  | row :: rest =>
    let first := p.transformRow row
    match first.result with
    | .ok () =>
      let others := transformRows p rest
      ⟨others.result, first.state :: others.state, first.log ++ others.log⟩
    | .error fault => ⟨.error fault, first.state :: rest, first.log⟩

/-- The schema first, then the rows, unless the schema step failed. -/
def run (p : Pipeline) (schema : Schema) (rows : List Row) : Outcome (Schema × List Row) :=
  let first := p.transformSchema schema
  match first.result with
  | .ok () =>
    let others := p.transformRows rows
    ⟨others.result, (first.state, others.state), first.log ++ others.log⟩
  | .error fault => ⟨.error fault, (first.state, rows), first.log⟩

end Pipeline
end RowDirectives
