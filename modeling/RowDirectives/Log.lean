import RowDirectives.Stage.Basic

/-! What compiling and running report beside their results. -/
namespace RowDirectives

inductive Level where
  | error
  | warn
  | info
  | debug
  deriving DecidableEq, Repr

inductive LogEntry where
  | compiledDirective (line : String) (kind : Kind)
  | compiledPipeline (size : Nat)
  /-- `index` counts from one; the line is missing if the directive was. -/
  | refusedDirective (index : Nat) (line? : Option String) (fault : Fault)
  | failedSchemaStep (stage : Stage) (fault : Fault)
  | failedRowStep (stage : Stage) (fault : Fault)
  deriving DecidableEq, Repr

namespace Level

def name : Level → String
  | error => "ERROR"
  | warn => "WARN"
  | info => "INFO"
  | debug => "DEBUG"

end Level

namespace LogEntry

def level : LogEntry → Level
  | compiledDirective _ _ => .debug
  | compiledPipeline _ => .info
  | refusedDirective _ _ _ => .error
  | failedSchemaStep _ _ => .warn
  | failedRowStep _ _ => .warn

def message : LogEntry → String
  | compiledDirective line kind => s!"compiled directive '{line}' as {kind.title}"
  | compiledPipeline size => s!"compiled transformation pipeline with {size} stages"
  | refusedDirective index line? fault =>
    let line := line?.getD "<null>"
    s!"directive {index} ('{line}') failed to compile: {fault.message}"
  | failedSchemaStep stage fault => s!"schema step '{stage.line}' failed: {fault.message}"
  | failedRowStep stage fault => s!"value step '{stage.line}' failed: {fault.message}"

end LogEntry
end RowDirectives
