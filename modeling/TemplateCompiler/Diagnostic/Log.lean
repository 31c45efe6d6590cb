import TemplateCompiler.Diagnostic.Basic

/-!
# Diagnostic logs

The diagnostics of several sources, in the order in which they were reported.
-/

namespace TemplateCompiler

/-- Diagnostics in the order of their reports. -/
structure DiagnosticLog where
  diagnostics : List Diagnostic
deriving DecidableEq, Repr

namespace DiagnosticLog

def empty : DiagnosticLog :=
  ⟨[]⟩

def report (log : DiagnosticLog) (diagnostic : Diagnostic) : DiagnosticLog :=
  ⟨log.diagnostics ++ [diagnostic]⟩

def size (log : DiagnosticLog) : Nat :=
  log.diagnostics.length

def isEmpty (log : DiagnosticLog) : Bool :=
  log.diagnostics.isEmpty

/-- The number of diagnostics of a severity. -/
def count (log : DiagnosticLog) (severity : Severity) : Nat :=
  log.diagnostics.countP (·.severity == severity)

/-- Whether an error was reported. -/
def hasErrors (log : DiagnosticLog) : Bool :=
  log.diagnostics.any (·.severity == .error)

end DiagnosticLog

end TemplateCompiler
