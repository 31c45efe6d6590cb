import TemplateCompiler.Diagnostic.Code
import TemplateCompiler.Source.Position

/-!
# Diagnostics

A diagnostic is a report about one source: what is wrong, how bad it is, and
where.
-/

namespace TemplateCompiler

/-- How bad a problem is. -/
inductive Severity where
  | error
  | warning
deriving DecidableEq, Repr

/-- The word for a severity. -/
def Severity.text : Severity → String
  | .error => "error"
  | .warning => "warning"

/-- A report about a source. -/
structure Diagnostic where
  code : ErrorCode
  severity : Severity
  message : String
  /-- The place of the problem; a problem of the whole source has none. -/
  position : Option Position
  notes : List String
deriving DecidableEq, Repr

namespace Diagnostic

/-- An error with nothing but its code. -/
def error (code : ErrorCode) : Diagnostic :=
  ⟨code, .error, "", none, []⟩

def stage (diagnostic : Diagnostic) : Stage :=
  diagnostic.code.stage

/-- A diagnostic in one line. -/
def text (diagnostic : Diagnostic) : String :=
  let headline :=
    s!"{diagnostic.severity.text}[{diagnostic.code.text}]: {diagnostic.message}"
  match diagnostic.position with
  | some position => s!"{headline} at {position.text}"
  | none => headline

end Diagnostic

end TemplateCompiler
