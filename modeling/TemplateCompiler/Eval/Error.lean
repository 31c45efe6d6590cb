import TemplateCompiler.Diagnostic.Basic

/-!
# Evaluation errors

An evaluation fails at the first node that has no value.
-/

namespace TemplateCompiler

namespace Eval

/-- Why a node has no value. -/
inductive Cause where
  | undefinedVariable (path : String)
  | notIterable (path found : String)
  | noEvaluator (kind : String)
  | emptyResult (kind : String)
deriving DecidableEq, Repr

namespace Cause

def message : Cause → String
  | .undefinedVariable path => s!"undefined variable `{path}`"
  | .notIterable path found => s!"`{path}` is not iterable, found {found}"
  | .noEvaluator kind => s!"no evaluator for node kind `{kind}`"
  | .emptyResult kind => s!"evaluating `{kind}` produced no result"

def code : Cause → ErrorCode
  | .undefinedVariable _ => .undefinedVariable
  | .notIterable _ _ => .notIterable
  | .noEvaluator _ => .noEvaluator
  | .emptyResult _ => .emptyResult

end Cause

/-- A cause and the place of the node. -/
structure Error where
  cause : Cause
  position : Position
deriving DecidableEq, Repr

namespace Error

def text (error : Error) : String :=
  s!"{error.cause.message} at {error.position.text}"

def diagnostic (error : Error) : Diagnostic :=
  { Diagnostic.error error.cause.code with
    message := error.cause.message
    position := some error.position }

end Error

end Eval

end TemplateCompiler
