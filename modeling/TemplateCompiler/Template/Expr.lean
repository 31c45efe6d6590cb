import TemplateCompiler.Number.Layout
import TemplateCompiler.Text.Quoted
import TemplateCompiler.Text.Search

/-!
# Expressions

An interpolation shows a literal or a value that is looked up by a path.  There
are no operators.
-/

namespace TemplateCompiler

/-- A dotted path, as in `post.title` or `rows.0.name`: the variable it starts
from, and the keys and positions to follow from there. -/
structure Path where
  root : String
  rest : List String
deriving DecidableEq, Repr

namespace Path

/-- All segments of a path. -/
def segments (path : Path) : List String :=
  path.root :: path.rest

/-- The path with the given segments, of which there must be one at least. -/
def ofSegments? : List String → Option Path
  | [] => none
  | root :: rest => some ⟨root, rest⟩

/-- The path written with dots between its segments, none of which may be
empty. -/
def parse? (dotted : String) : Option Path :=
  let pieces := Text.pieces '.' dotted.toList
  if pieces.any List.isEmpty then none else ofSegments? (pieces.map String.ofList)

def text (path : Path) : String :=
  ".".intercalate path.segments

end Path

/-- What stands inside an interpolation. -/
inductive Expr where
  | path (lookup : Path)
  | string (value : String)
  | number (value : Float)
  | boolean (value : Bool)
deriving DecidableEq

def Expr.text : Expr → String
  | .path segments => segments.text
  | .string value => Text.quoted value
  | .number value => NumberLayout.output.text value
  | .boolean value => if value then "true" else "false"

end TemplateCompiler
