import TemplateCompiler.Parse.Basic

/-!
# Interpolations and paths

```text
interpolation = "{{" expression "}}"
expression    = path | string | template literal | number | boolean
path          = identifier { "." ( identifier | digits ) }
```

Positions in a path may have been read as one number: in `rows.0.1` the token
after the first point is `0.1`.  It is divided again by its spelling.
-/

namespace TemplateCompiler

namespace Parser

/-- The spelling of the next token. -/
def nextSpelling : Parser (List Char) := do
  match ← peek with
  | some token =>
      return (Text.takeBytes? (token.position.length.getD 0) (← here).rest).getD []
  | none => return []

/-- The positions that a number in a path is spelled as, if it consists of
digits and points alone. -/
def positions? (spelling : List Char) : Option (List String) :=
  let pieces := Text.pieces '.' spelling
  if pieces.all fun piece => !piece.isEmpty && piece.all Char.isDigit then
    some (pieces.map String.ofList)
  else none

/-- Parses the segments of a path after its first one. -/
def pathSegments : (bound : Nat) → Parser (List String)
  | 0 => return []
  | bound + 1 => do
      if ← nextIs (· == .punctuation .dot) then
        skip
        match ← peekKind with
        | some (.identifier name) =>
            skip
            return name :: (← pathSegments bound)
        | some (.number _) =>
            match positions? (← nextSpelling) with
            | some positions =>
                skip
                return positions ++ (← pathSegments bound)
            | none => failExpected "property name or index"
        | _ => failExpected "property name or index"
      else return []

def path (bound : Nat) : Parser Path := do
  let (root, _) ← expectIdentifier "identifier"
  match Path.ofSegments? (root :: (← pathSegments bound)) with
  | some path => return path
  | none => failExpected "identifier"

def expression (bound : Nat) : Parser Expr := do
  match ← peekKind with
  | some (.identifier _) => return .path (← path bound)
  | some (.string value) | some (.templateLiteral value) =>
      skip
      return .string value
  | some (.number value) =>
      skip
      return .number value
  | some (.boolean value) =>
      skip
      return .boolean value
  | _ => failExpected "expression"

/-- Parses an interpolation, the opening braces of which are the next token, and
adds it. -/
def interpolation (bound : Nat) : Parser Unit := do
  let start ← nextPosition
  skip
  pushMode .expression
  skipWhitespace bound
  let value ← expression bound
  skipWhitespace bound
  discard (expect "`\x7d\x7d`" (· == .interpolationEnd))
  popMode
  let position ← spanningFrom start
  modify (·.addLeaf (.interpolation value) position)

end Parser

end TemplateCompiler
