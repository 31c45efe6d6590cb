import TemplateCompiler.Parse.Basic

/-!
# The inside of tags

```text
start tag   = "<" name { attribute | binding | directive } ( ">" | "/>" )
attribute   = name [ "=" string ]
binding     = "[" name "]=" string | "(" name ")=" string | "[(" name ")]=" string
directive   = "*" name [ "=" string ]
end tag     = "</" name ">"
declaration = "<!" name { identifier | string } ">"
```

The actions here begin after the bracket that opens a tag, in tag mode, and end
after the bracket that closes it, still in tag mode.
-/

namespace TemplateCompiler

namespace Parser

/-- Parses the string after an equals sign. -/
def stringValue (bound : Nat) : Parser String := do
  skipWhitespace bound
  match ← peekKind with
  | some (.string value) =>
      skip
      return value
  | _ => failAt (.valueNotString (← found)) (← nextPosition)

/-- Parses an equals sign and a string, if an equals sign follows. -/
def optionalValue (bound : Nat) : Parser (Option String) := do
  skipWhitespace bound
  if ← nextIs (· == .punctuation .equals) then
    skip
    return some (← stringValue bound)
  else return none

/-- Parses the equals sign and the string of a binding whose name was read. -/
def bindingValue (bound : Nat) (name : String) (direction : BindingDirection) :
    Parser Binding := do
  skipWhitespace bound
  discard (expectMark "`=` after binding" .equals)
  return ⟨name, ← stringValue bound, direction⟩

/-- Parses a binding after its opening square bracket. -/
def squareBinding (bound : Nat) : Parser Binding := do
  if ← nextIs (· == .punctuation .leftParen) then
    skip
    let (name, _) ← expectIdentifier "binding name"
    discard (expectMark "`)`" .rightParen)
    discard (expectMark "`]`" .rightBracket)
    bindingValue bound name .both
  else
    let (name, _) ← expectIdentifier "binding name"
    discard (expectMark "`]`" .rightBracket)
    bindingValue bound name .inward

/-- Parses a binding after its opening parenthesis. -/
def roundBinding (bound : Nat) : Parser Binding := do
  let (name, _) ← expectIdentifier "event name"
  discard (expectMark "`)`" .rightParen)
  bindingValue bound name .outward

/-- Parses what follows the name of an element, up to the end of its start
tag. -/
def startTagItems : (bound : Nat) → Element → Parser Element
  | 0, element => return element
  | bound + 1, element => do
      skipWhitespace bound
      match ← peekKind with
      | some (.punctuation .greater) =>
          skip
          return element
      | some (.punctuation .slash) =>
          skip
          discard (expectMark "`>` after `/`" .greater)
          return { element with selfClosing := true }
      | some (.identifier name) =>
          skip
          let value ← optionalValue bound
          startTagItems bound
            { element with attributes := element.attributes ++ [⟨name, value⟩] }
      | some (.punctuation .leftBracket) =>
          skip
          let binding ← squareBinding bound
          startTagItems bound { element with bindings := element.bindings ++ [binding] }
      | some (.punctuation .leftParen) =>
          skip
          let binding ← roundBinding bound
          startTagItems bound { element with bindings := element.bindings ++ [binding] }
      | some (.punctuation .star) =>
          skip
          let (name, _) ← expectIdentifier "directive name"
          let value ← optionalValue bound
          startTagItems bound
            { element with directives := element.directives ++ [⟨name, value⟩] }
      | some _ => failUnexpected .tag
      | none => failExpected "`>`"

/-- The elements that never have content and need no end tag. -/
def voidElements : List String :=
  ["area", "base", "br", "col", "embed", "hr", "img", "input", "link", "meta", "source", "track",
    "wbr"]

/-- Whether an element of a name never has content, in any ASCII case. -/
def isVoid (name : String) : Bool :=
  voidElements.any fun other => Text.equalIgnoreCase other.toList name.toList

/-- Parses the name of an element and the rest of its start tag. -/
def startTag (bound : Nat) : Parser Element := do
  let (name, _) ← expectIdentifier "tag name"
  let element ← startTagItems bound (.named name)
  return { element with selfClosing := element.selfClosing || isVoid element.name }

/-- Parses an end tag from its slash on, and gives the name. -/
def endTag (bound : Nat) : Parser String := do
  skip
  skipWhitespace bound
  let (name, _) ← expectIdentifier "tag name"
  skipWhitespace bound
  discard (expectMark "`>`" .greater)
  return name

/-- Parses the parameters of a declaration, up to the end of its tag. -/
def declarationParameters : (bound : Nat) → Parser (List String)
  | 0 => return []
  | bound + 1 => do
      skipWhitespace bound
      match ← peekKind with
      | some (.identifier parameter) | some (.string parameter) =>
          skip
          return parameter :: (← declarationParameters bound)
      | some (.punctuation .greater) =>
          skip
          return []
      | some _ => failUnexpected .declaration
      | none => failExpected "`>`"

end Parser

end TemplateCompiler
