import TemplateCompiler.Lex.Lexeme
import TemplateCompiler.Text.Properties
import TemplateCompiler.Text.LineBreak

/-!
# Front matter

A source may begin with a block between two lines that are exactly `---`.  The
block ends at the first such line that does not start inside a string.  Strings
may span lines.  A quote opens one only where a value may begin, that is, not
right after a letter or a digit, so the apostrophe of `Don't` opens nothing.
-/

namespace TemplateCompiler

namespace Lex

/-- The three characters of a delimiter line. -/
def delimiter : List Char :=
  ['-', '-', '-']

/-- Whether a text begins with a delimiter line. -/
def beginsWithDelimiterLine (text : List Char) : Bool :=
  Text.startsWith delimiter text && (text.drop 3).head?.all Text.isLineBreak

/-- The string that the scan of a block is in, if any, whether the next
character of it is protected, and the previous character of the line. -/
structure MatterPlace where
  quote : Option Char
  escaped : Bool
  previous : Option Char
deriving DecidableEq, Repr

namespace MatterPlace

/-- The place before the block. -/
def start : MatterPlace :=
  ⟨none, false, none⟩

/-- The place after a line break. -/
def afterLineBreak (place : MatterPlace) : MatterPlace :=
  ⟨place.quote, false, none⟩

/-- The place after a character within a line. -/
def after (place : MatterPlace) (c : Char) : MatterPlace :=
  match place.quote with
  | some quote =>
      if place.escaped then ⟨some quote, false, some c⟩
      else if c = '\\' then ⟨some quote, true, some c⟩
      else if c = quote then ⟨none, false, some c⟩
      else ⟨some quote, false, some c⟩
  | none =>
      if CharClass.isQuote c && !place.previous.any Text.isAlphanumeric then
        ⟨some c, false, some c⟩
      else ⟨none, false, some c⟩

end MatterPlace

/-- The number of characters before the closing delimiter line of a block; the
flag tells whether a line starts at the text. -/
def closingDistance? : (lineStart : Bool) → MatterPlace → List Char → Option Nat
  | _, _, [] => none
  | lineStart, place, c :: text =>
      if lineStart && place.quote.isNone && beginsWithDelimiterLine (c :: text) then some 0
      else if Text.isLineBreak c then
        (closingDistance? true place.afterLineBreak text).map (· + 1)
      else (closingDistance? false (place.after c) text).map (· + 1)

/-- A text without the single line break at its end. -/
def withoutFinalBreak (text : List Char) : List Char :=
  match text.reverse with
  | '\n' :: '\r' :: before => before.reverse
  | c :: before => if Text.isLineBreak c then before.reverse else text
  | [] => []

/-- The number of characters of the line at the head of a text, with its line
break. -/
def lineLength (text : List Char) : Nat :=
  (Text.splitLine text).2.1.length

/-- Scans the front matter; the flag tells whether the text is the whole
source.  When there is none the token is empty and takes no characters. -/
def scanFrontMatter (atStart : Bool) (text : List Char) : Scan :=
  if atStart && beginsWithDelimiterLine text && 3 < text.length then
    let opening := lineLength text
    let inside := text.drop opening
    match closingDistance? true .start inside with
    | some distance =>
        let content := withoutFinalBreak (inside.take distance)
        .found (.frontMatter (String.ofList content))
          (opening + distance + lineLength (inside.drop distance))
    | none => .unterminated .unterminatedFrontMatter text
  else .found (.frontMatter "") 0

end Lex

end TemplateCompiler
