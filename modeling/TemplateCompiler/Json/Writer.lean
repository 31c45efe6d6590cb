import TemplateCompiler.Json.Value
import TemplateCompiler.Number.Layout

/-!
# JSON texts

A value is written either without any space, or one entry per line with two
blanks for each level.  Strings escape the quote, the backslash and the control
characters; everything else stands for itself.
-/

namespace TemplateCompiler

namespace Json

/-- The escaped form of one character of a string. -/
def escapeChar (c : Char) : List Char :=
  if c = '"' then ['\\', '"']
  else if c = '\\' then ['\\', '\\']
  else if c = '\x08' then ['\\', 'b']
  else if c = '\x0c' then ['\\', 'f']
  else if c = '\n' then ['\\', 'n']
  else if c = '\r' then ['\\', 'r']
  else if c = '\t' then ['\\', 't']
  else if c.toNat < 0x20 then
    ['\\', 'u', '0', '0', Nat.digitChar (c.toNat / 16), Nat.digitChar (c.toNat % 16)]
  else [c]

def stringText (value : String) : String :=
  String.ofList ('"' :: (value.toList.flatMap escapeChar ++ ['"']))

def numberText : JsonNumber → String
  | .integer value => toString value
  | .real value =>
      if value.isNaN || value.isInf then "null" else NumberLayout.json.text value

mutual

/-- The text of a value without any space. -/
def compactText : Json → String
  | .null => "null"
  | .bool value => if value then "true" else "false"
  | .number value => numberText value
  | .string value => stringText value
  | .array items => "[" ++ ",".intercalate (compactTexts items) ++ "]"
  | .object fields => "\x7b" ++ ",".intercalate (compactFields fields) ++ "\x7d"

def compactTexts : List Json → List String
  | [] => []
  | item :: items => compactText item :: compactTexts items

def compactFields : List (String × Json) → List String
  | [] => []
  | (name, value) :: fields =>
      (stringText name ++ ":" ++ compactText value) :: compactFields fields

end

/-- A line break and the indentation of a level. -/
def newLine (level : Nat) : String :=
  String.ofList ('\n' :: List.replicate (2 * level) ' ')

/-- Entries on lines of their own between two brackets. -/
def bracketLines (opening closing : String) (level : Nat) (entries : List String) : String :=
  if entries.isEmpty then opening ++ closing
  else
    opening ++ ",".intercalate (entries.map (newLine (level + 1) ++ ·)) ++ newLine level ++ closing

mutual

/-- The text of a value with one entry per line, at a level of nesting. -/
def indentedTextAt (level : Nat) : Json → String
  | .array items => bracketLines "[" "]" level (indentedTexts (level + 1) items)
  | .object fields => bracketLines "\x7b" "\x7d" level (indentedFields (level + 1) fields)
  | .null => "null"
  | .bool value => if value then "true" else "false"
  | .number value => numberText value
  | .string value => stringText value

def indentedTexts (level : Nat) : List Json → List String
  | [] => []
  | item :: items => indentedTextAt level item :: indentedTexts level items

def indentedFields (level : Nat) : List (String × Json) → List String
  | [] => []
  | (name, value) :: fields =>
      (stringText name ++ ": " ++ indentedTextAt level value) :: indentedFields level fields

end

/-- The text of a value with one entry per line. -/
def indentedText (value : Json) : String :=
  indentedTextAt 0 value

end Json

end TemplateCompiler
