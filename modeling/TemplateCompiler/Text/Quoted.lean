import TemplateCompiler.Text.Properties

/-!
# Quoted text

Texts inside messages and dumps are written between double quotes.  The double
quote, the backslash and the common control characters get a backslash escape,
any other character that does not show by itself is written by its code point,
and the rest stands for itself.  A quoted text is therefore always one line.
-/

namespace TemplateCompiler

namespace Text

/-- The quoted form of one character. -/
def escapeChar (c : Char) : List Char :=
  if c = '\x00' then ['\\', '0']
  else if c = '\t' then ['\\', 't']
  else if c = '\r' then ['\\', 'r']
  else if c = '\n' then ['\\', 'n']
  else if c = '"' then ['\\', '"']
  else if c = '\\' then ['\\', '\\']
  else if isInvisible c then ['\\', 'u', '{'] ++ Nat.toDigits 16 c.toNat ++ ['}']
  else [c]

/-- A text between double quotes, with escapes. -/
def quoted (text : String) : String :=
  String.ofList ('"' :: (text.toList.flatMap escapeChar ++ ['"']))

end Text

end TemplateCompiler
