import TemplateCompiler.Lex.Number
import TemplateCompiler.Lex.QuotedText

/-!
# Tokens of style sheets

A style sheet is read to find where it ends: its comments and strings may hold
the closing tag.  A number takes the unit after it when the unit is one of a
fixed list and no further name character follows.
-/

namespace TemplateCompiler

namespace Lex

/-- The units of dimensions. -/
def units : List String :=
  ["px", "em", "rem", "%", "vh", "vw", "vmin", "vmax", "cm", "mm", "in", "pt", "pc", "ex", "ch",
    "fr"]

/-- Whether a text begins with a name, and the name ends there. -/
def beginsWithName (name text : List Char) : Bool :=
  Text.startsWith name text
    && !((text.drop name.length).head?.any CharClass.isStyleNamePart)

/-- The unit at the head of a text.  No unit is the beginning of another one
that fits, since the name of the shorter would not end there. -/
def unit? (text : List Char) : Option String :=
  units.find? fun unit => beginsWithName unit.toList text

/-- Scans a style comment; `text` follows its opening delimiter. -/
def scanStyleComment (text : List Char) : Scan :=
  match Text.splitAtFirst? ['*', '/'] text with
  | some (body, _) => .found (.styleComment (String.ofList body)) (body.length + 4)
  | none => .error ⟨.unterminatedComment, 0, text.length + 2⟩

/-- The digits of a color; `text` follows its hash sign.  There are three, four,
six or eight of them, and no name goes on after them. -/
def colorDigits? (text : List Char) : Option (List Char) :=
  let digits := text.takeWhile CharClass.isHexDigit
  let count := digits.length
  if (count == 3 || count == 4 || count == 6 || count == 8)
      && !((text.drop count).head?.any CharClass.isStyleNamePart) then some digits
  else none

/-- Scans a number with the unit after it; `text` is what follows the number. -/
def scanDimension (value : Float) (length : Nat) (text : List Char) : Scan :=
  match unit? text with
  | some unit => .found (.dimension value unit) (length + unit.length)
  | none => .found (.number value) length

/-- Scans a token that is neither a color nor a string: a number, a name or a
mark. -/
def scanStyleWord (c : Char) (text : List Char) : Scan :=
  match readNumber? (c :: text) with
  | some (value, length) => scanDimension value length ((c :: text).drop length)
  | none =>
      match name? CharClass.isStyleNameStart CharClass.isStyleNamePart (c :: text) with
      | some word => .found (.styleName (String.ofList word)) word.length
      | none =>
          match Punctuation.ofChar? c with
          | some mark => .mark mark
          | none => .unexpected c .style

/-- Scans a token of a style sheet. -/
def scanStyle : List Char → Scan
  | [] => .ok none
  | c :: text =>
      if CharClass.isMarkupSpace c then
        let run := whitespaceRun (c :: text)
        .found (.whitespace (String.ofList run)) run.length
      else if Text.startsWithIgnoreCase "</style>".toList (c :: text) then .found .styleEnd 8
      else if Text.startsWith ['/', '*'] (c :: text) then scanStyleComment (text.drop 1)
      else
        match scanProtectedString? (c :: text) with
        | some scan => scan
        | none =>
            if c = '#' then
              match colorDigits? text with
              | some digits => .found (.color (String.ofList digits)) (digits.length + 1)
              | none => scanStyleWord c text
            else scanStyleWord c text

end Lex

end TemplateCompiler
