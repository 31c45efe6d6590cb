import TemplateCompiler.Json.Value
import TemplateCompiler.Text.Utf8

/-!
# Reading JSON

A reader of one JSON value.  It fails at the first character that cannot
continue the text, and reports the line and the byte column reached there.

Integers that fit in 64 bits stay integers.  A number with a fraction or an
exponent, a negative zero, and a larger integer become doubles.  The digits of
such a number are gathered in a 64-bit significand, further digits being
dropped, and the significand is scaled by a power of ten in double arithmetic.
This is fast and not always correctly rounded.
-/

namespace TemplateCompiler

namespace Json

/-- Why a text is no JSON value. -/
inductive ReadCause where
  | endInList
  | endInObject
  | endInString
  | endInValue
  | expectedColon
  | expectedCommaOrBracket
  | expectedCommaOrBrace
  | expectedWord
  | expectedValue
  | invalidEscape
  | invalidNumber
  | numberOutOfRange
  | controlCharacter
  | keyNotString
  | loneSurrogate
  | trailingComma
  | trailingCharacters
  | unpairedSurrogate
  | nestedTooDeeply
deriving DecidableEq, Repr

def ReadCause.message : ReadCause → String
  | .endInList => "EOF while parsing a list"
  | .endInObject => "EOF while parsing an object"
  | .endInString => "EOF while parsing a string"
  | .endInValue => "EOF while parsing a value"
  | .expectedColon => "expected `:`"
  | .expectedCommaOrBracket => "expected `,` or `]`"
  | .expectedCommaOrBrace => "expected `,` or `\x7d`"
  | .expectedWord => "expected ident"
  | .expectedValue => "expected value"
  | .invalidEscape => "invalid escape"
  | .invalidNumber => "invalid number"
  | .numberOutOfRange => "number out of range"
  | .controlCharacter => "control character (\\u0000-\\u001F) found while parsing a string"
  | .keyNotString => "key must be a string"
  | .loneSurrogate => "lone leading surrogate in hex escape"
  | .trailingComma => "trailing comma"
  | .trailingCharacters => "trailing characters"
  | .unpairedSurrogate => "unexpected end of hex escape"
  | .nestedTooDeeply => "recursion limit exceeded"

/-- A failure, with the characters not yet read and the number of bytes read
beyond the last of the others. -/
structure ReadFault where
  cause : ReadCause
  rest : List Char
  beyond : Nat
deriving DecidableEq, Repr

/-! A reader gives the value it read and the characters after it, or a fault. -/

namespace ReadFault

/-- Fails before the rest of the text. -/
def failAt {α : Type} (cause : ReadCause) (rest : List Char) : Except ReadFault α :=
  .error ⟨cause, rest, 0⟩

/-- Fails with the first byte of the rest counted as read. -/
def failIn {α : Type} (cause : ReadCause) (rest : List Char) : Except ReadFault α :=
  .error ⟨cause, rest, if rest.isEmpty then 0 else 1⟩

end ReadFault

/-- The text without the blanks, tabs and line breaks at its head. -/
def skipBlanks (text : List Char) : List Char :=
  text.dropWhile fun c => c == ' ' || c == '\n' || c == '\t' || c == '\r'

/-- Reads the rest of a word whose first letter was read. -/
def readWord (value : Json) : (word text : List Char) → Except ReadFault (Json × List Char)
  | [], text => .ok (value, text)
  | _ :: _, [] => ReadFault.failAt .endInValue []
  | w :: word, c :: text =>
      if c = w then readWord value word text else ReadFault.failIn .expectedWord (c :: text)

/-! ## Numbers -/

/-- The largest 64-bit significand. -/
def maxSignificand : Nat := 18446744073709551615

/-- The largest exponent that is counted. -/
def maxExponent : Int := 2147483647

/-- The value of a digit. -/
def digitValue (c : Char) : Nat :=
  c.toNat - '0'.toNat

/-- A significand scaled by a power of ten in double arithmetic.  A power too
small for one division takes several; one too large has no value. -/
def scale : (steps : Nat) → Float → Int → Option Float
  | 0, significand, _ => some significand
  | steps + 1, significand, exponent =>
      if 308 < exponent then if significand == 0.0 then some significand else none
      else if 0 ≤ exponent then
        let scaled := significand * Float.ofScientific 1 false exponent.toNat
        if scaled.isInf then none else some scaled
      else if -308 ≤ exponent then
        some (significand / Float.ofScientific 1 false (-exponent).toNat)
      else if significand == 0.0 then some significand
      else scale steps (significand / Float.ofScientific 1 false 308) (exponent + 308)

/-- The double of a significand and an exponent.  Three divisions take every
significand to zero. -/
def readScaled (negative : Bool) (significand : Nat) (exponent : Int) (text : List Char) :
    Except ReadFault (JsonNumber × List Char) :=
  match scale 8 (Float.ofNat significand) exponent with
  | some magnitude => .ok (.real (if negative then -magnitude else magnitude), text)
  | none => ReadFault.failAt .numberOutOfRange text

/-- Reads the digits of an exponent after the first one. -/
def readExponentDigits (negative negativeExponent : Bool) (significand : Nat) (start : Int) :
    (exponent : Int) → List Char → Except ReadFault (JsonNumber × List Char)
  | exponent, [] =>
      readScaled negative significand
        (if negativeExponent then start - exponent else start + exponent) []
  | exponent, c :: text =>
      if c.isDigit then
        let next := exponent * 10 + digitValue c
        if maxExponent < next then
          if significand != 0 && !negativeExponent then ReadFault.failAt .numberOutOfRange text
          else .ok (.real (if negative then -0.0 else 0.0), text.dropWhile Char.isDigit)
        else readExponentDigits negative negativeExponent significand start next text
      else
        readScaled negative significand
          (if negativeExponent then start - exponent else start + exponent) (c :: text)

/-- Reads an exponent after its letter. -/
def readExponent (negative : Bool) (significand : Nat) (start : Int) (text : List Char) :
    Except ReadFault (JsonNumber × List Char) :=
  let (negativeExponent, rest) :=
    match text with
    | '+' :: rest => (false, rest)
    | '-' :: rest => (true, rest)
    | rest => (false, rest)
  match rest with
  | [] => ReadFault.failAt .endInValue []
  | c :: rest =>
      if c.isDigit then
        readExponentDigits negative negativeExponent significand start (digitValue c) rest
      else ReadFault.failIn .invalidNumber (c :: rest)

/-- Ends a number that has a fraction or is too long for an integer: an exponent
may follow. -/
def readScale (negative : Bool) (significand : Nat) (exponent : Int) (text : List Char) :
    Except ReadFault (JsonNumber × List Char) :=
  match text with
  | c :: rest =>
      if c = 'e' || c = 'E' then readExponent negative significand exponent rest
      else readScaled negative significand exponent text
  | [] => readScaled negative significand exponent []

/-- Reads the digits of a fraction after its point. -/
def readFraction (negative : Bool) (start : Int) :
    (significand places : Nat) → List Char → Except ReadFault (JsonNumber × List Char)
  | significand, places, [] =>
      if places = 0 then ReadFault.failIn .endInValue []
      else readScaled negative significand (start - places) []
  | significand, places, c :: text =>
      if c.isDigit then
        let next := significand * 10 + digitValue c
        if maxSignificand < next then
          readScale negative significand (start - places) (text.dropWhile Char.isDigit)
        else readFraction negative start next (places + 1) text
      else if places = 0 then ReadFault.failIn .invalidNumber (c :: text)
      else readScale negative significand (start - places) (c :: text)

/-- Ends the whole part of a number that is kept to the last digit. -/
def readAfterInteger (negative : Bool) (significand : Nat) (text : List Char) :
    Except ReadFault (JsonNumber × List Char) :=
  match text with
  | '.' :: rest => readFraction negative 0 significand 0 rest
  | 'e' :: rest => readExponent negative significand 0 rest
  | 'E' :: rest => readExponent negative significand 0 rest
  | rest =>
      if !negative then .ok (.integer significand, rest)
      else if significand = 0 || 9223372036854775808 < significand then
        .ok (.real (-(Float.ofNat significand)), rest)
      else .ok (.integer (-(significand : Int)), rest)

/-- Reads the digits of a whole part that no longer fits, each of which raises
the exponent. -/
def readLongInteger (negative : Bool) (significand : Nat) :
    (dropped : Nat) → List Char → Except ReadFault (JsonNumber × List Char)
  | dropped, [] => readScaled negative significand dropped []
  | dropped, c :: text =>
      if c.isDigit then readLongInteger negative significand (dropped + 1) text
      else if c = '.' then readFraction negative dropped significand 0 text
      else readScale negative significand dropped (c :: text)

/-- Reads the digits of a whole part after the first one. -/
def readInteger (negative : Bool) :
    (significand : Nat) → List Char → Except ReadFault (JsonNumber × List Char)
  | significand, [] => readAfterInteger negative significand []
  | significand, c :: text =>
      if c.isDigit then
        let next := significand * 10 + digitValue c
        if maxSignificand < next then readLongInteger negative significand 0 (c :: text)
        else readInteger negative next text
      else readAfterInteger negative significand (c :: text)

/-- Reads a number whose sign was read. -/
def readNumber (negative : Bool) : List Char → Except ReadFault (JsonNumber × List Char)
  | [] => ReadFault.failAt .endInValue []
  | '0' :: text =>
      match text with
      | c :: rest =>
          if c.isDigit then ReadFault.failIn .invalidNumber (c :: rest)
          else readAfterInteger negative 0 (c :: rest)
      | [] => readAfterInteger negative 0 []
  | c :: text =>
      if c.isDigit then readInteger negative (digitValue c) text
      else ReadFault.failIn .invalidNumber (c :: text)

/-! ## Strings -/

/-- The value of a hexadecimal digit. -/
def hexValue? (c : Char) : Option Nat :=
  if c.isDigit then some (c.toNat - '0'.toNat)
  else if 'a' ≤ c && c ≤ 'f' then some (c.toNat - 'a'.toNat + 10)
  else if 'A' ≤ c && c ≤ 'F' then some (c.toNat - 'A'.toNat + 10)
  else none

/-- Reads four hexadecimal digits.  Four bytes are read whatever they are. -/
def readHex (text : List Char) : Except ReadFault (Nat × List Char) :=
  if Text.byteLength text < 4 then ReadFault.failAt .endInString []
  else
    match text with
    | a :: b :: c :: d :: rest =>
        match hexValue? a, hexValue? b, hexValue? c, hexValue? d with
        | some a, some b, some c, some d => .ok (((a * 16 + b) * 16 + c) * 16 + d, rest)
        | _, _, _, _ => .error ⟨.invalidEscape, text, 4⟩
    | _ => .error ⟨.invalidEscape, text, 4⟩

/-- Reads the second of two escapes that together give one character. -/
def readLowSurrogate (high : Nat) (text : List Char) : Except ReadFault (Char × List Char) :=
  match text with
  | [] => ReadFault.failAt .endInString []
  | '\\' :: [] => ReadFault.failAt .endInString []
  | '\\' :: 'u' :: rest => do
      let (low, after) ← readHex rest
      if low < 0xDC00 || 0xDFFF < low then ReadFault.failAt .loneSurrogate after
      else return (Char.ofNat ((high - 0xD800) * 0x400 + (low - 0xDC00) + 0x10000), after)
  | '\\' :: rest => ReadFault.failIn .unpairedSurrogate rest
  | rest => ReadFault.failIn .unpairedSurrogate rest

/-- Reads an escape after its `u`. -/
def readUnicodeEscape (text : List Char) : Except ReadFault (Char × List Char) := do
  let (code, rest) ← readHex text
  if 0xDC00 ≤ code && code ≤ 0xDFFF then ReadFault.failAt .loneSurrogate rest
  else if code < 0xD800 || 0xDBFF < code then return (Char.ofNat code, rest)
  else readLowSurrogate code rest

/-- Reads an escape after its backslash. -/
def readEscape : List Char → Except ReadFault (Char × List Char)
  | [] => ReadFault.failAt .endInString []
  | '"' :: text => .ok ('"', text)
  | '\\' :: text => .ok ('\\', text)
  | '/' :: text => .ok ('/', text)
  | 'b' :: text => .ok ('\x08', text)
  | 'f' :: text => .ok ('\x0c', text)
  | 'n' :: text => .ok ('\n', text)
  | 'r' :: text => .ok ('\r', text)
  | 't' :: text => .ok ('\t', text)
  | 'u' :: text => readUnicodeEscape text
  | c :: text => ReadFault.failIn .invalidEscape (c :: text)

/-- Reads a string after its opening quote; `before` holds the characters read,
the last one first.  Each character takes one of the `bound` rounds. -/
def readString :
    (bound : Nat) → (before : List Char) → List Char → Except ReadFault (String × List Char)
  | 0, _, text => ReadFault.failAt .endInString text
  | _ + 1, _, [] => ReadFault.failAt .endInString []
  | _ + 1, before, '"' :: text => .ok (String.ofList before.reverse, text)
  | bound + 1, before, '\\' :: text => do
      let (c, rest) ← readEscape text
      readString bound (c :: before) rest
  | bound + 1, before, c :: text =>
      if c.toNat < 0x20 then ReadFault.failAt .controlCharacter text
      else readString bound (c :: before) text

/-! ## Values -/

mutual

/-- Reads a value.  At most `depth` arrays and objects may be open at a time,
and reading takes at most `bound` rounds. -/
def readValue :
    (bound : Nat) → (depth : Nat) → List Char → Except ReadFault (Json × List Char)
  | 0, _, text => ReadFault.failAt .expectedValue text
  | bound + 1, depth, text =>
      match skipBlanks text with
      | [] => ReadFault.failIn .endInValue []
      | 'n' :: rest => readWord .null ['u', 'l', 'l'] rest
      | 't' :: rest => readWord (.bool true) ['r', 'u', 'e'] rest
      | 'f' :: rest => readWord (.bool false) ['a', 'l', 's', 'e'] rest
      | '-' :: rest => do
          let (value, after) ← readNumber true rest
          return (.number value, after)
      | '"' :: rest => do
          let (value, after) ← readString bound [] rest
          return (.string value, after)
      | '[' :: rest =>
          if depth = 0 then ReadFault.failIn .nestedTooDeeply ('[' :: rest)
          else do
            let (items, after) ← readItems bound (depth - 1) true rest
            return (.array items, after)
      | '{' :: rest =>
          if depth = 0 then ReadFault.failIn .nestedTooDeeply ('{' :: rest)
          else do
            let (fields, after) ← readFields bound (depth - 1) true [] rest
            return (.object fields, after)
      | c :: rest =>
          if c.isDigit then do
            let (value, after) ← readNumber false (c :: rest)
            return (.number value, after)
          else ReadFault.failIn .expectedValue (c :: rest)

/-- Reads the items of an array up to its closing bracket. -/
def readItems :
    (bound : Nat) → (depth : Nat) → (first : Bool) → List Char →
      Except ReadFault (List Json × List Char)
  | 0, _, _, text => ReadFault.failAt .endInList text
  | bound + 1, depth, first, text =>
      match skipBlanks text with
      | [] => ReadFault.failIn .endInList []
      | ']' :: rest => .ok ([], rest)
      | c :: rest =>
          if first then do
            let (item, after) ← readValue bound depth (c :: rest)
            let (items, final) ← readItems bound depth false after
            return (item :: items, final)
          else if c = ',' then
            match skipBlanks rest with
            | [] => ReadFault.failIn .endInValue []
            | ']' :: after => ReadFault.failIn .trailingComma (']' :: after)
            | start => do
                let (item, after) ← readValue bound depth start
                let (items, final) ← readItems bound depth false after
                return (item :: items, final)
          else ReadFault.failIn .expectedCommaOrBracket (c :: rest)

/-- Reads the fields of an object up to its closing brace, into those read
before them. -/
def readFields :
    (bound : Nat) → (depth : Nat) → (first : Bool) → (before : List (String × Json)) →
      List Char → Except ReadFault (List (String × Json) × List Char)
  | 0, _, _, _, text => ReadFault.failAt .endInObject text
  | bound + 1, depth, first, before, text =>
      match skipBlanks text with
      | [] => ReadFault.failIn .endInObject []
      | '}' :: rest => .ok (before, rest)
      | c :: rest =>
          if first then
            if c = '"' then readField bound depth before rest
            else ReadFault.failIn .keyNotString (c :: rest)
          else if c = ',' then
            match skipBlanks rest with
            | [] => ReadFault.failIn .endInValue []
            | '"' :: after => readField bound depth before after
            | '}' :: after => ReadFault.failIn .trailingComma ('}' :: after)
            | start => ReadFault.failIn .keyNotString start
          else ReadFault.failIn .expectedCommaOrBrace (c :: rest)

/-- Reads a field after the quote that opens its name, and the fields after
it. -/
def readField :
    (bound : Nat) → (depth : Nat) → (before : List (String × Json)) → List Char →
      Except ReadFault (List (String × Json) × List Char)
  | 0, _, _, text => ReadFault.failAt .endInObject text
  | bound + 1, depth, before, text => do
      let (name, afterName) ← readString bound [] text
      match skipBlanks afterName with
      | [] => ReadFault.failIn .endInObject []
      | ':' :: rest => do
          let (value, after) ← readValue bound depth rest
          readFields bound depth false (insertField name value before) after
      | start => ReadFault.failIn .expectedColon start

end

/-- A failure as it is reported: the cause, the line, and the column in bytes. -/
structure ReadError where
  cause : ReadCause
  line : Nat
  column : Nat
deriving DecidableEq, Repr

def ReadError.message (error : ReadError) : String :=
  s!"{error.cause.message} at line {error.line} column {error.column}"

/-- The number of the line that a byte offset lies on and the offset at which it
starts, for a text that begins at `offset`, on `line`, which starts at `start`. -/
def lineAt (index : Nat) : (offset line start : Nat) → List Char → Nat × Nat
  | _, line, start, [] => (line, start)
  | offset, line, start, c :: text =>
      if index ≤ offset then (line, start)
      else if c = '\n' then lineAt index (offset + 1) (line + 1) (offset + 1) text
      else lineAt index (offset + c.utf8Size) line start text

/-- Finds the line and the column of a failure. -/
def ReadFault.locate (text : List Char) (fault : ReadFault) : ReadError :=
  let index := Text.byteLength (text.take (text.length - fault.rest.length)) + fault.beyond
  let (line, start) := lineAt index 0 1 0 text
  ⟨fault.cause, line, index - start⟩

/-- The number of arrays and objects that may be open at a time in data. -/
def dataDepth : Nat := 127

/-- Reads a text that holds one value and nothing else. -/
def read (depth : Nat) (text : String) : Except ReadError Json :=
  let characters := text.toList
  let outcome : Except ReadFault Json := do
    let (value, rest) ← readValue (2 * characters.length + 2) depth characters
    match skipBlanks rest with
    | [] => return value
    | start => ReadFault.failIn .trailingCharacters start
  outcome.mapError (·.locate characters)

end Json

end TemplateCompiler
