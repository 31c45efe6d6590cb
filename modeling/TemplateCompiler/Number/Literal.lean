import TemplateCompiler.Text.Search

/-!
# Number literals

A literal denotes a decimal number exactly; its value is the double nearest to
it.  A magnitude beyond the range of doubles is infinite or zero, which is
decided on the number of digits before any power of ten is computed.
-/

namespace TemplateCompiler

namespace NumberLiteral

/-- The value of a string of decimal digits. -/
def digitsValue (digits : List Char) : Nat :=
  digits.foldl (fun value digit => value * 10 + (digit.toNat - '0'.toNat)) 0

/-- The double nearest to `digits * 10 ^ exponent`. -/
def nearest (digits : Nat) (exponent : Int) : Float :=
  if digits = 0 then 0.0
  else
    let leading := exponent + (Nat.toDigits 10 digits).length
    if 400 < leading then 1.0 / 0.0
    else if leading < -400 then 0.0
    else Float.ofScientific digits (exponent < 0) exponent.natAbs

/-- A sign at the head of a text, and what follows it.  The flag tells whether
the sign is a minus. -/
def splitSign : List Char → Bool × List Char
  | '-' :: text => (true, text)
  | '+' :: text => (false, text)
  | text => (false, text)

/-- The exponent part of a literal, `e` with an optional sign and digits; the
empty text has exponent zero. -/
def exponent? : List Char → Option Int
  | [] => some 0
  | c :: text =>
      if c = 'e' || c = 'E' then
        let (negative, digits) := splitSign text
        if digits.isEmpty || !digits.all Char.isDigit then none
        else
          let magnitude : Int := digitsValue digits
          some (if negative then -magnitude else magnitude)
      else none

/-- The magnitude of a literal: digits with an optional point among or beside
them, then an optional exponent; or a word for infinity or for no number. -/
def magnitude? (text : List Char) : Option Float :=
  if Text.equalIgnoreCase text ['i', 'n', 'f']
      || Text.equalIgnoreCase text ['i', 'n', 'f', 'i', 'n', 'i', 't', 'y'] then some (1.0 / 0.0)
  else if Text.equalIgnoreCase text ['n', 'a', 'n'] then some (0.0 / 0.0)
  else
    let whole := text.takeWhile Char.isDigit
    let (fraction, rest) :=
      match text.dropWhile Char.isDigit with
      | '.' :: rest => (rest.takeWhile Char.isDigit, rest.dropWhile Char.isDigit)
      | rest => ([], rest)
    if whole.isEmpty && fraction.isEmpty then none
    else
      (exponent? rest).map fun exponent =>
        nearest (digitsValue (whole ++ fraction)) (exponent - fraction.length)

/-- The value of a literal. -/
def value? (text : List Char) : Option Float :=
  let (negative, rest) := splitSign text
  (magnitude? rest).map fun magnitude => if negative then -magnitude else magnitude

end NumberLiteral

end TemplateCompiler
