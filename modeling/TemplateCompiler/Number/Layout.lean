import TemplateCompiler.Number.Shortest

/-!
# Number texts

The program writes doubles in three layouts.  All of them give the shortest
digits that read back; they differ in when an exponent is used, how it is
written, and whether a whole number keeps a fraction.  This file holds what a
layout decides, the three layouts, and the text of a double in a layout.
-/

namespace TemplateCompiler

/-- What a layout of doubles decides. -/
structure NumberLayout where
  /-- Whether a number whose leading digit has this power of ten is written
  without an exponent. -/
  isPositional : Int → Bool
  /-- Whether a whole number is written with the fraction `.0`. -/
  keepsFraction : Bool
  /-- Whether an exponent that is not negative carries a plus sign. -/
  signsExponent : Bool
  /-- Which of two equally near decimals is written. -/
  tie : TieRule

namespace NumberLayout

/-- The layout of rendered output: no exponent, no fraction on whole numbers. -/
def output : NumberLayout :=
  ⟨fun _ => true, false, false, .upward⟩

/-- The layout of debugging output: positional from `0.0001` up to below
`10 ^ 16`. -/
def debugging : NumberLayout :=
  ⟨fun exponent => -4 ≤ exponent && exponent ≤ 15, true, false, .upward⟩

/-- The layout of JSON texts: positional from `0.00001` up to below
`10 ^ 16`. -/
def json : NumberLayout :=
  ⟨fun exponent => -5 ≤ exponent && exponent ≤ 15, true, true, .toEven⟩

/-- Digits with a point placed after the first `whole` of them; zeros fill the
places on either side that have no digit. -/
def positional (keepsFraction : Bool) (digits : List Char) (whole : Int) : List Char :=
  if whole ≤ 0 then ['0', '.'] ++ List.replicate (-whole).toNat '0' ++ digits
  else
    let width := whole.toNat
    if digits.length ≤ width then
      digits ++ List.replicate (width - digits.length) '0'
        ++ (if keepsFraction then ['.', '0'] else [])
    else digits.take width ++ ['.'] ++ digits.drop width

/-- Digits with a point after the first, and an exponent. -/
def scientific (signsExponent : Bool) (digits : List Char) (exponent : Int) : List Char :=
  let fraction :=
    match digits.drop 1 with
    | [] => []
    | rest => '.' :: rest
  let sign := if exponent < 0 then ['-'] else if signsExponent then ['+'] else []
  digits.take 1 ++ fraction ++ ['e'] ++ sign ++ Nat.toDigits 10 exponent.natAbs

/-- The text of a decimal without a sign. -/
def magnitude (layout : NumberLayout) (decimal : Decimal) : List Char :=
  let digits := Nat.toDigits 10 decimal.digits
  let leading := decimal.exponent + digits.length - 1
  if layout.isPositional leading then positional layout.keepsFraction digits (leading + 1)
  else scientific layout.signsExponent digits leading

/-- The text of a double. -/
def text (layout : NumberLayout) (number : Float) : String :=
  if number.isNaN then "NaN"
  else
    let negative := number.toBits.toNat / Nat.pow 2 63 = 1
    let body :=
      if number.isInf then ['i', 'n', 'f']
      else if (BinaryFraction.ofFloat number).significand = 0 then
        (if layout.keepsFraction then ['0', '.', '0'] else ['0'])
      else layout.magnitude (Decimal.shortest layout.tie number)
    String.ofList (if negative then '-' :: body else body)

end NumberLayout

end TemplateCompiler
