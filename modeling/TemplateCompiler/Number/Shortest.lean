/-!
# Shortest decimals of a double

Among the decimals that read back as a given double, the shortest has the fewest
digits, and of several with as few digits it is the nearest to the double.  A
double is decoded into `significand * 2 ^ exponent`; the reals that round to it
reach half a unit to either side, less below a power of two, with the ends
included when the significand is even.

Grids of decimals are tried from coarse to fine.  On each grid only the two
neighbours of the double can be nearest to it, so the first grid with a
neighbour inside the interval gives the answer.  When both neighbours are
equally near, the writer of the text decides.
-/

namespace TemplateCompiler

/-- The number `digits * 10 ^ exponent`. -/
structure Decimal where
  digits : Nat
  exponent : Int
deriving DecidableEq, Repr

/-- Which of two equally near decimals is taken. -/
inductive TieRule where
  | upward
  | toEven
deriving DecidableEq, Repr

/-- The number `numerator / denominator`. -/
structure Ratio where
  numerator : Nat
  denominator : Nat
deriving DecidableEq, Repr

namespace Ratio

/-- The number `factor * 2 ^ exponent`. -/
def ofBinary (factor : Nat) (exponent : Int) : Ratio :=
  ⟨factor * Nat.pow 2 exponent.toNat, Nat.pow 2 (-exponent).toNat⟩

/-- A number counted in units of `10 ^ exponent`. -/
def inUnits (ratio : Ratio) (exponent : Int) : Ratio :=
  ⟨ratio.numerator * Nat.pow 10 (-exponent).toNat,
    ratio.denominator * Nat.pow 10 exponent.toNat⟩

/-- The largest natural number at most a number. -/
def floor (ratio : Ratio) : Nat :=
  ratio.numerator / ratio.denominator

/-- The power of ten of the leading digit of a positive number, or one less. -/
def leadingExponent (ratio : Ratio) : Int :=
  if ratio.denominator ≤ ratio.numerator then
    ((Nat.toDigits 10 ratio.floor).length : Int) - 1
  else -((Nat.toDigits 10 (ratio.denominator / ratio.numerator)).length : Int)

end Ratio

/-- The positive double `significand * 2 ^ exponent`. -/
structure BinaryFraction where
  significand : Nat
  exponent : Int
deriving DecidableEq, Repr

namespace BinaryFraction

/-- The magnitude of a finite double. -/
def ofFloat (number : Float) : BinaryFraction :=
  let bits := number.toBits.toNat % Nat.pow 2 63
  let fraction := bits % Nat.pow 2 52
  let biased : Nat := bits / Nat.pow 2 52
  if biased = 0 then ⟨fraction, -1074⟩
  else ⟨Nat.pow 2 52 + fraction, (biased : Int) - 1075⟩

/-- Whether the distance to the next smaller double is half the distance to the
next larger one. -/
def atPowerOfTwo (fraction : BinaryFraction) : Bool :=
  fraction.significand == Nat.pow 2 52 && fraction.exponent != -1074

/-- Whether a grid point, `candidate` units of `10 ^ unit`, rounds to the
double. -/
def readsBack (fraction : BinaryFraction) (unit : Int) (candidate : Nat) : Bool :=
  let quarter := fraction.exponent - 2
  let below := if fraction.atPowerOfTwo then 1 else 2
  let lower := (Ratio.ofBinary (4 * fraction.significand - below) quarter).inUnits unit
  let upper := (Ratio.ofBinary (4 * fraction.significand + 2) quarter).inUnits unit
  let candidateLower := candidate * lower.denominator
  let candidateUpper := candidate * upper.denominator
  if fraction.significand % 2 = 0 then
    lower.numerator ≤ candidateLower && candidateUpper ≤ upper.numerator
  else lower.numerator < candidateLower && candidateUpper < upper.numerator

/-- The point of a grid that reads back as the double and is nearest to it. -/
def nearestOnGrid? (tie : TieRule) (fraction : BinaryFraction) (unit : Int) : Option Nat :=
  let value := (Ratio.ofBinary fraction.significand fraction.exponent).inUnits unit
  let lower := value.floor
  let upper := lower + 1
  match fraction.readsBack unit lower, fraction.readsBack unit upper with
  | true, true =>
      let twice := 2 * value.numerator
      let middle := (lower + upper) * value.denominator
      if twice < middle then some lower
      else if middle < twice then some upper
      else
        match tie with
        | .upward => some upper
        | .toEven => some (if lower % 2 = 0 then lower else upper)
  | true, false => some lower
  | false, true => some upper
  | false, false => none

/-- The first grid, from `unit` on and at most `grids` of them, with a decimal
that reads back. -/
def searchGrids (tie : TieRule) (fraction : BinaryFraction) :
    (grids : Nat) → (unit : Int) → Decimal
  | 0, unit =>
      ⟨((Ratio.ofBinary fraction.significand fraction.exponent).inUnits unit).floor, unit⟩
  | grids + 1, unit =>
      match fraction.nearestOnGrid? tie unit with
      | some digits => ⟨digits, unit⟩
      | none => searchGrids tie fraction grids (unit - 1)

end BinaryFraction

namespace Decimal

/-- The same number without zeros at the end of its digits, of which at most
`count` are removed. -/
def withoutTrailingZeros : (count : Nat) → Decimal → Decimal
  | 0, decimal => decimal
  | count + 1, decimal =>
      if decimal.digits % 10 = 0 && decimal.digits != 0 then
        withoutTrailingZeros count ⟨decimal.digits / 10, decimal.exponent + 1⟩
      else decimal

/-- The shortest decimal that reads back as the magnitude of a finite double
other than zero. -/
def shortest (tie : TieRule) (number : Float) : Decimal :=
  let fraction := BinaryFraction.ofFloat number
  let value := Ratio.ofBinary fraction.significand fraction.exponent
  withoutTrailingZeros 20 (fraction.searchGrids tie 20 (value.leadingExponent + 1))

end Decimal

end TemplateCompiler
