import TemplateCompiler.Proofs.Lex.LongestWords
import TemplateCompiler.Proofs.Lex.StyleSheets
import TemplateCompiler.Proofs.Number.Decimals

/-!
# Numbers are read as far as they go

The spellings of numbers are a formal language: a sign or none, digits, a fraction or none,
an exponent or none.  The reader takes these parts one after the other, each as far as it
goes.  No part begins with a character that the part before it could have gone on with, so it
comes to the end of the longest spelling at the head of the text, and all spellings denote
numbers.

A spelling ends before a point, or before the letter of an exponent with or without a sign,
when no digit is behind it.
-/

namespace TemplateCompiler

namespace Lex

variable {member : Char → Bool} {c : Char} {text tail word rest marks : List Char}

section Parts

/-- Digits, and at least one of them. -/
def digitRuns : Language Char :=
  {word | word ≠ [] ∧ ∀ c ∈ word, c.isDigit = true}

def signs : Language Char :=
  oneOf ['+', '-']

def fractions : Language Char :=
  oneOf ['.'] * digitRuns

def exponents : Language Char :=
  oneOf ['e', 'E'] * ((1 + signs) * digitRuns)

/-- The spellings of numbers. -/
def numerals : Language Char :=
  (1 + signs) * (digitRuns * ((1 + fractions) * (1 + exponents)))

variable {digits fraction : List Char}

/-- Digits and a fraction, if there is one, are a number. -/
theorem mem_numerals (isRun : digits ∈ digitRuns) (isFraction : fraction ∈ 1 + fractions) :
    digits ++ fraction ∈ numerals := by
  have noSign : [] ∈ 1 + signs := .inl rfl
  have noExponent : [] ∈ 1 + exponents := .inl rfl
  have unsigned := Language.append_mem_mul isRun (Language.append_mem_mul isFraction noExponent)
  rw [List.append_nil] at unsigned
  exact Language.mem_mul.2 ⟨[], noSign, _, unsigned, rfl⟩

theorem staysInside_digitRuns (digits : ∀ c, c.isDigit = true → member c = true) :
    StaysInside member digitRuns :=
  fun _ isRun c mem => digits c (isRun.2 c mem)

theorem opensOutside_digitRuns (digits : ∀ c, c.isDigit = true → member c = false) :
    OpensOutside member digitRuns := by
  intro word isRun c head
  exact digits c (isRun.2 c (List.mem_of_mem_head? head))

theorem nil_notMem_digitRuns : [] ∉ digitRuns :=
  fun isRun => isRun.1 rfl

theorem endsBefore_digitRuns (noDigit : Stops Char.isDigit tail) : EndsBefore digitRuns tail := by
  refine fun word isRun => ⟨isRun, List.prefix_append word tail, fun other isOther begins => ?_⟩
  obtain ⟨behind, textEq⟩ := begins
  have taken := congrArg (List.takeWhile Char.isDigit) textEq
  rw [List.takeWhile_append_of_pos isOther.2, takeWhile_append_of_stops isRun.2 noDigit] at taken
  rw [← taken, List.length_append]
  exact Nat.le_add_right _ _

theorem beginsWithNone_digitRuns (noDigit : Stops Char.isDigit text) :
    BeginsWithNone digitRuns text := by
  rintro word isRun ⟨rest, rfl⟩
  cases word with
  | nil => exact nil_notMem_digitRuns isRun
  | cons c word =>
      have digit := isRun.2 c List.mem_cons_self
      rw [noDigit c rfl] at digit
      contradiction

theorem staysInside_signs : StaysInside ['+', '-'].contains (1 + signs) :=
  (staysInside_marks _).optional

theorem staysInside_fractions : StaysInside (fun c => c == '.' || c.isDigit) (1 + fractions) :=
  ((staysInside_oneOf (by simp)).mul (staysInside_digitRuns (by simp +contextual))).optional

/-- Digits are none of some marks, if no mark is a digit. -/
theorem opensOutside_digits (noDigit : marks.all fun c => !c.isDigit) :
    OpensOutside marks.contains digitRuns :=
  opensOutside_digitRuns fun c digit => by simpa using not_mem_of_class noDigit digit

theorem opensOutside_fractions (outside : member '.' = false) :
    OpensOutside member fractions :=
  (opensOutside_oneOf (by simpa using outside)).mul_of_nonempty nil_notMem_oneOf

theorem opensOutside_exponents (lower : member 'e' = false) (upper : member 'E' = false) :
    OpensOutside member exponents :=
  (opensOutside_oneOf (by simp [lower, upper])).mul_of_nonempty nil_notMem_oneOf

theorem opensOutside_signed :
    OpensOutside ['e', 'E'].contains ((1 + signs) * digitRuns) :=
  (opensOutside_oneOf (by simp)).optional.mul (opensOutside_digits (by decide))

theorem opensOutside_unsigned (language : Language Char) :
    OpensOutside ['+', '-'].contains (digitRuns * language) :=
  (opensOutside_digits (by decide)).mul_of_nonempty nil_notMem_digitRuns

/-- A point without a digit behind it is no fraction. -/
theorem beginsWithNone_fractions (none : BeginsWithNone digitRuns text) :
    BeginsWithNone fractions ('.' :: text) :=
  (beginsWithLongest_oneOf (List.mem_singleton_self '.') text).beginsWithNone rfl
    (staysInside_marks _) (opensOutside_digits (by decide)) none

/-- A letter without a digit behind it and its sign is no exponent. -/
theorem beginsWithNone_exponents (isLetter : c ∈ ['e', 'E'])
    (isSign : BeginsWithLongest (1 + signs) word text) (textEq : text = word ++ rest)
    (none : BeginsWithNone digitRuns rest) : BeginsWithNone exponents (c :: text) :=
  (beginsWithLongest_oneOf isLetter text).beginsWithNone rfl (staysInside_marks _)
    opensOutside_signed
    (isSign.beginsWithNone textEq staysInside_signs (opensOutside_digits (by decide)) none)

theorem opensOutside_decimals :
    OpensOutside Char.isDigit ((1 + fractions) * (1 + exponents)) :=
  (opensOutside_fractions rfl).optional.mul (opensOutside_exponents rfl rfl).optional

/-- The longest sign, then the longest digits, fraction and exponent are the longest number. -/
theorem beginsWithLongest_numerals {sign exponent afterSign afterDigits afterFraction : List Char}
    (isSign : BeginsWithLongest (1 + signs) sign text) (signEq : text = sign ++ afterSign)
    (isRun : BeginsWithLongest digitRuns digits afterSign)
    (digitsEq : afterSign = digits ++ afterDigits)
    (isFraction : BeginsWithLongest (1 + fractions) fraction afterDigits)
    (fractionEq : afterDigits = fraction ++ afterFraction)
    (isExponent : BeginsWithLongest (1 + exponents) exponent afterFraction) :
    BeginsWithLongest numerals (sign ++ (digits ++ (fraction ++ exponent))) text := by
  have decimals := isFraction.mul fractionEq staysInside_fractions
    (opensOutside_exponents rfl rfl).optional isExponent
  have unsigned := isRun.mul digitsEq (staysInside_digitRuns fun _ => id) opensOutside_decimals
    decimals
  exact isSign.mul signEq staysInside_signs (opensOutside_unsigned _) unsigned

end Parts

section Readers

variable {spelling : List Char}

theorem beginsWithLongest_digits (nonempty : text.takeWhile Char.isDigit ≠ []) :
    BeginsWithLongest digitRuns (text.takeWhile Char.isDigit) text := by
  have isRun : text.takeWhile Char.isDigit ∈ digitRuns :=
    ⟨nonempty, fun _ => List.mem_takeWhile_imp⟩
  have ends := endsBefore_digitRuns (stops_dropWhile Char.isDigit text) _ isRun
  rwa [List.takeWhile_append_dropWhile] at ends

theorem beginsWithNone_digits (empty : text.takeWhile Char.isDigit = []) :
    BeginsWithNone digitRuns text := by
  have stops := stops_dropWhile Char.isDigit text
  rw [← List.takeWhile_append_dropWhile (p := Char.isDigit) (l := text), empty]
  exact beginsWithNone_digitRuns stops

theorem beginsWithLongest_signPart (text : List Char) :
    BeginsWithLongest (1 + signs) (signPart text) text := by
  cases text with
  | nil => exact (beginsWithNone_oneOf stops_nil).optional
  | cons c text =>
      rw [signPart]
      split
      · next isSign =>
          exact (beginsWithLongest_oneOf (by simpa using isSign) text).optional
      · next notSign => exact (beginsWithNone_oneOf (by simpa using notSign)).optional

theorem beginsWithLongest_fractionPart (text : List Char) :
    BeginsWithLongest (1 + fractions) (fractionPart text) text := by
  unfold fractionPart
  split
  · next text =>
      simp only [List.isEmpty_iff]
      split
      · next empty => exact (beginsWithNone_fractions (beginsWithNone_digits empty)).optional
      · next nonempty =>
          have isPoint := beginsWithLongest_oneOf (List.mem_singleton_self '.') text
          exact (isPoint.mul rfl (staysInside_marks _) (opensOutside_digits (by decide))
            (beginsWithLongest_digits nonempty)).optional
  · next noPoint =>
      refine (beginsWithNone_oneOf fun c head => ?_).mul.optional
      obtain ⟨behind, rfl⟩ := List.head?_eq_some_iff.1 head
      simpa using fun isPoint : c = '.' => noPoint behind (by rw [isPoint])

theorem beginsWithLongest_exponentPart (text : List Char) :
    BeginsWithLongest (1 + exponents) (exponentPart text) text := by
  cases text with
  | nil => exact (beginsWithNone_oneOf stops_nil).mul.optional
  | cons c text =>
      rw [exponentPart]
      split
      · next isLetter =>
          have isLetter : c ∈ ['e', 'E'] := by simpa using isLetter
          have isSign := beginsWithLongest_signPart text
          obtain ⟨behind, signEq⟩ := signPart_prefix text
          simp only [List.isEmpty_iff, drop_length_eq signEq]
          split
          · next empty =>
              exact (beginsWithNone_exponents isLetter isSign signEq
                (beginsWithNone_digits empty)).optional
          · next nonempty =>
              have signed := isSign.mul signEq staysInside_signs (opensOutside_digits (by decide))
                (beginsWithLongest_digits nonempty)
              exact ((beginsWithLongest_oneOf isLetter text).mul rfl (staysInside_marks _)
                opensOutside_signed signed).optional
      · next notLetter => exact (beginsWithNone_oneOf (by simpa using notLetter)).mul.optional

/-- The reader of numbers goes to the end of the longest spelling at the head of a text. -/
theorem beginsWithLongest_of_numberSpelling? (found : numberSpelling? text = some spelling) :
    BeginsWithLongest numerals spelling text := by
  obtain ⟨afterSign, signEq⟩ := signPart_prefix text
  obtain ⟨behind, fractionEq⟩ := fractionPart_prefix (afterSign.dropWhile Char.isDigit)
  simp only [numberSpelling?, drop_length_eq signEq, drop_length_eq fractionEq, List.isEmpty_iff]
    at found
  split at found
  · contradiction
  · next nonempty =>
      obtain rfl := Option.some.inj found
      rw [List.append_assoc, List.append_assoc]
      exact beginsWithLongest_numerals (beginsWithLongest_signPart text) signEq
        (beginsWithLongest_digits nonempty) List.takeWhile_append_dropWhile.symm
        (beginsWithLongest_fractionPart _) fractionEq (beginsWithLongest_exponentPart behind)

theorem beginsWithNone_of_numberSpelling? (notFound : numberSpelling? text = none) :
    BeginsWithNone numerals text := by
  obtain ⟨afterSign, signEq⟩ := signPart_prefix text
  simp only [numberSpelling?, drop_length_eq signEq, List.isEmpty_iff] at notFound
  split at notFound
  · next empty =>
      exact (beginsWithLongest_signPart text).beginsWithNone signEq staysInside_signs
        (opensOutside_unsigned _) (beginsWithNone_digits empty).mul
  · contradiction

theorem numberSpelling?_eq_some_iff :
    numberSpelling? text = some spelling ↔ BeginsWithLongest numerals spelling text := by
  refine ⟨beginsWithLongest_of_numberSpelling?, fun isLongest => ?_⟩
  cases found : numberSpelling? text with
  | none =>
      have none := beginsWithNone_of_numberSpelling? found
      exact absurd isLongest.begins (none spelling isLongest.isWord)
  | some other => rw [(beginsWithLongest_of_numberSpelling? found).unique isLongest]

end Readers

section Values

variable {sign digits more exponent numeral : List Char} {power : Int} {value : Float}

/-- A magnitude behind its sign, which counts if it is a minus. -/
def signed {α : Type} [Neg α] (sign : List Char) (magnitude : α) : α :=
  if sign = ['-'] then -magnitude else magnitude

/-- The power of ten that an exponent stands for.  Without an exponent that is the zeroth. -/
inductive IsPower : (exponent : List Char) → (power : Int) → Prop
  | none : IsPower [] 0
  | written {letter : Char} {sign digits : List Char} (isLetter : letter ∈ ['e', 'E'])
      (isSign : sign ∈ 1 + signs) (isRun : digits ∈ digitRuns) :
      IsPower (letter :: (sign ++ digits)) (signed sign (decimal digits : Int))

/-- What a spelling denotes.  Its digits and those of its fraction make a whole number, and the
value is the double nearest to that number times a power of ten, behind the sign.  Every digit of
the fraction lowers the power by one. -/
inductive Denotes : (numeral : List Char) → (value : Float) → Prop
  | whole {sign digits exponent : List Char} {power : Int} (isSign : sign ∈ 1 + signs)
      (isRun : digits ∈ digitRuns) (isPower : IsPower exponent power) :
      Denotes (sign ++ (digits ++ exponent))
        (signed sign (NumberLiteral.nearest (decimal digits) power))
  | fraction {sign digits more exponent : List Char} {power : Int} (isSign : sign ∈ 1 + signs)
      (isRun : digits ∈ digitRuns) (isMore : more ∈ digitRuns) (isPower : IsPower exponent power) :
      Denotes (sign ++ (digits ++ ('.' :: (more ++ exponent))))
        (signed sign (NumberLiteral.nearest (decimal (digits ++ more)) (power - more.length)))

theorem exists_isPower (isExponent : exponent ∈ 1 + exponents) :
    ∃ power, IsPower exponent power := by
  rcases isExponent with rfl | isExponent
  · exact ⟨0, .none⟩
  · obtain ⟨_, ⟨letter, isLetter, rfl⟩, _, isSigned, rfl⟩ := Language.mem_mul.1 isExponent
    obtain ⟨sign, isSign, digits, isRun, rfl⟩ := Language.mem_mul.1 isSigned
    have isPower : IsPower (letter :: (sign ++ digits)) _ := .written isLetter isSign isRun
    exact ⟨_, isPower⟩

/-- Every spelling denotes a number. -/
theorem exists_denotes (isNumeral : numeral ∈ numerals) : ∃ value, Denotes numeral value := by
  obtain ⟨sign, isSign, _, isUnsigned, rfl⟩ := Language.mem_mul.1 isNumeral
  obtain ⟨digits, isRun, _, isDecimals, rfl⟩ := Language.mem_mul.1 isUnsigned
  obtain ⟨fraction, isFraction, exponent, isExponent, rfl⟩ := Language.mem_mul.1 isDecimals
  obtain ⟨power, isPower⟩ := exists_isPower isExponent
  rcases isFraction with rfl | isFraction
  · exact ⟨_, .whole isSign isRun isPower⟩
  · obtain ⟨_, ⟨_, isPoint, rfl⟩, more, isMore, rfl⟩ := Language.mem_mul.1 isFraction
    obtain rfl := List.mem_singleton.1 isPoint
    exact ⟨_, .fraction isSign isRun isMore isPower⟩

theorem splitSign_append (isSign : sign ∈ 1 + signs) (unsigned : Stops ['+', '-'].contains rest) :
    NumberLiteral.splitSign (sign ++ rest) = (decide (sign = ['-']), rest) := by
  rcases isSign with rfl | ⟨c, isMark, rfl⟩
  · rw [List.nil_append]
    unfold NumberLiteral.splitSign
    split
    · cases stops_cons.1 unsigned
    · cases stops_cons.1 unsigned
    · rfl
  · simp only [List.mem_cons, List.not_mem_nil, or_false] at isMark
    rcases isMark with rfl | rfl <;> rfl

theorem IsPower.exponent?_eq (isPower : IsPower exponent power) :
    NumberLiteral.exponent? exponent = some power := by
  cases isPower with
  | none => rfl
  | @written letter sign digits isLetter isSign isRun =>
      have split := splitSign_append isSign (opensOutside_digits (by decide) digits isRun)
      have isLetter : letter = 'e' ∨ letter = 'E' := by simpa using isLetter
      have allDigits : digits.all Char.isDigit = true := List.all_eq_true.2 isRun.2
      simp [NumberLiteral.exponent?, isLetter, split, isRun.1, allDigits, signed,
        NumberLiteral.digitsValue_eq]

theorem IsPower.mem_exponents (isPower : IsPower exponent power) : exponent ∈ 1 + exponents := by
  cases isPower with
  | none => exact .inl rfl
  | @written letter _ _ isLetter isSign isRun =>
      have isMark : [letter] ∈ oneOf ['e', 'E'] := ⟨letter, isLetter, rfl⟩
      exact .inr (Language.append_mem_mul isMark (Language.append_mem_mul isSign isRun))

/-- An exponent begins with nothing that could belong to what is before it. -/
theorem IsPower.stops (isPower : IsPower exponent power) (lower : member 'e' = false)
    (upper : member 'E' = false) : Stops member exponent :=
  (opensOutside_exponents lower upper).optional exponent isPower.mem_exponents

/-- Digits are no word. -/
theorem equalIgnoreCase_digits (isRun : digits ∈ digitRuns) (letter : Char)
    (noDigit : letter.toLower.isDigit = false) (letters tail : List Char) :
    Text.equalIgnoreCase (digits ++ tail) (letter :: letters) = false := by
  cases digits with
  | nil => exact absurd isRun nil_notMem_digitRuns
  | cons c digits =>
      have digit := isRun.2 c List.mem_cons_self
      have different : c.toLower ≠ letter.toLower := by
        rintro same
        rw [← same, toLower_of_isDigit digit, digit] at noDigit
        contradiction
      simp [Text.equalIgnoreCase, different]

theorem magnitude?_whole (isRun : digits ∈ digitRuns) (isPower : IsPower exponent power) :
    NumberLiteral.magnitude? (digits ++ exponent) =
      some (NumberLiteral.nearest (decimal digits) power) := by
  have noDigit : Stops Char.isDigit exponent := isPower.stops rfl rfl
  have noPoint : Stops (· == '.') exponent := isPower.stops rfl rfl
  have infinite := equalIgnoreCase_digits isRun 'i' rfl
  have nothing := equalIgnoreCase_digits isRun 'n' rfl
  simp only [NumberLiteral.magnitude?, infinite, nothing,
    takeWhile_append_of_stops isRun.2 noDigit, dropWhile_append_of_stops isRun.2 noDigit,
    Bool.or_self, Bool.false_eq_true, if_false]
  split
  · cases stops_cons.1 noPoint
  · simp [isRun.1, isPower.exponent?_eq, NumberLiteral.digitsValue_eq]

theorem magnitude?_fraction (isRun : digits ∈ digitRuns) (isMore : more ∈ digitRuns)
    (isPower : IsPower exponent power) :
    NumberLiteral.magnitude? (digits ++ ('.' :: (more ++ exponent))) =
      some (NumberLiteral.nearest (decimal (digits ++ more)) (power - more.length)) := by
  have noDigit : Stops Char.isDigit exponent := isPower.stops rfl rfl
  have point : Stops Char.isDigit ('.' :: (more ++ exponent)) := stops_cons.2 rfl
  have infinite := equalIgnoreCase_digits isRun 'i' rfl
  have nothing := equalIgnoreCase_digits isRun 'n' rfl
  simp [NumberLiteral.magnitude?, infinite, nothing, takeWhile_append_of_stops isRun.2 point,
    dropWhile_append_of_stops isRun.2 point, takeWhile_append_of_stops isMore.2 noDigit,
    dropWhile_append_of_stops isMore.2 noDigit, isRun.1, isPower.exponent?_eq,
    NumberLiteral.digitsValue_eq]

/-- The value of a spelling is the one that it denotes. -/
theorem Denotes.value?_eq (denotes : Denotes numeral value) :
    NumberLiteral.value? numeral = some value := by
  have begins {digits behind : List Char} (isRun : digits ∈ digitRuns) :
      Stops ['+', '-'].contains (digits ++ behind) :=
    (opensOutside_digits (by decide)).stops_append nil_notMem_digitRuns isRun behind
  cases denotes with
  | whole isSign isRun isPower =>
      simp [NumberLiteral.value?, splitSign_append isSign (begins isRun),
        magnitude?_whole isRun isPower, signed]
  | fraction isSign isRun isMore isPower =>
      simp [NumberLiteral.value?, splitSign_append isSign (begins isRun),
        magnitude?_fraction isRun isMore isPower, signed]

/-- Every spelling has a value, and that is what it denotes. -/
theorem exists_value?_eq (isNumeral : numeral ∈ numerals) :
    ∃ value, Denotes numeral value ∧ NumberLiteral.value? numeral = some value := by
  obtain ⟨value, denotes⟩ := exists_denotes isNumeral
  exact ⟨value, denotes, denotes.value?_eq⟩

end Values

section Ends

/-- A point, or the letter of an exponent with the sign behind it if there is one, where no
digit follows. -/
inductive Dangles : (tail : List Char) → Prop
  | point {rest : List Char} (noDigit : Stops Char.isDigit rest) : Dangles ('.' :: rest)
  | letter {letter : Char} {sign rest : List Char} (isLetter : letter ∈ ['e', 'E'])
      (isSign : BeginsWithLongest (1 + signs) sign (sign ++ rest))
      (noDigit : Stops Char.isDigit rest) : Dangles (letter :: (sign ++ rest))

theorem endsBefore_signs (noSign : Stops ['+', '-'].contains tail) :
    EndsBefore (1 + signs) tail :=
  (endsBefore_oneOf tail).optional (beginsWithNone_oneOf noSign)

theorem endsBefore_fractions (noDigit : Stops Char.isDigit tail) : EndsBefore fractions tail :=
  .mul (staysInside_marks _) (opensOutside_digits (by decide))
    (fun _ _ => endsBefore_oneOf _) (endsBefore_digitRuns noDigit)

theorem endsBefore_exponents (noDigit : Stops Char.isDigit tail) : EndsBefore exponents tail := by
  have outside : OpensOutside ['+', '-'].contains digitRuns := opensOutside_digits (by decide)
  have signed : EndsBefore ((1 + signs) * digitRuns) tail :=
    .mul staysInside_signs outside
      (fun _ isRun => endsBefore_signs (outside.stops_append nil_notMem_digitRuns isRun tail))
      (endsBefore_digitRuns noDigit)
  exact .mul (staysInside_marks _) opensOutside_signed (fun _ _ => endsBefore_oneOf _) signed

/-- A number ends where neither a digit nor a fraction nor an exponent follows. -/
theorem endsBefore_numerals (noDigit : Stops Char.isDigit tail)
    (noFraction : BeginsWithNone fractions tail) (noExponent : BeginsWithNone exponents tail) :
    EndsBefore numerals tail := by
  have beforeExponent (other : List Char) (isOther : other ∈ 1 + exponents) :
      EndsBefore (1 + fractions) (other ++ tail) := by
    have noMore := (opensOutside_exponents rfl rfl).optional other isOther |>.append noDigit
    refine (endsBefore_fractions noMore).optional ?_
    rcases isOther with rfl | isOther
    · exact noFraction
    · exact (beginsWithNone_oneOf ((opensOutside_exponents rfl rfl).stops_append
        (nil_notMem_mul nil_notMem_oneOf) isOther tail)).mul
  have decimals : EndsBefore ((1 + fractions) * (1 + exponents)) tail :=
    .mul staysInside_fractions (opensOutside_exponents rfl rfl).optional beforeExponent
      ((endsBefore_exponents noDigit).optional noExponent)
  have unsigned : EndsBefore (digitRuns * ((1 + fractions) * (1 + exponents))) tail :=
    .mul (staysInside_digitRuns fun _ => id) opensOutside_decimals
      (fun other isOther =>
        endsBefore_digitRuns ((opensOutside_decimals other isOther).append noDigit)) decimals
  exact .mul staysInside_signs (opensOutside_unsigned _)
    (fun _ isOther => endsBefore_signs ((opensOutside_unsigned _).stops_append
      (nil_notMem_mul nil_notMem_digitRuns) isOther tail)) unsigned

theorem Dangles.endsBefore (dangles : Dangles tail) : EndsBefore numerals tail := by
  cases dangles with
  | point noDigit =>
      refine endsBefore_numerals (stops_cons.2 rfl)
        (beginsWithNone_fractions (beginsWithNone_digitRuns noDigit)) ?_
      exact (beginsWithNone_oneOf (stops_cons.2 rfl)).mul
  | @letter c sign rest isLetter isSign noDigit =>
      have outside : c.isDigit = false ∧ ['.'].contains c = false := by
        simp only [List.mem_cons, List.not_mem_nil, or_false] at isLetter
        rcases isLetter with rfl | rfl <;> decide
      exact endsBefore_numerals (stops_cons.2 outside.1)
        (beginsWithNone_oneOf (stops_cons.2 outside.2)).mul
        (beginsWithNone_exponents isLetter isSign rfl (beginsWithNone_digitRuns noDigit))

end Ends

section Scanners

variable {numeral : List Char} {value : Float} {length : Nat}

theorem readNumber?_eq_some_iff :
    readNumber? text = some (value, length) ↔ ∃ numeral, BeginsWithLongest numerals numeral text ∧
      NumberLiteral.value? numeral = some value ∧ length = numeral.length := by
  simp only [readNumber?, Option.bind_eq_bind, Option.bind_eq_some_iff, Option.pure_def,
    Option.some.injEq, Prod.mk.injEq, numberSpelling?_eq_some_iff]
  constructor
  · rintro ⟨numeral, isLongest, _, valueEq, rfl, rfl⟩
    exact ⟨numeral, isLongest, valueEq, rfl⟩
  · rintro ⟨numeral, isLongest, valueEq, rfl⟩
    exact ⟨numeral, isLongest, value, valueEq, rfl, rfl⟩

theorem readNumber?_eq_none_iff : readNumber? text = none ↔ BeginsWithNone numerals text := by
  constructor
  · intro unread
    cases found : numberSpelling? text with
    | none => exact beginsWithNone_of_numberSpelling? found
    | some numeral =>
        have isLongest := beginsWithLongest_of_numberSpelling? found
        obtain ⟨value, -, valueEq⟩ := exists_value?_eq isLongest.isWord
        have read := readNumber?_eq_some_iff.2 ⟨numeral, isLongest, valueEq, rfl⟩
        rw [unread] at read
        contradiction
  · intro none
    cases read : readNumber? text with
    | none => rfl
    | some found =>
        obtain ⟨numeral, isLongest, -⟩ := readNumber?_eq_some_iff.1 read
        exact absurd isLongest.begins (none numeral isLongest.isWord)

/-- Scans a number, if the text begins with one. -/
def scanNumber? (text : List Char) : Option Scan :=
  (readNumber? text).map fun (value, length) => .found (.number value) length

theorem opensOutside_numerals (signsOutside : ∀ c ∈ ['+', '-'], marks.contains c = false)
    (noDigit : marks.all fun c => !c.isDigit) : OpensOutside marks.contains numerals :=
  (opensOutside_oneOf signsOutside).optional.mul
    ((opensOutside_digits noDigit).mul_of_nonempty nil_notMem_digitRuns)

theorem nil_notMem_numerals : [] ∉ numerals := by
  intro isNumeral
  obtain ⟨sign, -, unsigned, isUnsigned, empty⟩ := Language.mem_mul.1 isNumeral
  obtain ⟨-, rfl⟩ := List.append_eq_nil_iff.1 empty
  exact nil_notMem_mul nil_notMem_digitRuns isUnsigned

theorem not_isVariableStart_of_isDigit (digit : c.isDigit = true) :
    CharClass.isVariableStart c = false := by
  have notOther : c ≠ '_' ∧ c ≠ '$' := ⟨ne_of_isDigit digit rfl, ne_of_isDigit digit rfl⟩
  simp [CharClass.isVariableStart, notOther, not_isAlpha_of_isDigit digit]

theorem scanExpression_of_isDigit (digit : c.isDigit = true)
    (read : readNumber? (c :: text) = some (value, length)) :
    scanExpression (c :: text) = .found (.number value) length := by
  have other : ∀ d, d.isDigit = false → c ≠ d := fun _ => ne_of_isDigit digit
  have notSpace : CharClass.isMarkupSpace c = false := by
    simp [CharClass.isMarkupSpace, other]
  have notQuote : CharClass.isQuote c = false := by
    simp [CharClass.isQuote, other]
  have notEnd : Text.startsWith ['}', '}'] (c :: text) = false := by
    simp [Text.startsWith, List.isPrefixOf, (other '}' rfl).symm]
  have noTemplate : scanTemplate? (c :: text) = none := by
    simp [scanTemplate?, other]
  have noString : scanString? (c :: text) = none := by
    simp [scanString?, notQuote]
  simp only [scanExpression, notSpace, Bool.false_eq_true, if_false, notEnd, name?,
    not_isVariableStart_of_isDigit digit, scanExpressionLiteral, noTemplate, noString, digit,
    if_true, read]

theorem scanTag_of_isDigit (digit : c.isDigit = true)
    (read : readNumber? (c :: text) = some (value, length)) :
    scanTag (c :: text) = .found (.number value) length := by
  have other : ∀ d, d.isDigit = false → c ≠ d := fun _ => ne_of_isDigit digit
  have notSpace : CharClass.isMarkupSpace c = false := by
    simp [CharClass.isMarkupSpace, other]
  have noString : scanString? (c :: text) = none := by
    simp [scanString?, CharClass.isQuote, other]
  have noMark : tagMark? c = none := by
    simp [tagMark?, other]
  have notName : CharClass.isNameStart c = false := by
    simp [CharClass.isNameStart, other, not_isAlpha_of_isDigit digit]
  simp only [scanTag, notSpace, Bool.false_eq_true, if_false, noMark, name?, notName, noString,
    read]

/-- In a style sheet a number may have a sign, and it takes the unit behind it. -/
theorem scanStyle_of_readNumber? (read : readNumber? text = some (value, length)) :
    scanStyle text = scanDimension value length (text.drop length) := by
  obtain ⟨numeral, isLongest, -, -⟩ := readNumber?_eq_some_iff.1 read
  obtain ⟨rest, rfl⟩ := isLongest.begins
  have outside : Stops
      [' ', '\t', '\n', '\r', '\x0c', '"', '\'', '\x60', '<', '/', '#'].contains numeral :=
    opensOutside_numerals (by simp) (by decide) numeral isLongest.isWord
  cases numeral with
  | nil => exact absurd isLongest.isWord nil_notMem_numerals
  | cons c numeral =>
      have noMark := stops_cons.1 outside
      simp only [List.contains_eq_mem, List.mem_cons, List.not_mem_nil, or_false, not_or,
        decide_eq_false_iff_not] at noMark
      have notSpace : CharClass.isMarkupSpace c = false := by
        simp [CharClass.isMarkupSpace, noMark]
      have noString : scanProtectedString? (c :: (numeral ++ rest)) = none := by
        simp [scanProtectedString?, CharClass.isQuote, noMark]
      have notEnd :
          ¬Text.startsWithIgnoreCase "</style>".toList (c :: (numeral ++ rest)) = true := by
        intro ends
        have isLess := (beginsWithStyleEnd_iff.2 ends).head?_eq
        simp [noMark] at isLess
      have notComment : ¬Text.startsWith ['/', '*'] (c :: (numeral ++ rest)) = true := by
        intro opens
        obtain ⟨behind, textEq⟩ := startsWith_iff.1 opens
        simp [noMark] at textEq
      have notHash : c ≠ '#' := by simp [noMark]
      rw [List.cons_append] at read ⊢
      simp only [scanStyle, notSpace, Bool.false_eq_true, if_false, if_neg notEnd,
        if_neg notComment, noString, if_neg notHash, scanStyleWord, read]

/-- A digit alone is a number. -/
theorem exists_readNumber?_eq (digit : c.isDigit = true) (text : List Char) :
    ∃ value length, readNumber? (c :: text) = some (value, length) := by
  cases read : readNumber? (c :: text) with
  | some found => exact ⟨found.1, found.2, rfl⟩
  | none =>
      have isRun : [c] ∈ digitRuns := ⟨List.cons_ne_nil c [], by simpa using digit⟩
      have isNumeral : [c] ++ [] ∈ numerals := mem_numerals isRun (.inl rfl)
      exact absurd (List.prefix_append [c] text) (readNumber?_eq_none_iff.1 read _ isNumeral)

end Scanners

end Lex

namespace Lexer

open TemplateCompiler.Lex

variable {cursor : Cursor}

theorem literalAt_scanNumber? (cursor : Cursor) :
    literalAt scanNumber? cursor = .ok ((readNumber? cursor.rest).map fun (value, length) =>
      scannedOf cursor ⟨.number value, length⟩) := by
  rw [literalAt, scanNumber?]
  cases readNumber? cursor.rest <;> rfl

theorem literalAt_number_iff (cursor : Cursor) (scanned : Scanned) :
    literalAt scanNumber? cursor = .ok (some scanned) ↔
      ∃ numeral value, BeginsWithLongest numerals numeral cursor.rest ∧
        NumberLiteral.value? numeral = some value ∧
        scanned = scannedOf cursor ⟨.number value, numeral.length⟩ := by
  rw [literalAt_scanNumber?, Except.ok.injEq, Option.map_eq_some_iff]
  constructor
  · rintro ⟨⟨value, length⟩, read, rfl⟩
    obtain ⟨numeral, isLongest, valueEq, rfl⟩ := readNumber?_eq_some_iff.1 read
    exact ⟨numeral, value, isLongest, valueEq, rfl⟩
  · rintro ⟨numeral, value, isLongest, valueEq, rfl⟩
    exact ⟨(value, numeral.length),
      readNumber?_eq_some_iff.2 ⟨numeral, isLongest, valueEq, rfl⟩, rfl⟩

theorem literalAt_number_eq_none_iff (cursor : Cursor) :
    literalAt scanNumber? cursor = .ok none ↔ BeginsWithNone numerals cursor.rest := by
  rw [literalAt_scanNumber?, Except.ok.injEq, Option.map_eq_none_iff, readNumber?_eq_none_iff]

/-- Where a digit is, tags and expressions read a number. -/
theorem scannedAt_of_isDigit {c : Char} (head : cursor.rest.head? = some c)
    (digit : c.isDigit = true) :
    scannedAt .tag cursor = literalAt scanNumber? cursor ∧
      scannedAt .expression cursor = literalAt scanNumber? cursor := by
  obtain ⟨text, restEq⟩ := List.head?_eq_some_iff.1 head
  obtain ⟨value, length, read⟩ := exists_readNumber?_eq digit text
  have tried : scanNumber? cursor.rest = some (.found (.number value) length) := by
    rw [restEq, scanNumber?, read]
    rfl
  constructor
  · exact scannedAt_eq_literalAt tried (restEq ▸ scanTag_of_isDigit digit read)
  · exact scannedAt_eq_literalAt tried (restEq ▸ scanExpression_of_isDigit digit read)

/-- Of the spellings of numbers at the head of a text the longest one is read, and each of them
has the value that it denotes; where there is none, nothing is read.  So whatever dangles behind
a number is left for the next token.  This is the number that tags and expressions read where a
digit is, and that a style sheet reads with the unit behind it. -/
theorem literalAt_number (cursor : Cursor) :
    (∀ scanned, literalAt scanNumber? cursor = .ok (some scanned) ↔
      ∃ numeral value, BeginsWithLongest numerals numeral cursor.rest ∧
        NumberLiteral.value? numeral = some value ∧
        scanned = scannedOf cursor ⟨.number value, numeral.length⟩) ∧
    (literalAt scanNumber? cursor = .ok none ↔
      ∀ numeral ∈ numerals, numeral <+: cursor.rest → numeral = []) ∧
    (∀ numeral ∈ numerals, ∃ value, Denotes numeral value ∧
      NumberLiteral.value? numeral = some value) ∧
    (∀ numeral ∈ numerals, ∀ tail, Dangles tail → cursor.rest = numeral ++ tail →
      ∃ scanned, literalAt scanNumber? cursor = .ok (some scanned) ∧
        scanned.stop.rest = tail ∧
        ∀ value, Denotes numeral value → scanned.token.kind = .number value) ∧
    (∀ c, cursor.rest.head? = some c → c.isDigit = true →
      scannedAt .tag cursor = literalAt scanNumber? cursor ∧
        scannedAt .expression cursor = literalAt scanNumber? cursor) ∧
    ∀ numeral value, BeginsWithLongest numerals numeral cursor.rest →
      NumberLiteral.value? numeral = some value → scanIn .style cursor.rest =
        scanDimension value numeral.length (cursor.rest.drop numeral.length) := by
  refine ⟨literalAt_number_iff cursor, ?_, fun _ => exists_value?_eq, ?_,
    fun c => scannedAt_of_isDigit, ?_⟩
  · rw [literalAt_number_eq_none_iff]
    constructor
    · exact fun none numeral isNumeral begins => absurd begins (none numeral isNumeral)
    · intro empty numeral isNumeral begins
      obtain rfl := empty numeral isNumeral begins
      exact nil_notMem_numerals isNumeral
  · intro numeral isNumeral tail dangles restEq
    obtain ⟨value, -, valueEq⟩ := exists_value?_eq isNumeral
    have isLongest := dangles.endsBefore numeral isNumeral
    rw [← restEq] at isLongest
    refine ⟨_, (literalAt_number_iff cursor _).2 ⟨numeral, value, isLongest, valueEq, rfl⟩, ?_,
      fun denoted denotes => ?_⟩
    · rw [scannedOf, Cursor.advanceBy_rest, restEq, List.drop_left]
    · obtain rfl := Option.some.inj (valueEq.symm.trans denotes.value?_eq)
      rfl
  · intro numeral value isLongest valueEq
    exact scanStyle_of_readNumber? (readNumber?_eq_some_iff.2 ⟨numeral, isLongest, valueEq, rfl⟩)

theorem literalAt_number_units :
    (∃ scanned, literalAt scanNumber? (.ofText "1em".toList) = .ok (some scanned) ∧
      scanned.stop.rest = "em".toList ∧ scanned.token.kind = .number 1.0) ∧
    (∃ scanned, literalAt scanNumber? (.ofText "1.e5".toList) = .ok (some scanned) ∧
      scanned.stop.rest = ".e5".toList ∧ scanned.token.kind = .number 1.0) ∧
    (∃ scanned, literalAt scanNumber? (.ofText "-2.5e+x".toList) = .ok (some scanned) ∧
      scanned.stop.rest = "e+x".toList ∧ scanned.token.kind = .number (-2.5)) ∧
    literalAt scanNumber? (.ofText "+x".toList) = .ok none := by
  have isRun {digit : Char} (isDigit : digit.isDigit = true) : [digit] ∈ digitRuns :=
    ⟨List.cons_ne_nil _ _, by simpa using isDigit⟩
  have isOne : ['1'] ++ [] ∈ numerals := mem_numerals (isRun rfl) (.inl rfl)
  have one : Denotes ['1'] 1.0 := by
    have denotes : Denotes ['1'] (signed [] (NumberLiteral.nearest (decimal ['1']) 0)) :=
      .whole (.inl rfl) (isRun rfl) .none
    rw [show decimal ['1'] = 1 by decide] at denotes
    exact denotes
  have twoAndHalf : Denotes "-2.5".toList (-2.5) := by
    have denotes : Denotes ['-', '2', '.', '5']
        (signed ['-'] (NumberLiteral.nearest (decimal ['2', '5']) (0 - ['5'].length))) :=
      .fraction (.inr ⟨'-', by decide, rfl⟩) (isRun rfl) (isRun rfl) .none
    rw [show decimal ['2', '5'] = 25 by decide] at denotes
    exact denotes
  refine ⟨?_, ?_, ?_, ?_⟩
  · obtain ⟨-, -, -, leaves, -⟩ := literalAt_number (.ofText "1em".toList)
    obtain ⟨scanned, read, restEq, valued⟩ := leaves ['1'] isOne "em".toList
      (.letter (by decide) (beginsWithLongest_signPart ['m']) (stops_cons.2 rfl)) rfl
    exact ⟨scanned, read, restEq, valued 1.0 one⟩
  · obtain ⟨-, -, -, leaves, -⟩ := literalAt_number (.ofText "1.e5".toList)
    obtain ⟨scanned, read, restEq, valued⟩ := leaves ['1'] isOne ".e5".toList
      (.point (stops_cons.2 rfl)) rfl
    exact ⟨scanned, read, restEq, valued 1.0 one⟩
  · obtain ⟨-, -, -, leaves, -⟩ := literalAt_number (.ofText "-2.5e+x".toList)
    have isNumeral := (beginsWithLongest_of_numberSpelling?
      (rfl : numberSpelling? "-2.5".toList = some "-2.5".toList)).isWord
    obtain ⟨scanned, read, restEq, valued⟩ := leaves "-2.5".toList isNumeral "e+x".toList
      (.letter (by decide) (beginsWithLongest_signPart ['+', 'x']) (stops_cons.2 rfl)) rfl
    exact ⟨scanned, read, restEq, valued (-2.5) twoAndHalf⟩
  · obtain ⟨-, unread, -⟩ := literalAt_number (.ofText "+x".toList)
    have none : BeginsWithNone numerals "+x".toList := beginsWithNone_of_numberSpelling? rfl
    exact unread.2 fun numeral isNumeral begins => absurd begins (none numeral isNumeral)

end Lexer

end TemplateCompiler
