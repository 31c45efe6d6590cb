import TemplateCompiler.Proofs.Lex.Recognition
import Mathlib.Computability.Language

/-!
# Longest words at the head of a text

A reader that goes through the parts of a word one after the other, as far as each goes, and
never returns to an earlier one need not come to the longest word.  It does where no part
begins with a character that the part before it could have gone on with: then the longest
word of a product of languages is made of the longest words of its factors, and there is
none where the second factor has none.

In the same way it is told behind which words a text can stand without being read with them.
-/

namespace TemplateCompiler

namespace Lex

variable {member : Char → Bool} {first second language : Language Char} {c : Char}
  {text tail word other rest marks : List Char}

/-- Whether a text begins with a word of a language, and with no longer one. -/
structure BeginsWithLongest (language : Language Char) (word text : List Char) : Prop where
  isWord : word ∈ language
  begins : word <+: text
  longest : ∀ other ∈ language, other <+: text → other.length ≤ word.length

/-- Whether no word of a language is at the head of a text. -/
def BeginsWithNone (language : Language Char) (text : List Char) : Prop :=
  ∀ word ∈ language, ¬word <+: text

/-- Whether every word of a language ends where a text begins. -/
def EndsBefore (language : Language Char) (tail : List Char) : Prop :=
  ∀ word ∈ language, BeginsWithLongest language word (word ++ tail)

/-- Whether all characters of the words of a language are of a class. -/
def StaysInside (member : Char → Bool) (language : Language Char) : Prop :=
  ∀ word ∈ language, ∀ c ∈ word, member c = true

/-- Whether no word of a language begins with a character of a class. -/
def OpensOutside (member : Char → Bool) (language : Language Char) : Prop :=
  ∀ word ∈ language, Stops member word

/-- The words of one character, which is one of some marks. -/
def oneOf (marks : List Char) : Language Char :=
  {word | ∃ c ∈ marks, word = [c]}

section Characters

theorem StaysInside.optional (inside : StaysInside member language) :
    StaysInside member (1 + language) := by
  rintro word (rfl | isWord)
  · exact fun _ => nofun
  · exact inside word isWord

theorem StaysInside.mul (inside : StaysInside member first)
    (insideThen : StaysInside member second) : StaysInside member (first * second) := by
  intro word isWord c mem
  obtain ⟨head, isHead, behind, isBehind, rfl⟩ := Language.mem_mul.1 isWord
  rcases List.mem_append.1 mem with mem | mem
  · exact inside head isHead c mem
  · exact insideThen behind isBehind c mem

theorem OpensOutside.optional (outside : OpensOutside member language) :
    OpensOutside member (1 + language) := by
  rintro word (rfl | isWord)
  · exact stops_nil
  · exact outside word isWord

theorem OpensOutside.mul (outside : OpensOutside member first)
    (outsideThen : OpensOutside member second) : OpensOutside member (first * second) := by
  intro word isWord
  obtain ⟨head, isHead, behind, isBehind, rfl⟩ := Language.mem_mul.1 isWord
  exact (outside head isHead).append (outsideThen behind isBehind)

theorem OpensOutside.stops_append (outside : OpensOutside member language)
    (nonempty : [] ∉ language) (isWord : word ∈ language) (tail : List Char) :
    Stops member (word ++ tail) := by
  cases word with
  | nil => contradiction
  | cons c word =>
      have opens := outside _ isWord
      exact opens

/-- What begins a word of a product begins a word of the first factor, if that has no empty
words. -/
theorem OpensOutside.mul_of_nonempty (outside : OpensOutside member first)
    (nonempty : [] ∉ first) : OpensOutside member (first * second) := by
  intro word isWord
  obtain ⟨head, isHead, behind, -, rfl⟩ := Language.mem_mul.1 isWord
  exact outside.stops_append nonempty isHead behind

theorem nil_notMem_mul (nonempty : [] ∉ first) : [] ∉ first * second := by
  intro isWord
  obtain ⟨head, isHead, behind, -, empty⟩ := Language.mem_mul.1 isWord
  obtain ⟨rfl, -⟩ := List.append_eq_nil_iff.1 empty
  exact nonempty isHead

theorem staysInside_oneOf (inside : ∀ c ∈ marks, member c = true) :
    StaysInside member (oneOf marks) := by
  rintro _ ⟨c, isMark, rfl⟩ d mem
  obtain rfl := List.mem_singleton.1 mem
  exact inside d isMark

theorem staysInside_marks (marks : List Char) : StaysInside marks.contains (oneOf marks) :=
  staysInside_oneOf fun _ => List.contains_iff_mem.2

theorem opensOutside_oneOf (outside : ∀ c ∈ marks, member c = false) :
    OpensOutside member (oneOf marks) := by
  rintro _ ⟨c, isMark, rfl⟩
  exact stops_cons.2 (outside c isMark)

theorem nil_notMem_oneOf : [] ∉ oneOf marks := by
  rintro ⟨c, -, same⟩
  contradiction

end Characters

section Longest

theorem BeginsWithLongest.unique (isWord : BeginsWithLongest language word text)
    (isOther : BeginsWithLongest language other text) : word = other :=
  (List.prefix_of_prefix_length_le isWord.begins isOther.begins
    (isOther.longest word isWord.isWord isWord.begins)).eq_of_length_le
    (isWord.longest other isOther.isWord isOther.begins)

/-- A word of a product at the head of a text goes through the longest word of the first
factor, or it is a word of the first factor itself. -/
theorem BeginsWithLongest.passes {head behind : List Char}
    (isFirst : BeginsWithLongest first word text) (textEq : text = word ++ rest)
    (inside : StaysInside member first) (outside : OpensOutside member second)
    (isHead : head ∈ first) (isBehind : behind ∈ second) (begins : head ++ behind <+: text) :
    (head = word ∧ behind <+: rest) ∨ (behind = [] ∧ head.length ≤ word.length) := by
  have headBegins : head <+: text := (List.prefix_append head behind).trans begins
  have shorter := isFirst.longest head isHead headBegins
  obtain ⟨more, rfl⟩ := List.prefix_of_prefix_length_le headBegins isFirst.begins shorter
  rw [textEq, List.append_assoc, List.prefix_append_right_inj] at begins
  cases more with
  | nil => exact .inl ⟨(List.append_nil head).symm, begins⟩
  | cons c more =>
      cases behind with
      | nil => exact .inr ⟨rfl, shorter⟩
      | cons d behind =>
          obtain ⟨rfl, -⟩ := List.cons_prefix_cons.1 begins
          have isMember := inside _ isFirst.isWord d (by simp)
          have notMember := outside _ isBehind d rfl
          rw [isMember] at notMember
          contradiction

theorem BeginsWithLongest.mul (isFirst : BeginsWithLongest first word text)
    (textEq : text = word ++ rest) (inside : StaysInside member first)
    (outside : OpensOutside member second) (isSecond : BeginsWithLongest second other rest) :
    BeginsWithLongest (first * second) (word ++ other) text where
  isWord := Language.append_mem_mul isFirst.isWord isSecond.isWord
  begins := textEq ▸ (List.prefix_append_right_inj word).2 isSecond.begins
  longest := by
    intro whole isWhole begins
    obtain ⟨head, isHead, behind, isBehind, rfl⟩ := Language.mem_mul.1 isWhole
    rw [List.length_append, List.length_append]
    obtain ⟨rfl, behindBegins⟩ | ⟨rfl, shorter⟩ :=
      isFirst.passes textEq inside outside isHead isBehind begins
    · exact Nat.add_le_add_left (isSecond.longest behind isBehind behindBegins) _
    · exact Nat.le_add_right_of_le shorter

theorem BeginsWithLongest.beginsWithNone (isFirst : BeginsWithLongest first word text)
    (textEq : text = word ++ rest) (inside : StaysInside member first)
    (outside : OpensOutside member second) (none : BeginsWithNone second rest) :
    BeginsWithNone (first * second) text := by
  intro whole isWhole begins
  obtain ⟨head, isHead, behind, isBehind, rfl⟩ := Language.mem_mul.1 isWhole
  obtain ⟨rfl, behindBegins⟩ | ⟨rfl, -⟩ :=
    isFirst.passes textEq inside outside isHead isBehind begins
  · exact none behind isBehind behindBegins
  · exact none [] isBehind List.nil_prefix

theorem BeginsWithNone.mul (none : BeginsWithNone first text) :
    BeginsWithNone (first * second) text := by
  intro whole isWhole begins
  obtain ⟨head, isHead, behind, -, rfl⟩ := Language.mem_mul.1 isWhole
  exact none head isHead ((List.prefix_append head behind).trans begins)

theorem BeginsWithLongest.optional (isLongest : BeginsWithLongest language word text) :
    BeginsWithLongest (1 + language) word text where
  isWord := .inr isLongest.isWord
  begins := isLongest.begins
  longest := by
    rintro other (rfl | isOther) begins
    · exact Nat.zero_le _
    · exact isLongest.longest other isOther begins

theorem BeginsWithNone.optional (none : BeginsWithNone language text) :
    BeginsWithLongest (1 + language) [] text where
  isWord := .inl rfl
  begins := List.nil_prefix
  longest := by
    rintro other (rfl | isOther) begins
    · exact Nat.le_refl _
    · exact absurd begins (none other isOther)

theorem beginsWithLongest_oneOf (isMark : c ∈ marks) (rest : List Char) :
    BeginsWithLongest (oneOf marks) [c] (c :: rest) where
  isWord := ⟨c, isMark, rfl⟩
  begins := List.prefix_append [c] rest
  longest := by
    rintro _ ⟨d, -, rfl⟩ -
    exact Nat.le_refl 1

theorem beginsWithNone_oneOf (stops : Stops marks.contains text) :
    BeginsWithNone (oneOf marks) text := by
  rintro _ ⟨c, isMark, rfl⟩ ⟨rest, rfl⟩
  exact absurd (stops c rfl) (by simp [isMark])

end Longest

section Ends

theorem EndsBefore.mul (inside : StaysInside member first) (outside : OpensOutside member second)
    (ends : ∀ other ∈ second, EndsBefore first (other ++ tail))
    (endsThen : EndsBefore second tail) : EndsBefore (first * second) tail := by
  intro word isWord
  obtain ⟨head, isHead, other, isOther, rfl⟩ := Language.mem_mul.1 isWord
  rw [List.append_assoc]
  exact (ends other isOther head isHead).mul rfl inside outside (endsThen other isOther)

theorem EndsBefore.optional (ends : EndsBefore language tail)
    (none : BeginsWithNone language tail) : EndsBefore (1 + language) tail := by
  rintro word (rfl | isWord)
  · exact none.optional
  · exact (ends word isWord).optional

theorem endsBefore_oneOf (tail : List Char) : EndsBefore (oneOf marks) tail := by
  rintro _ ⟨c, isMark, rfl⟩
  exact beginsWithLongest_oneOf isMark tail

end Ends

end Lex

end TemplateCompiler
