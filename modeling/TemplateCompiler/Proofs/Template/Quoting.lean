import TemplateCompiler.Proofs.Lex.Recognition
import TemplateCompiler.Text.Quoted

/-!
# Quoted texts are read back

A character is quoted as itself, as a backslash and a letter, or as its code point between
braces.  No quoted form is the beginning of another one, and none begins with a double
quote.  So a quoted text at the head of a line tells the text and what stands behind it, and
it never divides the line.
-/

namespace TemplateCompiler

namespace Text

/-- The characters that are quoted by a letter behind a backslash. -/
def quotedLetters : List (Char × Char) :=
  [('\x00', '0'), ('\t', 't'), ('\r', 'r'), ('\n', 'n'), ('"', '"'), ('\\', '\\')]

/-- The ways in which a character may be quoted. -/
inductive QuotesAs (c : Char) : List Char → Prop
  | lettered {letter : Char} (stands : (c, letter) ∈ quotedLetters) : QuotesAs c ['\\', letter]
  | coded : QuotesAs c (['\\', 'u', '{'] ++ Nat.toDigits 16 c.toNat ++ ['}'])
  | plain (ordinary : c ∉ ['\n', '"', '\\']) : QuotesAs c [c]

theorem quotesAs_escapeChar (c : Char) : QuotesAs c (escapeChar c) := by
  unfold escapeChar
  split_ifs with isNull isTab isReturn isFeed isQuote isBackslash isInvisible
  · exact .lettered (by simp [quotedLetters, isNull])
  · exact .lettered (by simp [quotedLetters, isTab])
  · exact .lettered (by simp [quotedLetters, isReturn])
  · exact .lettered (by simp [quotedLetters, isFeed])
  · exact .lettered (by simp [quotedLetters, isQuote])
  · exact .lettered (by simp [quotedLetters, isBackslash])
  · exact .coded
  · exact .plain (by simp [isFeed, isQuote, isBackslash])

section HexDigits

theorem digitChar_inj {first second : Nat} (belowFirst : first < 16) (belowSecond : second < 16)
    (same : first.digitChar = second.digitChar) : first = second := by
  have each : ∀ first < 16, ∀ second < 16, first.digitChar = second.digitChar →
      first = second := by decide
  exact each first belowFirst second belowSecond same

theorem length_toDigits_le_one {number : Nat} :
    (Nat.toDigits 16 number).length ≤ 1 ↔ number < 16 :=
  Nat.length_toDigits_le_iff (by decide) Nat.one_pos

/-- The digits of a number to the base of sixteen tell the number. -/
theorem toDigits_inj {first second : Nat}
    (same : Nat.toDigits 16 first = Nat.toDigits 16 second) : first = second := by
  induction first using Nat.strongRecOn generalizing second with
  | ind first ih =>
      have sameSize : first < 16 ↔ second < 16 := by
        rw [← length_toDigits_le_one, same, length_toDigits_le_one]
      by_cases below : first < 16
      · rw [Nat.toDigits_of_lt_base below, Nat.toDigits_of_lt_base (sameSize.1 below)] at same
        exact digitChar_inj below (sameSize.1 below) (List.singleton_inj.1 same)
      · rw [Nat.toDigits_of_base_le (by decide) (Nat.le_of_not_lt below),
          Nat.toDigits_of_base_le (by decide) (Nat.le_of_not_lt (mt sameSize.2 below))] at same
        obtain ⟨sameLeading, sameLast⟩ := List.append_inj' same rfl
        have leading := ih (first / 16) (by omega) sameLeading
        have last := digitChar_inj (Nat.mod_lt _ (by decide)) (Nat.mod_lt _ (by decide))
          (List.singleton_inj.1 sameLast)
        omega

theorem isHexDigit_of_mem_toDigits {number : Nat} {c : Char} (member : c ∈ Nat.toDigits 16 number) :
    c ∈ "0123456789abcdef".toList := by
  have digit : ∀ value < 16, value.digitChar ∈ "0123456789abcdef".toList := by decide
  induction number using Nat.strongRecOn with
  | ind number ih =>
      rw [Nat.toDigits_eq_if (by decide)] at member
      by_cases below : number < 16
      · rw [if_pos below, List.mem_singleton] at member
        exact member ▸ digit number below
      · rw [if_neg below, List.mem_append, List.mem_singleton] at member
        rcases member with leading | rfl
        · exact ih (number / 16) (by omega) leading
        · exact digit _ (Nat.mod_lt _ (by decide))

end HexDigits

section Decoding

variable {c d : Char} {piece other tail otherTail : List Char}

/-- A word of one class tells itself and what is behind it, if something of another class is. -/
theorem word_append_inj {member : Char → Bool} {first second : List Char}
    (insideFirst : ∀ c ∈ first, member c = true) (insideSecond : ∀ c ∈ second, member c = true)
    (stops : Lex.Stops member tail) (stopsOther : Lex.Stops member otherTail)
    (same : first ++ tail = second ++ otherTail) : first = second ∧ tail = otherTail := by
  have words := congrArg (List.takeWhile member) same
  rw [Lex.takeWhile_append_of_stops insideFirst stops,
    Lex.takeWhile_append_of_stops insideSecond stopsOther] at words
  subst words
  exact ⟨rfl, List.append_cancel_left same⟩

/-- A word in which a character does not occur tells itself and what is behind it, if that
character is. -/
theorem word_append_inj_of_not_mem {separator : Char} {first second : List Char}
    (notFirst : separator ∉ first) (notSecond : separator ∉ second)
    (stops : Lex.Stops (· != separator) tail) (stopsOther : Lex.Stops (· != separator) otherTail)
    (same : first ++ tail = second ++ otherTail) : first = second ∧ tail = otherTail := by
  have outside {word : List Char} (notIn : separator ∉ word) :
      ∀ c ∈ word, (c != separator) = true := fun c member =>
    bne_iff_ne.2 fun isSeparator => notIn (isSeparator ▸ member)
  exact word_append_inj (outside notFirst) (outside notSecond) stops stopsOther same

theorem word_append_cons_inj {separator : Char} {first second : List Char}
    (notFirst : separator ∉ first) (notSecond : separator ∉ second)
    (same : first ++ separator :: tail = second ++ separator :: otherTail) :
    first = second ∧ tail = otherTail := by
  obtain ⟨sameWord, sameTail⟩ := word_append_inj_of_not_mem notFirst notSecond
    (Lex.stops_cons.2 (bne_self_eq_false _)) (Lex.stops_cons.2 (bne_self_eq_false _)) same
  exact ⟨sameWord, (List.cons.inj sameTail).2⟩

/-- Entries written one behind the other are told by what is written, if the first entry
always is. -/
theorem flatMap_inj {α : Type} {written : α → List Char} {legible : α → Prop}
    (nonempty : ∀ entry, written entry ≠ [])
    (tells : ∀ {entry other : α} {behind behindOther : List α}, legible entry → legible other →
      written entry ++ behind.flatMap written = written other ++ behindOther.flatMap written →
        entry = other ∧ behind.flatMap written = behindOther.flatMap written)
    {first second : List α} (legibleFirst : ∀ entry ∈ first, legible entry)
    (legibleSecond : ∀ entry ∈ second, legible entry)
    (same : first.flatMap written = second.flatMap written) : first = second := by
  induction first generalizing second with
  | nil =>
      cases second with
      | nil => rfl
      | cons other second => simp [nonempty] at same
  | cons entry first ih =>
      cases second with
      | nil => simp [nonempty] at same
      | cons other second =>
          obtain ⟨legibleEntry, restFirst⟩ := List.forall_mem_cons.1 legibleFirst
          obtain ⟨legibleOther, restSecond⟩ := List.forall_mem_cons.1 legibleSecond
          obtain ⟨rfl, sameRest⟩ := tells legibleEntry legibleOther same
          rw [ih restFirst restSecond sameRest]

/-- A quoted character at the head of a text tells the character and what is behind it. -/
theorem QuotesAs.append_inj (quotes : QuotesAs c piece) (quotesOther : QuotesAs d other)
    (same : piece ++ tail = other ++ otherTail) : c = d ∧ tail = otherTail := by
  have letters : ∀ first ∈ quotedLetters, ∀ second ∈ quotedLetters,
      first.2 = second.2 → first.1 = second.1 := by decide
  have noCode : ∀ first ∈ quotedLetters, first.2 ≠ 'u' := by decide
  have noBackslash {c : Char} (ordinary : c ∉ ['\n', '"', '\\']) : c ≠ '\\' := by
    simp_all
  cases quotes with
  | lettered stands =>
      cases quotesOther with
      | lettered standsOther =>
          obtain ⟨sameLetter, sameTail⟩ := List.cons.inj (List.cons.inj same).2
          exact ⟨letters _ stands _ standsOther sameLetter, sameTail⟩
      | coded => exact absurd (List.cons.inj (List.cons.inj same).2).1 (noCode _ stands)
      | plain ordinary => exact absurd (List.cons.inj same).1.symm (noBackslash ordinary)
  | coded =>
      cases quotesOther with
      | lettered standsOther =>
          exact absurd (List.cons.inj (List.cons.inj same).2).1.symm (noCode _ standsOther)
      | coded =>
          have noBrace (number : Nat) : '}' ∉ Nat.toDigits 16 number := fun member =>
            absurd (isHexDigit_of_mem_toDigits member) (by decide)
          simp only [List.append_assoc, List.cons_append, List.nil_append, List.cons.injEq,
            true_and] at same
          obtain ⟨sameDigits, sameTail⟩ := word_append_cons_inj (noBrace _) (noBrace _) same
          exact ⟨Char.toNat_inj.1 (toDigits_inj sameDigits), sameTail⟩
      | plain ordinary => exact absurd (List.cons.inj same).1.symm (noBackslash ordinary)
  | plain ordinary =>
      cases quotesOther with
      | lettered standsOther => exact absurd (List.cons.inj same).1 (noBackslash ordinary)
      | coded => exact absurd (List.cons.inj same).1 (noBackslash ordinary)
      | plain ordinaryOther => exact List.cons.inj same

theorem QuotesAs.head_ne (quotes : QuotesAs c piece) :
    ∃ first rest, piece = first :: rest ∧ first ≠ '"' := by
  cases quotes with
  | lettered stands => exact ⟨_, _, rfl, by decide⟩
  | coded => exact ⟨_, _, rfl, by decide⟩
  | plain ordinary => exact ⟨_, _, rfl, fun isQuote => ordinary (by simp [isQuote])⟩

theorem QuotesAs.noLineFeed (quotes : QuotesAs c piece) : '\n' ∉ piece := by
  cases quotes with
  | @lettered letter stands =>
      have noFeed : ∀ first ∈ quotedLetters, first.2 ≠ '\n' := by decide
      simpa using (noFeed _ stands).symm
  | coded =>
      intro member
      simp only [List.cons_append, List.nil_append, List.mem_cons, List.mem_append,
        List.not_mem_nil, or_false] at member
      obtain impossible | impossible | impossible | digit | impossible := member
      · contradiction
      · contradiction
      · contradiction
      · exact absurd (isHexDigit_of_mem_toDigits digit) (by decide)
      · contradiction
  | plain ordinary =>
      intro member
      rw [List.mem_singleton] at member
      exact ordinary (by simp [← member])

theorem toList_quoted (text : String) :
    (quoted text).toList = '"' :: (text.toList.flatMap escapeChar ++ ['"']) :=
  String.toList_ofList

theorem flatMap_escapeChar_inj {first second : List Char}
    (same : first.flatMap escapeChar ++ '"' :: tail =
      second.flatMap escapeChar ++ '"' :: otherTail) : first = second ∧ tail = otherTail := by
  induction first generalizing second with
  | nil =>
      cases second with
      | nil => exact ⟨rfl, (List.cons.inj same).2⟩
      | cons d second =>
          obtain ⟨head, rest, pieceEq, notQuote⟩ := (quotesAs_escapeChar d).head_ne
          rw [List.flatMap_cons, pieceEq] at same
          exact absurd (List.cons.inj same).1.symm notQuote
  | cons c first ih =>
      obtain ⟨head, rest, pieceEq, notQuote⟩ := (quotesAs_escapeChar c).head_ne
      cases second with
      | nil =>
          rw [List.flatMap_cons, pieceEq] at same
          exact absurd (List.cons.inj same).1 notQuote
      | cons d second =>
          rw [List.flatMap_cons, List.flatMap_cons, List.append_assoc, List.append_assoc] at same
          obtain ⟨rfl, sameRest⟩ :=
            (quotesAs_escapeChar c).append_inj (quotesAs_escapeChar d) same
          obtain ⟨rfl, sameTail⟩ := ih sameRest
          exact ⟨rfl, sameTail⟩

/-- A quoted text at the head of a line tells the text and what is behind it. -/
theorem quoted_append_inj {first second : String}
    (same : (quoted first).toList ++ tail = (quoted second).toList ++ otherTail) :
    first = second ∧ tail = otherTail := by
  rw [toList_quoted, toList_quoted, List.cons_append, List.cons_append, List.append_assoc,
    List.append_assoc] at same
  obtain ⟨sameText, sameTail⟩ := flatMap_escapeChar_inj (List.cons.inj same).2
  exact ⟨String.toList_inj.1 sameText, sameTail⟩

theorem quoted_inj {first second : String} (same : quoted first = quoted second) :
    first = second := by
  have padded : (quoted first).toList ++ [] = (quoted second).toList ++ [] := by rw [same]
  exact (quoted_append_inj padded).1

theorem noLineFeed_quoted (text : String) : '\n' ∉ (quoted text).toList := by
  intro member
  rw [toList_quoted, List.mem_cons, List.mem_append, List.mem_flatMap, List.mem_singleton] at member
  obtain impossible | ⟨c, -, inQuoted⟩ | impossible := member
  · contradiction
  · exact (quotesAs_escapeChar c).noLineFeed inQuoted
  · contradiction

end Decoding

end Text

end TemplateCompiler
