import TemplateCompiler.Proofs.Lex.Continuation
import TemplateCompiler.Proofs.Lex.LineBreaks

/-!
# What follows front matter

A block of front matter whose closing line ends with a line feed is the same
block whatever text follows it.  The text behind it begins a line, so what is read
there is a number of bytes and a number of whole lines behind where it would be
without the block.
-/

namespace TemplateCompiler

namespace Lex

open Text

variable {text tail : List Char}

section Blocks

theorem beginsWithDelimiterLine_append (feed : '\n' ∈ text) :
    beginsWithDelimiterLine (text ++ tail) = beginsWithDelimiterLine text := by
  rw [beginsWithDelimiterLine, beginsWithDelimiterLine,
    startsWith_append_of_mem feed (by decide)]
  cases starts : startsWith delimiter text with
  | false => rfl
  | true =>
      obtain ⟨rest, rfl⟩ := startsWith_iff.1 starts
      have restFeed : '\n' ∈ rest := by simpa [delimiter] using feed
      obtain ⟨c, rest, rfl⟩ := List.exists_cons_of_ne_nil (List.ne_nil_of_mem restFeed)
      rfl

theorem lineLength_append (feed : '\n' ∈ text) : lineLength (text ++ tail) = lineLength text := by
  unfold lineLength
  fun_induction splitLine text with
  | case1 => contradiction
  | case2 text => rfl
  | case3 c text notPair isBreak =>
      rw [List.cons_append, splitLine, if_pos isBreak]
      -- A carriage return at the end would not be followed by the line feed.
      intro others isReturn startsFeed
      have someText : text ≠ [] := by
        rintro rfl
        simp [isReturn] at feed
      obtain ⟨d, text, rfl⟩ := List.exists_cons_of_ne_nil someText
      exact notPair text isReturn (congrArg (· :: text) (List.cons.inj startsFeed).1)
  | case4 c text notPair plain broken line rest split ih =>
      have notFeed := (not_isLineBreak (by simpa using plain)).1
      have feedThen : '\n' ∈ text := (List.mem_cons.1 feed).resolve_left notFeed.symm
      rw [List.cons_append, splitLine, if_neg plain]
      · exact congrArg (· + 1) ((ih feedThen).trans (by rw [split]))
      · intro others isReturn
        simp [isReturn, isLineBreak] at plain

/-- Every part at the end of a text has the last character of the text. -/
theorem getLast?_of_suffix {behind : List Char} {c : Char} (ended : text.getLast? = some c)
    (suffixes : behind <:+ text) (someBehind : behind ≠ []) : behind.getLast? = some c := by
  obtain ⟨before, rfl⟩ := suffixes
  have last := List.getLast?_eq_some_getLast someBehind
  rwa [List.getLast?_append, last, Option.some_or, ← last] at ended

theorem closingDistance?_append {lineStart : Bool} {place : MatterPlace} {distance : Nat}
    (ended : text.getLast? = some '\n')
    (found : closingDistance? lineStart place text = some distance) :
    closingDistance? lineStart place (text ++ tail) = some distance := by
  induction text generalizing lineStart place distance with
  | nil => contradiction
  | cons c text ih =>
      have feed : '\n' ∈ c :: text := List.mem_of_getLast? ended
      have further : ∀ {lineStart : Bool} {place : MatterPlace} {distance : Nat},
          (closingDistance? lineStart place text).map (· + 1) = some distance →
          (closingDistance? lineStart place (text ++ tail)).map (· + 1) = some distance := by
        intro lineStart place distance foundThen
        obtain ⟨shorter, foundShorter, rfl⟩ := Option.map_eq_some_iff.1 foundThen
        have someText : text ≠ [] := by
          rintro rfl
          contradiction
        rw [ih (getLast?_of_suffix ended (List.suffix_cons c text) someText) foundShorter]
        rfl
      rw [List.cons_append, closingDistance?, ← List.cons_append,
        beginsWithDelimiterLine_append feed]
      rw [closingDistance?] at found
      split at found
      · next closes => rw [if_pos closes, found]
      · next opens =>
          rw [if_neg opens]
          split at found
          · next isBreak => rw [if_pos isBreak, further found]
          · next plain => rw [if_neg plain, further found]

theorem scanFrontMatter_append {lexeme : Lexeme} (opens : opensMatter text = true)
    (ended : text.getLast? = some '\n')
    (found : scanFrontMatter true text = .ok (some lexeme)) :
    scanFrontMatter true (text ++ tail) = .ok (some lexeme) := by
  have feed : '\n' ∈ text := List.mem_of_getLast? ended
  obtain ⟨begins, long⟩ : beginsWithDelimiterLine text = true ∧ 3 < text.length := by
    simpa [opensMatter] using opens
  have longer : 3 < (text ++ tail).length := by
    rw [List.length_append]
    omega
  unfold scanFrontMatter at found ⊢
  simp only [Bool.true_and, begins, decide_true, long, if_true] at found
  simp only [Bool.true_and, beginsWithDelimiterLine_append feed, begins, longer, decide_true,
    if_true, lineLength_append feed, List.drop_append_of_le_length (lineLength_le text)]
  have suffixes := List.drop_suffix (lineLength text) text
  generalize text.drop (lineLength text) = inside at found suffixes ⊢
  cases closes : closingDistance? true .start inside with
  | none => simp [closes, Scan.unterminated] at found
  | some distance =>
      have within := closingDistance?_le closes
      have closing := closingDistance?_next closes
      have someInside : inside ≠ [] := by
        rintro rfl
        contradiction
      have someClosing : inside.drop distance ≠ [] := by
        intro nothing
        rw [nothing] at closing
        contradiction
      have insideEnded := getLast?_of_suffix ended suffixes someInside
      have closingEnded := getLast?_of_suffix insideEnded (List.drop_suffix _ _) someClosing
      rw [closes] at found
      rw [closingDistance?_append insideEnded closes]
      dsimp only at found ⊢
      rw [List.take_append_of_le_length within, List.drop_append_of_le_length within,
        lineLength_append (List.mem_of_getLast? closingEnded), found]

end Blocks

section Delimiters

variable {text others : List Char}

theorem opensMatter_iff :
    opensMatter text = true ↔
      ∃ c rest, text = delimiter ++ c :: rest ∧ Text.isLineBreak c = true := by
  simp only [opensMatter, beginsWithDelimiterLine, Text.startsWith, Bool.and_eq_true,
    List.isPrefixOf_iff_prefix, decide_eq_true_eq]
  constructor
  · rintro ⟨⟨⟨rest, rfl⟩, isBreak⟩, long⟩
    cases rest with
    | nil => simp [delimiter] at long
    | cons c rest => exact ⟨c, rest, rfl, by simpa [delimiter] using isBreak⟩
  · rintro ⟨c, rest, rfl, isBreak⟩
    exact ⟨⟨List.prefix_append _ _, by simpa [delimiter] using isBreak⟩, by simp [delimiter]⟩

/-- If two texts open front matter only together, the delimiter is divided between
them. -/
theorem divided_of_opensMatter (noMatter : opensMatter text = false)
    (noDelimiter : beginsWithDelimiterLine others = false)
    (opens : opensMatter (text ++ others) = true) :
    text ≠ [] ∧ (∀ c ∈ text, c = '-') ∧ others ≠ [] ∧ ¬BeginsConstruct others := by
  obtain ⟨c, rest, wholeEq, isBreak⟩ := opensMatter_iff.1 opens
  have notMark : ∀ d, d ∈ delimiter ∨ d = c → d ∉ ['<', '{', '}', '@'] := by
    rintro d (isDash | rfl) isMark
    · obtain rfl : d = '-' := by simpa [delimiter] using isDash
      exact absurd isMark (by decide)
    · simp only [List.mem_cons, List.not_mem_nil, or_false] at isMark
      rcases isMark with rfl | rfl | rfl | rfl <;> contradiction
  have opened : ∀ later : List Char, opensMatter (delimiter ++ c :: later) = true :=
    fun later => opensMatter_iff.2 ⟨c, later, rfl, isBreak⟩
  rcases List.append_eq_append_iff.1 wholeEq with
    ⟨dashes, delimiterEq, rfl⟩ | ⟨behind, rfl, behindEq⟩
  · refine ⟨?_, ?_, by simp, ?_⟩
    · rintro rfl
      obtain rfl : delimiter = dashes := delimiterEq
      have begins := opened rest
      rw [opensMatter, noDelimiter] at begins
      contradiction
    · intro d member
      have isDash : d ∈ delimiter := delimiterEq ▸ List.mem_append_left dashes member
      simpa [delimiter] using isDash
    · rintro ⟨d, later, startsEq, isMark⟩
      refine notMark d ?_ isMark
      cases dashes with
      | nil => exact .inr (List.cons.inj startsEq).1.symm
      | cons dash dashes =>
          obtain rfl : dash = d := (List.cons.inj startsEq).1
          exact .inl (delimiterEq ▸ by simp)
  · cases behind with
    | nil =>
        obtain rfl : c :: rest = others := behindEq
        refine ⟨by simp [delimiter], by simp [delimiter], by simp, ?_⟩
        rintro ⟨d, later, startsEq, isMark⟩
        exact notMark d (.inr (List.cons.inj startsEq).1.symm) isMark
    | cons d behind =>
        obtain rfl : c = d := (List.cons.inj behindEq).1
        rw [opened] at noMatter
        contradiction

end Delimiters

end Lex

end TemplateCompiler
