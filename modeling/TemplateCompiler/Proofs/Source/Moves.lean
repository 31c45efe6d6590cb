import TemplateCompiler.Proofs.Lex.Fitting
import TemplateCompiler.Proofs.Source.Lines
import Mathlib.Logic.Function.Iterate

/-!
# Moves of a cursor

A cursor steps from character to character, or it moves over a stretch that was
found by searching and counts the line breaks in it afterwards.  Whatever moves
a cursor makes, it comes to the place that it would have reached by steps alone.

The induction is on a stretch from its end: the last character decides whether
the columns counted so far still count, and whether a carriage return before it
was half of a line break.
-/

namespace TemplateCompiler

namespace Text

instance (before after : List Char) : Decidable (SplitsPair before after) :=
  inferInstanceAs (Decidable (_ ∧ _))

/-- The characters behind the last line that ends in a text, when some line was
begun before it. -/
def lastLineFrom (line : List Char) : List Char → Option Char → List Char
  | [], _ => line
  | c :: text, next =>
      if endsLine c (text.head?.or next) then lastLineFrom [] text next
      else lastLineFrom (line ++ [c]) text next

/-- The characters behind the last line that ends in a text. -/
def lastLine (text : List Char) (next : Option Char) : List Char :=
  lastLineFrom [] text next

/-- The number of characters at the end of a text that take no part in a line
break. -/
def plainTail (text : List Char) : Nat :=
  (text.reverse.takeWhile fun c => !isLineBreak c).length

theorem plainTail_concat (text : List Char) (c : Char) :
    plainTail (text ++ [c]) = if isLineBreak c then 0 else plainTail text + 1 := by
  rw [plainTail, List.reverse_append, List.reverse_singleton, List.singleton_append,
    List.takeWhile_cons]
  cases isLineBreak c <;> rfl

/-- A carriage return takes no column when its line feed comes next. -/
theorem tailWidth_concat_eq (text : List Char) (c : Char) (next : Option Char) :
    tailWidth (text ++ [c]) next =
      if c = '\r' ∧ next = some '\n' then plainTail text else plainTail (text ++ [c]) := by
  unfold tailWidth plainTail
  rw [List.reverse_append, List.reverse_singleton, List.singleton_append]
  by_cases isReturn : c = '\r'
  · by_cases feed : next = some '\n' <;> simp [isReturn, feed]
  · simp only [isReturn, false_and, if_false]
    split
    · next backwards earlier same => exact absurd (List.cons.inj same).1 isReturn
    · rfl

/-- Only a line feed that comes next changes the width of a tail. -/
theorem tailWidth_of_ne {next : Option Char} (noFeed : next ≠ some '\n') (text : List Char) :
    tailWidth text next = plainTail text := by
  cases text using List.reverseRecOn with
  | nil => rfl
  | append_singleton text c => rw [tailWidth_concat_eq, if_neg fun both => noFeed both.2]

theorem endsLine_of_ne {c : Char} (notReturn : c ≠ '\r') (next : Option Char) :
    endsLine c next = isLineBreak c := by
  have other : (c == '\r') = false := beq_false_of_ne notReturn
  rw [endsLine, isLineBreak, other, Bool.false_and]

/-- The width of a tail by its last character. -/
theorem tailWidth_concat (text : List Char) (c : Char) (next : Option Char) :
    tailWidth (text ++ [c]) next =
      if endsLine c next then 0
      else if c = '\r' then tailWidth text (some c)
      else tailWidth text (some c) + 1 := by
  rw [tailWidth_concat_eq, plainTail_concat]
  by_cases isReturn : c = '\r'
  · subst isReturn
    have before : tailWidth text (some '\r') = plainTail text := tailWidth_of_ne (by decide) text
    by_cases feed : next = some '\n' <;> simp [feed, endsLine, isLineBreak, before]
  · rw [endsLine_of_ne isReturn, if_neg fun both => isReturn both.1, if_neg isReturn]
    by_cases isBreak : isLineBreak c = true
    · rw [if_pos isBreak, if_pos isBreak]
    · have notFeed : some c ≠ some '\n' := by
        intro same
        exact isBreak (by rw [Option.some.inj same]; rfl)
      rw [if_neg isBreak, if_neg isBreak, tailWidth_of_ne notFeed]

theorem lastLineFrom_concat (line text : List Char) (c : Char) (next : Option Char) :
    lastLineFrom line (text ++ [c]) next =
      if endsLine c next then [] else lastLineFrom line text (some c) ++ [c] := by
  induction text generalizing line with
  | nil => rfl
  | cons d text ih =>
      have nextEq : (text ++ [c]).head?.or next = text.head?.or (some c) := by
        cases text <;> rfl
      rw [List.cons_append, lastLineFrom, lastLineFrom, nextEq]
      by_cases ends : endsLine d (text.head?.or (some c)) = true
      · rw [if_pos ends, if_pos ends, ih]
      · rw [if_neg ends, if_neg ends, ih]

/-- The last line of a text is as long as its tail is wide, but for a carriage
return at its end that is the first half of a line break. -/
theorem length_lastLine (text rest : List Char) :
    (lastLine text rest.head?).length =
      tailWidth text rest.head? + if SplitsPair text rest then 1 else 0 := by
  have lengthEq : ∀ next, (lastLine text next).length =
      tailWidth text next + if text.getLast? = some '\r' ∧ next = some '\n' then 1 else 0 := by
    induction text using List.reverseRecOn with
    | nil => intro next; rfl
    | append_singleton earlier c ih =>
        intro next
        rw [tailWidth_concat, lastLine, lastLineFrom_concat, List.getLast?_concat]
        by_cases ends : endsLine c next = true
        · have notSplit : ¬ (some c = some '\r' ∧ next = some '\n') := by
            rintro ⟨isReturn, feed⟩
            simp [Option.some.inj isReturn, feed, endsLine] at ends
          rw [if_pos ends, if_pos ends, if_neg notSplit]
          rfl
        · have notFeed : ¬ (earlier.getLast? = some '\r' ∧ some c = some '\n') := by
            rintro ⟨-, feed⟩
            simp [Option.some.inj feed, endsLine] at ends
          have before := ih (some c)
          rw [if_neg notFeed, lastLine] at before
          rw [if_neg ends, if_neg ends, List.length_append, before, List.length_singleton]
          by_cases isReturn : c = '\r'
          · have feed : next = some '\n' := by
              simpa [endsLine, isReturn] using ends
            rw [if_pos isReturn, if_pos ⟨congrArg some isReturn, feed⟩]
          · have notSplit : ¬ (some c = some '\r' ∧ next = some '\n') := fun split =>
              isReturn (Option.some.inj split.1)
            rw [if_neg isReturn, if_neg notSplit]
  exact lengthEq rest.head?

variable {pattern text before after : List Char}

/-- A text is divided where a pattern occurs first. -/
theorem first_of_splitAtFirst? (split : splitAtFirst? pattern text = some (before, after))
    (place : Nat) (earlier : place < before.length) : ¬ pattern <+: text.drop place := by
  induction text generalizing before place with
  | nil =>
      simp only [splitAtFirst?, Option.ite_none_right_eq_some, Option.some.injEq,
        Prod.mk.injEq] at split
      obtain ⟨-, rfl, -⟩ := split
      contradiction
  | cons c text ih =>
      rw [splitAtFirst?] at split
      split at split
      · obtain ⟨rfl, -⟩ := Prod.mk.inj (Option.some.inj split)
        contradiction
      · next notHere =>
          obtain ⟨⟨first, second⟩, found, pairEq⟩ := Option.map_eq_some_iff.1 split
          obtain ⟨rfl, rfl⟩ := Prod.mk.inj pairEq
          cases place with
          | zero => exact fun ahead => notHere (List.isPrefixOf_iff_prefix.2 ahead)
          | succ place => exact ih found place (Nat.lt_of_succ_lt_succ earlier)

/-- A text that is not divided does not contain the pattern. -/
theorem none_of_splitAtFirst? (split : splitAtFirst? pattern text = none) (place : Nat) :
    ¬ pattern <+: text.drop place := by
  induction text generalizing place with
  | nil =>
      rw [splitAtFirst?] at split
      split at split
      · contradiction
      · next someCharacter =>
          rw [List.drop_nil, List.prefix_nil]
          exact fun empty => someCharacter (by rw [empty]; rfl)
  | cons c text ih =>
      rw [splitAtFirst?] at split
      split at split
      · contradiction
      · next notHere =>
          cases place with
          | zero => exact fun ahead => notHere (List.isPrefixOf_iff_prefix.2 ahead)
          | succ place => exact ih (Option.map_eq_none_iff.1 split) place

theorem fromByte_byteLength (text : List Char) : fromByte (byteLength text) text = [] := by
  induction text with
  | nil => rfl
  | cons c text ih =>
      have positive := c.utf8Size_pos
      obtain ⟨count, countEq⟩ : ∃ count, c.utf8Size + byteLength text = count + 1 :=
        ⟨c.utf8Size + byteLength text - 1, by omega⟩
      have remaining : count + 1 - c.utf8Size = byteLength text := by omega
      rw [byteLength_cons, countEq, fromByte, remaining, ih]

end Text

open Text

namespace Cursor

variable {text stretch rest : List Char} {cursor : Cursor}

theorem advanceBy_eq_iterate (count : Nat) (cursor : Cursor) :
    advanceBy count cursor = advance^[count] cursor := by
  induction count generalizing cursor with
  | zero => rfl
  | succ count ih =>
      rw [Function.iterate_succ_apply, ← ih]
      cases restEq : cursor.rest with
      | nil =>
          have stays : cursor.advance = cursor := by rw [advance, restEq]
          rw [stays, advanceBy_of_rest_nil restEq, advanceBy_of_rest_nil restEq]
      | cons c rest =>
          rw [advanceBy_succ_cons restEq]
          simp only [advance, restEq]

theorem step_column (mark : Mark) (c : Char) (next : Option Char) :
    (mark.step c next).column =
      if endsLine c next then 1 else if c = '\r' then mark.column else mark.column + 1 := by
  rw [Mark.step]
  split
  · rfl
  · split <;> rfl

/-- The column of a cursor after some steps, counted from the end of what it
stepped over. -/
theorem advanceBy_column_eq (restEq : cursor.rest = stretch ++ rest) :
    (advanceBy stretch.length cursor).mark.column =
      (if lineBreaks stretch rest.head? = 0 then cursor.mark.column else 1) +
        tailWidth stretch rest.head? := by
  induction stretch using List.reverseRecOn generalizing rest with
  | nil => rfl
  | append_singleton earlier c ih =>
      have splits : cursor.rest = earlier ++ c :: rest := by
        rw [restEq, List.append_assoc]
        rfl
      have before := ih splits
      have ahead : (advanceBy earlier.length cursor).rest = c :: rest := by
        rw [advanceBy_rest, restEq, List.append_assoc, List.drop_left]
        rfl
      have lastBreak : lineBreaks [c] rest.head? = if endsLine c rest.head? then 1 else 0 := by
        rw [lineBreaks, List.head?_nil, Option.none_or]
        rfl
      rw [List.length_append, advanceBy_add, List.length_singleton, advanceBy_succ_cons ahead,
        advanceBy_zero]
      dsimp only
      rw [step_column, before, tailWidth_concat, lineBreaks_append, lastBreak, List.head?_cons,
        List.head?_cons, Option.some_or]
      by_cases ends : endsLine c rest.head? = true
      · simp [ends]
      · simp only [ends, Bool.false_eq_true, if_false, Nat.add_zero]
        by_cases isReturn : c = '\r'
        · rw [if_pos isReturn, if_pos isReturn]
        · rw [if_neg isReturn, if_neg isReturn, Nat.add_assoc]

/-- A move over a stretch comes to where steps over it come to. -/
theorem advanceBy_eq_jump (restEq : cursor.rest = stretch ++ rest) :
    advanceBy stretch.length cursor =
      { cursor with rest := rest, mark := cursor.mark.jump stretch rest.head? } := by
  have sourceEq : (advanceBy stretch.length cursor).source = cursor.source :=
    advanceBy_source _ _
  have restThen : (advanceBy stretch.length cursor).rest = rest := by
    rw [advanceBy_rest, restEq, List.drop_left]
  have offsetEq : (advanceBy stretch.length cursor).mark.offset =
      cursor.mark.offset + byteLength stretch := by
    rw [advanceBy_offset, restEq, List.take_left]
  have lineEq := advanceBy_line restEq
  have columnEq := advanceBy_column_eq restEq
  generalize advanceBy stretch.length cursor = moved at *
  obtain ⟨source, _, offset, line, column⟩ := moved
  simp_all [Mark.jump]

/-- A cursor has come to a place of a text by steps from its start. -/
def Stepped (text : List Char) (cursor : Cursor) : Prop :=
  ∃ before, text = before ++ cursor.rest ∧ cursor = advanceBy before.length (ofText text)

theorem stepped_ofText (text : List Char) : Stepped text (ofText text) :=
  ⟨[], rfl, rfl⟩

theorem Stepped.advanceBy (stepped : Stepped text cursor) (count : Nat) :
    Stepped text (advanceBy count cursor) := by
  obtain ⟨before, textEq, cursorEq⟩ := stepped
  refine ⟨before ++ cursor.rest.take count, ?_, ?_⟩
  · rw [advanceBy_rest, List.append_assoc, List.take_append_drop]
    exact textEq
  · rw [List.length_append, advanceBy_add, ← cursorEq, advanceBy_take]

theorem Stepped.offset_eq (stepped : Stepped text cursor) :
    ∃ before, text = before ++ cursor.rest ∧ cursor.mark.offset = byteLength before ∧
      cursor = Cursor.advance^[before.length] (ofText text) := by
  obtain ⟨before, textEq, cursorEq⟩ := stepped
  refine ⟨before, textEq, ?_, by rw [← advanceBy_eq_iterate]; exact cursorEq⟩
  rw [cursorEq, advanceBy_offset, ofText, textEq, List.take_left]
  exact Nat.zero_add _

theorem Stepped.within (stepped : Stepped text cursor) : cursor.Within text := by
  obtain ⟨before, -, cursorEq⟩ := stepped
  rw [cursorEq]
  exact (within_ofText text).advanceBy _

/-- At the end of a text there is no further move to the end. -/
theorem Stepped.toEnd_of_rest_nil (stepped : Stepped text cursor) (ended : cursor.rest = []) :
    cursor.toEnd = cursor := by
  obtain ⟨before, textEq, offsetEq, -⟩ := stepped.offset_eq
  have sourceEq := stepped.within.sourceEq
  rw [ended, List.append_nil] at textEq
  subst textEq
  obtain ⟨source, rest, offset, line, column⟩ := cursor
  simp only at sourceEq ended offsetEq
  subst sourceEq ended offsetEq
  simp [toEnd, fromByte_byteLength, Mark.jump, lineBreaks]

theorem Stepped.toEnd_eq (stepped : Stepped text cursor) :
    cursor.toEnd = Cursor.advanceBy cursor.rest.length cursor := by
  cases restEq : cursor.rest with
  | nil =>
      rw [stepped.toEnd_of_rest_nil restEq]
      rfl
  | cons c rest =>
      have splits : cursor.rest = (c :: rest) ++ [] := by rw [restEq, List.append_nil]
      rw [advanceBy_eq_jump splits]
      simp only [toEnd, restEq]
      rfl

/-- What a cursor can be told to do. -/
inductive Move where
  | advance
  | advanceBy (count : Nat)
  | eat (expected : Char)
  | eatPattern (pattern : List Char)
  | eatWhile (member : Char → Bool)
  | eatUntil (pattern : List Char)
  | eatLine
  | reset (mark : Mark)

namespace Move

/-- The cursor after a move, which stays where it is when it has nothing to
eat. -/
def apply (cursor : Cursor) : Move → Cursor
  | .advance => cursor.advance
  | .advanceBy count => Cursor.advanceBy count cursor
  | .eat expected => (cursor.eat? expected).getD cursor
  | .eatPattern pattern => (cursor.eatPattern? pattern).getD cursor
  | .eatWhile member => cursor.eatWhile member
  | .eatUntil pattern => (cursor.eatUntil pattern).2
  | .eatLine => cursor.eatLine.2
  | .reset mark => cursor.reset mark

/-- A cursor can be reset to the marks that it has had. -/
def Valid (marks : List Mark) : Move → Prop
  | .reset mark => mark ∈ marks
  | _ => True

end Move

/-- The cursors that moves lead to from the start of a text, each with all marks
on the way to it. -/
inductive Travels (text : List Char) : List Mark → Cursor → Prop
  | start : Travels text [.start] (ofText text)
  | move {marks : List Mark} {cursor : Cursor} (move : Move) (travels : Travels text marks cursor)
      (valid : move.Valid marks) :
      Travels text ((move.apply cursor).mark :: marks) (move.apply cursor)

theorem advance_eq_advanceBy (cursor : Cursor) : cursor.advance = advanceBy 1 cursor := by
  rw [advanceBy_eq_iterate]
  rfl

section Bulk

variable {pattern : List Char}

theorem eatPattern?_eq (starts : cursor.startsWith pattern = true) :
    cursor.eatPattern? pattern = some (advanceBy pattern.length cursor) := by
  obtain ⟨tail, restEq⟩ := Lex.startsWith_iff.1 starts
  rw [advanceBy_eq_jump restEq, eatPattern?, if_pos starts, restEq, List.drop_left]
  rfl

theorem eatUntil_of_some {before after : List Char}
    (split : splitAtFirst? pattern cursor.rest = some (before, after)) :
    cursor.eatUntil pattern = (true, advanceBy before.length cursor) := by
  rw [advanceBy_eq_jump (append_of_splitAtFirst? split).symm, eatUntil, split]
  rfl

theorem Stepped.eatUntil_of_none (stepped : Stepped text cursor)
    (split : splitAtFirst? pattern cursor.rest = none) :
    cursor.eatUntil pattern = (false, Cursor.advanceBy cursor.rest.length cursor) := by
  rw [eatUntil, split, stepped.toEnd_eq]

theorem Stepped.eatLine_eq (stepped : Stepped text cursor) :
    ∃ count, cursor.eatLine.2 = Cursor.advanceBy count cursor := by
  rcases splitEq : splitLine cursor.rest with ⟨broken, line, rest⟩
  have restEq := Lex.splitLine_append cursor.rest
  rw [splitEq] at restEq
  cases broken with
  | true =>
      refine ⟨line.length, ?_⟩
      rw [advanceBy_eq_jump restEq.symm, eatLine, splitEq]
      rfl
  | false =>
      refine ⟨cursor.rest.length, ?_⟩
      rw [← stepped.toEnd_eq, eatLine, splitEq]

end Bulk

/-- Every move but a reset comes down to some steps. -/
theorem Stepped.apply {marks : List Mark} (stepped : Stepped text cursor) {move : Move}
    (valid : move.Valid marks)
    (known : ∀ mark ∈ marks, ∃ earlier, Stepped text earlier ∧ mark = earlier.mark) :
    Stepped text (move.apply cursor) := by
  cases move with
  | advance =>
      rw [Move.apply, advance_eq_advanceBy]
      exact stepped.advanceBy 1
  | advanceBy count => exact stepped.advanceBy count
  | eat expected =>
      rw [Move.apply, eat?]
      split
      · rw [advance_eq_advanceBy]
        exact stepped.advanceBy 1
      · exact stepped
  | eatPattern pattern =>
      rw [Move.apply]
      cases starts : cursor.startsWith pattern with
      | true =>
          rw [eatPattern?_eq starts]
          exact stepped.advanceBy _
      | false =>
          rw [eatPattern?, starts]
          exact stepped
  | eatWhile member => exact stepped.advanceBy _
  | eatUntil pattern =>
      rw [Move.apply]
      cases split : splitAtFirst? pattern cursor.rest with
      | some parts =>
          rw [eatUntil_of_some split]
          exact stepped.advanceBy _
      | none =>
          rw [stepped.eatUntil_of_none split]
          exact stepped.advanceBy _
  | eatLine =>
      obtain ⟨count, movedEq⟩ := stepped.eatLine_eq
      rw [Move.apply, movedEq]
      exact stepped.advanceBy count
  | reset mark =>
      obtain ⟨earlier, steppedEarlier, rfl⟩ := known mark valid
      rw [Move.apply, reset, stepped.within.sourceEq, steppedEarlier.within.ofMark_eq]
      exact steppedEarlier

theorem Travels.stepped {marks : List Mark} (travels : Travels text marks cursor) :
    Stepped text cursor ∧
      ∀ mark ∈ marks, ∃ earlier, Stepped text earlier ∧ mark = earlier.mark := by
  induction travels with
  | start =>
      refine ⟨stepped_ofText text, fun mark member => ?_⟩
      exact ⟨ofText text, stepped_ofText text, List.mem_singleton.1 member⟩
  | move move travels valid ih =>
      obtain ⟨stepped, known⟩ := ih
      have moved := stepped.apply valid known
      exact ⟨moved, List.forall_mem_cons.2 ⟨⟨_, moved, rfl⟩, known⟩⟩

theorem Stepped.eatUntil_first (stepped : Stepped text cursor) (pattern : List Char) :
    ∃ passed, cursor.rest = passed ++ (cursor.eatUntil pattern).2.rest ∧
      (∀ place < passed.length, ¬ pattern <+: cursor.rest.drop place) ∧
      if (cursor.eatUntil pattern).1 then pattern <+: (cursor.eatUntil pattern).2.rest
      else (cursor.eatUntil pattern).2.rest = [] := by
  cases split : splitAtFirst? pattern cursor.rest with
  | some parts =>
      obtain ⟨before, after⟩ := parts
      have restEq := append_of_splitAtFirst? split
      have stopEq : (Cursor.advanceBy before.length cursor).rest = after := by
        rw [advanceBy_rest, ← restEq, List.drop_left]
      obtain ⟨tail, foundEq⟩ := Lex.splitAtFirst?_append split
      have afterEq : after = pattern ++ tail := by
        rw [← restEq] at foundEq
        exact List.append_cancel_left foundEq
      rw [eatUntil_of_some split, stopEq]
      refine ⟨before, restEq.symm, fun place earlier => ?_, ?_⟩
      · exact first_of_splitAtFirst? split place earlier
      · rw [if_pos rfl, afterEq]
        exact List.prefix_append _ _
  | none =>
      rw [stepped.eatUntil_of_none split]
      refine ⟨cursor.rest, ?_, fun place _ => none_of_splitAtFirst? split place, ?_⟩
      · rw [advanceBy_rest, List.drop_length, List.append_nil]
      · rw [if_neg Bool.false_ne_true, advanceBy_rest, List.drop_length]

/-- Whatever moves a cursor makes over a text, it stands between two characters,
where as many steps from the start bring it as there are characters before.  The
columns that a move over a stretch counts are those of its last line, less one
for a carriage return whose line feed comes next, and then there is one to take
off.  A search passes over no occurrence of its pattern, and stops at one or at
the end. -/
theorem Travels.comes_by_steps {marks : List Mark} (travels : Travels text marks cursor) :
    (∃ before, text = before ++ cursor.rest ∧ cursor.mark.offset = byteLength before ∧
      cursor = Cursor.advance^[before.length] (ofText text)) ∧
    (∀ stretch rest, cursor.rest = stretch ++ rest →
      (SplitsPair stretch rest → 1 ≤ (lastLine stretch rest.head?).length) ∧
      tailWidth stretch rest.head? =
        (lastLine stretch rest.head?).length - if SplitsPair stretch rest then 1 else 0) ∧
    ∀ pattern, ∃ passed, cursor.rest = passed ++ (cursor.eatUntil pattern).2.rest ∧
      (∀ place < passed.length, ¬ pattern <+: cursor.rest.drop place) ∧
      if (cursor.eatUntil pattern).1 then pattern <+: (cursor.eatUntil pattern).2.rest
      else (cursor.eatUntil pattern).2.rest = [] := by
  obtain ⟨stepped, -⟩ := travels.stepped
  refine ⟨stepped.offset_eq, fun stretch rest _ => ?_, stepped.eatUntil_first⟩
  have lengthEq := length_lastLine stretch rest
  constructor
  · intro splits
    rw [if_pos splits] at lengthEq
    omega
  · omega

/-- A text with a line break of two characters. -/
def pairedBreak : List Char :=
  "a\r\né-->".toList

/-- A cursor that stopped inside the line break, went on, and came back. -/
theorem Travels.comes_by_steps_pairedBreak :
    ∃ marks cursor, Travels pairedBreak marks cursor ∧ cursor.mark = ⟨2, 1, 2⟩ ∧
      (cursor.eatUntil ['>']).2.mark = ⟨7, 2, 4⟩ ∧
      ∃ before, pairedBreak = before ++ cursor.rest ∧
        cursor.mark.offset = byteLength before ∧
        cursor = Cursor.advance^[before.length] (ofText pairedBreak) := by
  have fresh : Travels pairedBreak [.start] (ofText pairedBreak) := .start
  have inside := fresh.move (.eatUntil ['\n']) trivial
  have later := inside.move (.eatUntil ['-']) trivial
  have back := later.move (.reset ⟨2, 1, 2⟩) (by change _ ∈ _; decide +kernel)
  exact ⟨_, _, back, by decide +kernel, by decide +kernel, back.comes_by_steps.1⟩

end Cursor

end TemplateCompiler
