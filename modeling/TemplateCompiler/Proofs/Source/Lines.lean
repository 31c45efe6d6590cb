import TemplateCompiler.Proofs.Source.Advance
import TemplateCompiler.Source.Lines
import Mathlib.Data.List.Induction

/-!
# Where lines start

A cursor keeps its line and column up to date as it advances; a line table finds
them in the finished text.  The two agree at every place that is not inside the
pair of a carriage return and a line feed.  Up to such a place a text divides into
whole lines and the beginning of one more line, from which both can be read off.
-/

namespace TemplateCompiler

namespace Text

/-- Whether a text divided in two is divided inside a line break. -/
def SplitsPair (before after : List Char) : Prop :=
  before.getLast? = some '\r' ∧ after.head? = some '\n'

/-- Whether a line starts behind some text and before some other. -/
def StartsLine (before after : List Char) : Prop :=
  before = [] ∨ ∃ earlier c, before = earlier ++ [c] ∧ endsLine c after.head? = true

theorem not_splitsPair_of_getLast? {before : List Char} (last : before.getLast? ≠ some '\r')
    (after : List Char) : ¬ SplitsPair before after :=
  fun splits => last splits.1

theorem not_splitsPair_of_head? {after : List Char} (first : after.head? ≠ some '\n')
    (before : List Char) : ¬ SplitsPair before after :=
  fun splits => first splits.2

theorem not_splitsPair_nil (after : List Char) : ¬ SplitsPair [] after :=
  not_splitsPair_of_getLast? (by decide) after

/-- A place that is not inside a line break remains one whatever comes before. -/
theorem not_splitsPair_append {first second third : List Char}
    (whole : ¬ SplitsPair first (second ++ third)) (wholeThen : ¬ SplitsPair second third) :
    ¬ SplitsPair (first ++ second) third := by
  cases second using List.reverseRecOn with
  | nil => rwa [List.append_nil]
  | append_singleton second c =>
      simpa only [SplitsPair, ← List.append_assoc, List.getLast?_concat] using wholeThen

/-- Whether some characters at the head of a text do not end inside a line
break. -/
def EndsWhole (count : Nat) (text : List Char) : Prop :=
  ¬ SplitsPair (text.take count) (text.drop count)

variable {text piece tail : List Char}

theorem endsWhole_zero (text : List Char) : EndsWhole 0 text :=
  not_splitsPair_nil _

theorem endsWhole_of_next {count : Nat} (next : (text.drop count).head? ≠ some '\n') :
    EndsWhole count text :=
  fun splits => next splits.2

theorem endsWhole_of_last {length : Nat} {c : Char} (piece : List Char)
    (textEq : text = piece ++ c :: tail) (lengthEq : length = piece.length + 1)
    (notReturn : c ≠ '\r') : EndsWhole length text := by
  subst textEq lengthEq
  intro splits
  have takeEq : (piece ++ c :: tail).take (piece.length + 1) = piece ++ [c] := by
    rw [List.take_length_add_append]
    rfl
  rw [SplitsPair, takeEq, List.getLast?_concat] at splits
  exact notReturn (Option.some.inj splits.1)

theorem endsWhole_of_notMem (textEq : text = piece ++ tail) (noReturn : '\r' ∉ piece) :
    EndsWhole piece.length text := by
  subst textEq
  intro splits
  rw [SplitsPair, List.take_left] at splits
  exact noReturn (List.mem_of_getLast? splits.1)

theorem EndsWhole.add {first second : Nat} (ends : EndsWhole first text)
    (endsThen : EndsWhole second (text.drop first)) : EndsWhole (first + second) text := by
  rw [EndsWhole, List.take_add, ← List.drop_drop]
  apply not_splitsPair_append
  · rwa [List.take_append_drop]
  · exact endsThen

theorem endsLine_of_not_isLineBreak {c : Char} (plain : isLineBreak c = false)
    (next : Option Char) : endsLine c next = false := by
  obtain ⟨notFeed, notReturn⟩ := not_isLineBreak plain
  simp [endsLine, notFeed, notReturn]

/-- The text before a place that is not inside a line break divides into whole
lines and a part of one line. -/
theorem exists_line {before after : List Char} (whole : ¬ SplitsPair before after) :
    ∃ lines line, before = lines ++ line ∧ (∀ c ∈ line, isLineBreak c = false) ∧
      StartsLine lines (line ++ after) := by
  induction before using List.reverseRecOn generalizing after with
  | nil => exact ⟨[], [], rfl, List.forall_mem_nil _, .inl rfl⟩
  | append_singleton earlier c ih =>
      by_cases isBreak : isLineBreak c = true
      · refine ⟨earlier ++ [c], [], (List.append_nil _).symm, List.forall_mem_nil _,
          .inr ⟨earlier, c, rfl, ?_⟩⟩
        rw [SplitsPair, List.getLast?_append, List.getLast?_singleton] at whole
        rcases Bool.or_eq_true_iff.1 isBreak with feed | carriage
        · simp [endsLine, eq_of_beq feed]
        · obtain rfl := eq_of_beq carriage
          simpa [endsLine] using whole
      · have plain : isLineBreak c = false := Bool.eq_false_iff.2 isBreak
        have wholeThen : ¬ SplitsPair earlier (c :: after) := fun splits =>
          (not_isLineBreak plain).1 (Option.some.inj splits.2)
        obtain ⟨lines, line, rfl, unbroken, starts⟩ := ih wholeThen
        refine ⟨lines, line ++ [c], List.append_assoc _ _ _, ?_, by simpa using starts⟩
        exact List.forall_mem_append.2 ⟨unbroken, by simpa using plain⟩

theorem lineBreaks_append (first second : List Char) (next : Option Char) :
    lineBreaks (first ++ second) next =
      lineBreaks first (second.head?.or next) + lineBreaks second next := by
  induction first with
  | nil => exact (Nat.zero_add _).symm
  | cons c first ih =>
      rw [List.cons_append, lineBreaks, lineBreaks, ih, List.head?_append, Option.or_assoc,
        Nat.add_assoc]

theorem lineBreaks_eq_zero {line : List Char} (unbroken : ∀ c ∈ line, isLineBreak c = false)
    (next : Option Char) : lineBreaks line next = 0 := by
  induction line with
  | nil => rfl
  | cons c line ih =>
      rw [lineBreaks, endsLine_of_not_isLineBreak (unbroken c List.mem_cons_self),
        ih fun other member => unbroken other (List.mem_cons_of_mem c member)]
      rfl

end Text

open Text

variable {lines line after : List Char}

namespace LineTable

theorem lt_of_mem_startsAfter {offset start : Nat} {text : List Char}
    (member : start ∈ startsAfter offset text) : offset < start := by
  induction text generalizing offset with
  | nil => exact absurd member List.not_mem_nil
  | cons c text ih =>
      have positive := c.utf8Size_pos
      simp only [startsAfter] at member
      split at member
      · rcases List.mem_cons.1 member with rfl | later
        · omega
        · have := ih later
          omega
      · have := ih member
        omega

/-- The lines that start in a text up to a place are those that end before it. -/
theorem countP_startsAfter (offset : Nat) (before after : List Char) :
    (startsAfter offset (before ++ after)).countP (· ≤ offset + byteLength before) =
      lineBreaks before after.head? := by
  induction before generalizing offset with
  | nil =>
      rw [List.nil_append, byteLength_nil, Nat.add_zero, lineBreaks, List.countP_eq_zero]
      intro start member
      have := lt_of_mem_startsAfter member
      simpa using this
  | cons c before ih =>
      have headEq : (before ++ after).head? = before.head?.or after.head? := List.head?_append
      have := ih (offset + c.utf8Size)
      rw [Nat.add_assoc, ← byteLength_cons] at this
      simp only [List.cons_append, startsAfter, lineBreaks, headEq]
      split
      · rw [List.countP_cons_of_pos, this, Nat.add_comm]
        simp
      · rw [this, Nat.zero_add]

/-- Behind whole lines a line starts, the last one of those that have started. -/
theorem getElem?_startsAfter {before after : List Char} (nonempty : before ≠ [])
    (starts : StartsLine before after) (offset : Nat) :
    (startsAfter offset (before ++ after))[lineBreaks before after.head? - 1]? =
        some (offset + byteLength before) ∧
      0 < lineBreaks before after.head? := by
  induction before generalizing offset with
  | nil => contradiction
  | cons c before ih =>
      have headEq : (before ++ after).head? = before.head?.or after.head? := List.head?_append
      rcases starts with impossible | ⟨earlier, last, beforeEq, ends⟩
      · contradiction
      · simp only [List.cons_append, startsAfter, lineBreaks, headEq]
        cases earlier with
        | nil =>
            obtain ⟨rfl, rfl⟩ := List.cons.inj beforeEq
            simp [ends, lineBreaks]
        | cons _ earlier =>
            obtain ⟨rfl, rfl⟩ := List.cons.inj beforeEq
            obtain ⟨found, positive⟩ := ih (by simp) (.inr ⟨earlier, last, rfl, ends⟩)
              (offset + c.utf8Size)
            obtain ⟨count, countEq⟩ := Nat.exists_eq_add_of_lt positive
            rw [countEq] at found ⊢
            split
            · refine ⟨?_, by omega⟩
              rw [show 1 + (0 + count + 1) - 1 = (0 + count + 1 - 1) + 1 by omega,
                List.getElem?_cons_succ, found, byteLength_cons, Nat.add_assoc]
            · refine ⟨?_, by omega⟩
              rw [Nat.zero_add, found, byteLength_cons, Nat.add_assoc]

/-- The line and column of a place behind whole lines and a part of a line. -/
theorem lineAndColumn_eq (unbroken : ∀ c ∈ line, isLineBreak c = false)
    (starts : StartsLine lines (line ++ after)) :
    (ofText (lines ++ (line ++ after))).lineAndColumn (lines ++ (line ++ after))
        (byteLength (lines ++ line)) =
      (1 + lineBreaks lines (line ++ after).head?, line.length + 1) := by
  have breaksEq : lineBreaks (lines ++ line) after.head? =
      lineBreaks lines (line ++ after).head? := by
    rw [lineBreaks_append, lineBreaks_eq_zero unbroken, List.head?_append, Nat.add_zero]
  have lineEq : (ofText (lines ++ (line ++ after))).lineOf (byteLength (lines ++ line)) =
      1 + lineBreaks lines (line ++ after).head? := by
    have counted := countP_startsAfter 0 (lines ++ line) after
    rw [Nat.zero_add, breaksEq, List.append_assoc] at counted
    rw [lineOf, ofText, List.countP_cons_of_pos (by simp), counted]
    omega
  have startEq : ((ofText (lines ++ (line ++ after))).start?
      (1 + lineBreaks lines (line ++ after).head?)).getD 0 = byteLength lines := by
    rw [start?, if_neg (by omega), ofText, Nat.add_sub_cancel_left]
    cases lines with
    | nil => rfl
    | cons c lines =>
        obtain ⟨found, positive⟩ := getElem?_startsAfter (List.cons_ne_nil c lines) starts 0
        obtain ⟨count, countEq⟩ := Nat.exists_eq_add_of_lt positive
        rw [countEq] at found ⊢
        rw [List.getElem?_cons_succ]
        simpa using congrArg (·.getD 0) found
  have stopEq : min (byteLength (lines ++ line)) (byteLength (lines ++ (line ++ after))) =
      byteLength lines + byteLength line := by
    simp only [byteLength_append]
    omega
  simp only [lineAndColumn, lineEq, startEq, stopEq, slice_byteLength]

end LineTable

namespace Cursor

theorem advanceBy_take (count : Nat) (cursor : Cursor) :
    advanceBy (cursor.rest.take count).length cursor = advanceBy count cursor := by
  induction count generalizing cursor with
  | zero => rfl
  | succ count ih =>
      cases restEq : cursor.rest with
      | nil => rw [advanceBy_of_rest_nil restEq, advanceBy_of_rest_nil restEq]
      | cons c rest =>
          rw [List.take_succ_cons, List.length_cons, advanceBy_succ_cons restEq,
            advanceBy_succ_cons restEq, ← ih]

theorem step_line (mark : Mark) (c : Char) (next : Option Char) :
    (mark.step c next).line = mark.line + if endsLine c next then 1 else 0 := by
  rw [Mark.step]
  split
  · rfl
  · split <;> rfl

theorem advanceBy_line {cursor : Cursor} {piece tail : List Char}
    (restEq : cursor.rest = piece ++ tail) :
    (advanceBy piece.length cursor).mark.line =
      cursor.mark.line + lineBreaks piece tail.head? := by
  induction piece generalizing cursor with
  | nil => rfl
  | cons c piece ih =>
      rw [List.length_cons, advanceBy_succ_cons (List.cons_append ▸ restEq), ih rfl, step_line,
        lineBreaks, List.head?_append]
      exact Nat.add_assoc _ _ _

/-- Where a line starts the column is one. -/
theorem advanceBy_column {before after : List Char} (starts : StartsLine before after) :
    (advanceBy before.length (ofText (before ++ after))).mark.column = 1 := by
  rcases starts with rfl | ⟨earlier, c, rfl, ends⟩
  · rfl
  · have restEq : (advanceBy earlier.length (ofText (earlier ++ [c] ++ after))).rest =
        c :: after := by
      rw [advanceBy_rest, List.append_assoc]
      exact List.drop_left
    rw [List.length_append, advanceBy_add, List.length_singleton, advanceBy_succ_cons restEq,
      advanceBy_zero, Mark.step, if_pos ends]

/-- The line and column of a cursor behind whole lines and a part of a line. -/
theorem advanceBy_lineAndColumn (unbroken : ∀ c ∈ line, isLineBreak c = false)
    (starts : StartsLine lines (line ++ after)) :
    let mark := (advanceBy (lines ++ line).length (ofText (lines ++ (line ++ after)))).mark
    (mark.line, mark.column) =
      (1 + lineBreaks lines (line ++ after).head?, line.length + 1) := by
  have restEq : (advanceBy lines.length (ofText (lines ++ (line ++ after)))).rest =
      line ++ after := by
    rw [advanceBy_rest]
    exact List.drop_left
  have lineEq : (advanceBy lines.length (ofText (lines ++ (line ++ after)))).mark.line =
      1 + lineBreaks lines (line ++ after).head? := advanceBy_line rfl
  have columnEq := advanceBy_column starts
  rw [List.length_append, advanceBy_add, advanceBy_mark restEq unbroken]
  simp only [lineEq, columnEq, Prod.mk.injEq, true_and]
  exact Nat.add_comm _ _

end Cursor

/-- A place is true to a text when it is between two characters, not inside a line
break, and has the line and the column that the table of the text gives it. -/
structure Position.IsTrue (text : List Char) (position : Position) : Prop where
  divides : ∃ before after, text = before ++ after ∧ position.offset = byteLength before ∧
    ¬ SplitsPair before after
  lineAndColumn : (position.line, position.column) =
    (LineTable.ofText text).lineAndColumn text position.offset

theorem Position.IsTrue.offset_le {text : List Char} {position : Position}
    (isTrue : position.IsTrue text) : position.offset ≤ byteLength text := by
  obtain ⟨before, after, rfl, offsetEq, -⟩ := isTrue.divides
  rw [offsetEq, byteLength_append]
  exact Nat.le_add_right _ _

theorem Position.IsTrue.withLength {text : List Char} {position : Position}
    (isTrue : position.IsTrue text) (length : Nat) : (position.withLength length).IsTrue text :=
  ⟨isTrue.divides, isTrue.lineAndColumn⟩

namespace Cursor

/-- A cursor has come to a place of a text that is not inside a line break. -/
structure Located (text : List Char) (cursor : Cursor) : Prop where
  reached : ∃ read, text = read ++ cursor.rest ∧ cursor = advanceBy read.length (ofText text) ∧
    ¬ SplitsPair read cursor.rest

theorem located_ofText (text : List Char) : (ofText text).Located text :=
  ⟨[], rfl, rfl, not_splitsPair_nil text⟩

theorem Located.advanceBy {text : List Char} {cursor : Cursor} {count : Nat}
    (located : cursor.Located text) (ends : EndsWhole count cursor.rest) :
    (advanceBy count cursor).Located text := by
  obtain ⟨read, textEq, cursorEq, whole⟩ := located.reached
  refine ⟨read ++ cursor.rest.take count, ?_, ?_, ?_⟩
  · rw [advanceBy_rest, List.append_assoc, List.take_append_drop]
    exact textEq
  · rw [List.length_append, advanceBy_add, ← cursorEq, advanceBy_take]
  · rw [advanceBy_rest]
    apply not_splitsPair_append
    · rwa [List.take_append_drop]
    · exact ends

/-- The mark of such a cursor agrees with the line table. -/
theorem Located.isTrue {text : List Char} {cursor : Cursor} (located : cursor.Located text) :
    cursor.mark.position.IsTrue text := by
  obtain ⟨read, textEq, cursorEq, whole⟩ := located.reached
  have offsetEq : cursor.mark.offset = byteLength read := by
    rw [cursorEq, advanceBy_offset, ofText, textEq, List.take_left]
    exact Nat.zero_add _
  refine ⟨⟨read, cursor.rest, textEq, offsetEq, whole⟩, ?_⟩
  obtain ⟨lines, line, rfl, unbroken, starts⟩ := exists_line whole
  rw [List.append_assoc] at textEq
  have markEq := advanceBy_lineAndColumn unbroken starts
  rw [← textEq, ← cursorEq] at markEq
  have tableEq := LineTable.lineAndColumn_eq unbroken starts
  rw [← textEq, ← offsetEq] at tableEq
  exact markEq.trans tableEq.symm

end Cursor

theorem Position.isTrue_start (text : List Char) : Position.start.IsTrue text :=
  (Cursor.located_ofText text).isTrue

end TemplateCompiler
