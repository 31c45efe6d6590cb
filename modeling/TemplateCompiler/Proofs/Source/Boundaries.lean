import TemplateCompiler.Source.Lines
import Mathlib.Tactic.Common

/-!
# Boundaries of characters

A byte offset is a boundary of a text when it falls between two characters or at an end.
Cutting a text at byte offsets succeeds where they are boundaries and gives the piece that
stands between them.  A character is known by the offset it begins at.
-/

namespace TemplateCompiler

open Text

namespace Text

/-- Whether an offset lies between two characters of a text, or at one of its ends. -/
def IsBoundary (text : List Char) (offset : Nat) : Prop :=
  ∃ before after, text = before ++ after ∧ offset = byteLength before

variable {text : List Char} {offset : Nat}

theorem IsBoundary.le (boundary : IsBoundary text offset) : offset ≤ byteLength text := by
  obtain ⟨before, after, rfl, rfl⟩ := boundary
  rw [byteLength_append]
  exact Nat.le_add_right _ _

theorem IsBoundary.max {other : Nat} (first : IsBoundary text offset)
    (second : IsBoundary text other) : IsBoundary text (max offset other) := by
  rcases Nat.le_total offset other with le | le
  · rwa [Nat.max_eq_right le]
  · rwa [Nat.max_eq_left le]

/-- No boundary lies inside of a character. -/
theorem not_isBoundary_inside {before after : List Char} {c : Char} {bytes : Nat}
    (positive : 0 < bytes) (inside : bytes < c.utf8Size) :
    ¬ IsBoundary (before ++ c :: after) (byteLength before + bytes) := by
  rintro ⟨left, right, textEq, offsetEq⟩
  rcases List.append_eq_append_iff.1 textEq with ⟨piece, rfl, restEq⟩ | ⟨piece, rfl, -⟩
  · rw [byteLength_append] at offsetEq
    cases piece with
    | nil =>
        rw [byteLength_nil] at offsetEq
        omega
    | cons d piece =>
        obtain ⟨rfl, -⟩ := List.cons.inj restEq
        rw [byteLength_cons] at offsetEq
        omega
  · rw [byteLength_append] at offsetEq
    omega

/-- What is dropped from the head of a text and what remains make up the text. -/
theorem exists_of_dropBytes? {count : Nat} {rest : List Char}
    (dropped : dropBytes? count text = some rest) :
    ∃ before, text = before ++ rest ∧ count = byteLength before := by
  induction text generalizing count with
  | nil =>
      cases count with
      | zero =>
          obtain rfl : [] = rest := Option.some.inj dropped
          exact ⟨[], rfl, rfl⟩
      | succ count => simp [dropBytes?] at dropped
  | cons c text ih =>
      cases count with
      | zero =>
          obtain rfl : c :: text = rest := Option.some.inj dropped
          exact ⟨[], rfl, rfl⟩
      | succ count =>
          rw [dropBytes?] at dropped
          split at dropped
          · next within =>
              obtain ⟨before, rfl, countEq⟩ := ih dropped
              refine ⟨c :: before, rfl, ?_⟩
              rw [byteLength_cons]
              omega
          · contradiction

theorem exists_of_takeBytes? {count : Nat} {piece : List Char}
    (taken : takeBytes? count text = some piece) :
    ∃ after, text = piece ++ after ∧ count = byteLength piece := by
  induction text generalizing count piece with
  | nil =>
      cases count with
      | zero =>
          obtain rfl : [] = piece := Option.some.inj taken
          exact ⟨[], rfl, rfl⟩
      | succ count => simp [takeBytes?] at taken
  | cons c text ih =>
      cases count with
      | zero =>
          obtain rfl : [] = piece := Option.some.inj taken
          exact ⟨c :: text, rfl, rfl⟩
      | succ count =>
          rw [takeBytes?] at taken
          split at taken
          · next within =>
              obtain ⟨behind, takenThen, rfl⟩ := Option.map_eq_some_iff.1 taken
              obtain ⟨after, rfl, countEq⟩ := ih takenThen
              refine ⟨after, rfl, ?_⟩
              rw [byteLength_cons]
              omega
          · contradiction

/-- A prefix of a text is known by its length in bytes. -/
theorem eq_of_byteLength_eq {first second firstRest secondRest : List Char}
    (textEq : first ++ firstRest = second ++ secondRest)
    (lengthEq : byteLength first = byteLength second) : first = second := by
  have restEq : some firstRest = some secondRest := by
    rw [← dropBytes?_byteLength first firstRest, lengthEq, textEq, dropBytes?_byteLength]
  obtain rfl := Option.some.inj restEq
  exact List.append_cancel_right textEq

/-- The characters of a text that begin at some of its offsets, the text itself beginning at
one. -/
def charactersAt (holds : Nat → Bool) : (offset : Nat) → List Char → List Char
  | _, [] => []
  | offset, c :: text =>
      if holds offset then c :: charactersAt holds (offset + c.utf8Size) text
      else charactersAt holds (offset + c.utf8Size) text

variable {holds : Nat → Bool}

theorem charactersAt_congr {others : Nat → Bool} {offset : Nat} {text : List Char}
    (same : ∀ place, offset ≤ place → place < offset + byteLength text →
      holds place = others place) :
    charactersAt holds offset text = charactersAt others offset text := by
  induction text generalizing offset with
  | nil => rfl
  | cons c text ih =>
      have positive := c.utf8Size_pos
      simp only [byteLength_cons] at same
      rw [charactersAt, charactersAt, same offset (Nat.le_refl _) (by omega), ih]
      exact fun place low high => same place (by omega) (by omega)

theorem charactersAt_append (offset : Nat) (first second : List Char) :
    charactersAt holds offset (first ++ second) =
      charactersAt holds offset first ++ charactersAt holds (offset + byteLength first) second := by
  induction first generalizing offset with
  | nil => rfl
  | cons c first ih =>
      simp only [List.cons_append, charactersAt, byteLength_cons, ih, Nat.add_assoc]
      split <;> rfl

theorem charactersAt_all {offset : Nat} {text : List Char}
    (all : ∀ place, offset ≤ place → place < offset + byteLength text → holds place = true) :
    charactersAt holds offset text = text := by
  induction text generalizing offset with
  | nil => rfl
  | cons c text ih =>
      have positive := c.utf8Size_pos
      simp only [byteLength_cons] at all
      rw [charactersAt, if_pos (all offset (Nat.le_refl _) (by omega)), ih]
      exact fun place low high => all place (by omega) (by omega)

theorem charactersAt_none {offset : Nat} {text : List Char}
    (none : ∀ place, offset ≤ place → place < offset + byteLength text → holds place = false) :
    charactersAt holds offset text = [] := by
  induction text generalizing offset with
  | nil => rfl
  | cons c text ih =>
      have positive := c.utf8Size_pos
      simp only [byteLength_cons] at none
      rw [charactersAt, none offset (Nat.le_refl _) (by omega), if_neg Bool.false_ne_true, ih]
      exact fun place low high => none place (by omega) (by omega)

/-- The characters between two places are those whose offsets lie between them. -/
theorem charactersAt_between {before piece after : List Char}
    (between : ∀ place, holds place = true ↔
      byteLength before ≤ place ∧ place < byteLength (before ++ piece)) :
    charactersAt holds 0 (before ++ (piece ++ after)) = piece := by
  simp only [byteLength_append] at between
  have outside : ∀ place, ¬(byteLength before ≤ place ∧
      place < byteLength before + byteLength piece) → holds place = false :=
    fun place out => Bool.eq_false_iff.2 fun inside => out ((between place).1 inside)
  rw [charactersAt_append, charactersAt_append,
    charactersAt_none fun place _ high => outside place (by omega),
    charactersAt_all fun place low high => (between place).2 (by omega),
    charactersAt_none fun place low _ => outside place (by omega), List.nil_append,
    List.append_nil]

end Text

/-- Whether a span is the place of a piece of a text. -/
def Span.Selects (text piece : List Char) (span : Span) : Prop :=
  ∃ before after, text = before ++ (piece ++ after) ∧
    span = ⟨byteLength before, byteLength (before ++ piece)⟩

theorem Span.Selects.isBoundary {text piece : List Char} {span : Span}
    (selects : span.Selects text piece) :
    IsBoundary text span.start ∧ IsBoundary text span.stop := by
  obtain ⟨before, after, rfl, rfl⟩ := selects
  exact ⟨⟨before, piece ++ after, rfl, rfl⟩,
    ⟨before ++ piece, after, (List.append_assoc _ _ _).symm, rfl⟩⟩

/-- Between two boundaries stands a piece of the text. -/
theorem Span.exists_selects {text : List Char} {span : Span} (ordered : span.start ≤ span.stop)
    (start : IsBoundary text span.start) (stop : IsBoundary text span.stop) :
    ∃ piece, span.Selects text piece := by
  obtain ⟨first, last⟩ := span
  obtain ⟨before, behind, textEq, rfl⟩ := start
  obtain ⟨longer, after, sameText, rfl⟩ := stop
  rcases List.append_eq_append_iff.1 (textEq.symm.trans sameText) with
    ⟨piece, rfl, rfl⟩ | ⟨piece, rfl, rfl⟩
  · exact ⟨piece, before, after, textEq, rfl⟩
  · -- the second boundary is not behind the first one, so they are the same
    cases piece with
    | nil => exact ⟨[], longer, behind, by simpa using sameText, by simp⟩
    | cons c piece =>
        have positive := c.utf8Size_pos
        simp only [byteLength_append, byteLength_cons] at ordered
        omega

/-- A cut that succeeds gives what stands between the two offsets. -/
theorem Span.selects_of_slice? {text piece : List Char} {span : Span}
    (sliced : slice? span.start span.stop text = some piece) : span.Selects text piece := by
  obtain ⟨first, last⟩ := span
  rw [slice?] at sliced
  split at sliced
  · next ordered =>
      obtain ⟨rest, dropped, taken⟩ := Option.bind_eq_some_iff.1 sliced
      obtain ⟨before, rfl, rfl⟩ := exists_of_dropBytes? dropped
      obtain ⟨after, rfl, countEq⟩ := exists_of_takeBytes? taken
      refine ⟨before, after, rfl, ?_⟩
      rw [byteLength_append, ← countEq]
      simp only at ordered ⊢
      congr
      omega
  · contradiction

theorem Span.Selects.slice?_eq {text piece : List Char} {span : Span}
    (selects : span.Selects text piece) : slice? span.start span.stop text = some piece := by
  obtain ⟨before, after, rfl, rfl⟩ := selects
  simp [slice?, dropBytes?_byteLength, takeBytes?_byteLength]

theorem Span.Selects.isInfix {text piece : List Char} {span : Span}
    (selects : span.Selects text piece) : piece <:+: text := by
  obtain ⟨before, after, rfl, -⟩ := selects
  exact ⟨before, after, List.append_assoc _ _ _⟩

/-- A line of a text stands in it. -/
theorem LineTable.lineText?_isInfix {table : LineTable} {text content : List Char} {line : Nat}
    (found : table.lineText? text line = some content) : content <:+: text := by
  simp only [lineText?, Option.bind_eq_bind, Option.bind_eq_some_iff] at found
  obtain ⟨start, -, raw, sliced, contentEq⟩ := found
  have selects : Span.Selects text raw ⟨start, _⟩ := Span.selects_of_slice? sliced
  have kept : (raw.reverse.dropWhile isLineBreak).reverse <+: raw :=
    List.reverse_suffix.1 (by simpa using List.dropWhile_suffix isLineBreak)
  exact Option.some.inj contentEq ▸ kept.isInfix.trans selects.isInfix

end TemplateCompiler
