import TemplateCompiler.Source.Cursor
import Mathlib.Tactic.Common

/-!
# Advancing a cursor

Where a cursor is after some characters: what is left to read, which byte it
has come to, and, when no line ended on the way, which column.
-/

namespace TemplateCompiler

namespace Text

theorem length_le_byteLength (text : List Char) : text.length ≤ byteLength text := by
  induction text with
  | nil => exact Nat.le_refl 0
  | cons c text ih =>
      have := c.utf8Size_pos
      simp only [List.length_cons, byteLength_cons]
      omega

theorem byteLength_pos {text : List Char} (nonempty : text ≠ []) : 0 < byteLength text :=
  Nat.lt_of_lt_of_le (List.length_pos_iff.2 nonempty) (length_le_byteLength text)

theorem utf8ByteSize_ofList (text : List Char) :
    (String.ofList text).utf8ByteSize = byteLength text := by
  induction text with
  | nil => rfl
  | cons c text ih =>
      rw [String.ofList_cons, String.utf8ByteSize_append, String.utf8ByteSize_singleton, ih,
        byteLength_cons]

theorem byteLength_toList (text : String) : byteLength text.toList = text.utf8ByteSize := by
  rw [← utf8ByteSize_ofList, String.ofList_toList]

theorem slice_byteLength (before middle after : List Char) :
    slice (byteLength before) (byteLength before + byteLength middle)
      (before ++ (middle ++ after)) = middle := by
  simp [slice, slice?, dropBytes?_byteLength, takeBytes?_byteLength]

theorem not_isLineBreak {c : Char} (plain : isLineBreak c = false) : c ≠ '\n' ∧ c ≠ '\r' := by
  simpa [isLineBreak] using plain

end Text

namespace Cursor

theorem advanceBy_succ_cons {cursor : Cursor} {c : Char} {rest : List Char}
    (restEq : cursor.rest = c :: rest) (count : Nat) :
    advanceBy (count + 1) cursor =
      advanceBy count
        { cursor with rest := rest, mark := cursor.mark.step c rest.head? } := by
  simp [advanceBy, advance, restEq]

theorem advanceBy_of_rest_nil {cursor : Cursor} (restEq : cursor.rest = []) (count : Nat) :
    advanceBy count cursor = cursor := by
  cases count <;> simp [advanceBy, restEq]

@[simp]
theorem advanceBy_zero (cursor : Cursor) : advanceBy 0 cursor = cursor :=
  rfl

@[simp]
theorem advanceBy_rest (count : Nat) (cursor : Cursor) :
    (advanceBy count cursor).rest = cursor.rest.drop count := by
  induction count generalizing cursor with
  | zero => rfl
  | succ count ih =>
      cases restEq : cursor.rest with
      | nil => rw [advanceBy_of_rest_nil restEq, restEq]; rfl
      | cons c rest => rw [advanceBy_succ_cons restEq, ih]; rfl

theorem advanceBy_add (first second : Nat) (cursor : Cursor) :
    advanceBy (first + second) cursor = advanceBy second (advanceBy first cursor) := by
  induction first generalizing cursor with
  | zero => simp
  | succ first ih =>
      cases restEq : cursor.rest with
      | nil => simp only [advanceBy_of_rest_nil restEq]
      | cons c rest =>
          rw [Nat.succ_add, advanceBy_succ_cons restEq, advanceBy_succ_cons restEq, ih]

theorem step_offset (mark : Mark) (c : Char) (next : Option Char) :
    (mark.step c next).offset = mark.offset + c.utf8Size := by
  rw [Mark.step]
  split
  · rfl
  · split <;> rfl

theorem advanceBy_offset (count : Nat) (cursor : Cursor) :
    (advanceBy count cursor).mark.offset =
      cursor.mark.offset + Text.byteLength (cursor.rest.take count) := by
  induction count generalizing cursor with
  | zero => rfl
  | succ count ih =>
      cases restEq : cursor.rest with
      | nil => simp [advanceBy_of_rest_nil restEq]
      | cons c rest =>
          rw [advanceBy_succ_cons restEq, ih, step_offset]
          simp [Nat.add_assoc]

/-- A cursor stands behind some text of a source. -/
structure HasRead (source read : List Char) (cursor : Cursor) : Prop where
  sourceEq : source = read ++ cursor.rest
  offsetEq : cursor.mark.offset = Text.byteLength read

theorem HasRead.advanceBy {source read piece : List Char} {cursor : Cursor}
    (hasRead : cursor.HasRead source read) (ahead : piece <+: cursor.rest) :
    (advanceBy piece.length cursor).HasRead source (read ++ piece) := by
  obtain ⟨tail, restEq⟩ := ahead
  constructor
  · rw [advanceBy_rest, ← restEq, List.drop_left, List.append_assoc, restEq]
    exact hasRead.sourceEq
  · rw [advanceBy_offset, ← restEq, List.take_left, hasRead.offsetEq, Text.byteLength_append]

@[simp]
theorem advanceBy_source (count : Nat) (cursor : Cursor) :
    (advanceBy count cursor).source = cursor.source := by
  induction count generalizing cursor with
  | zero => rfl
  | succ count ih =>
      cases restEq : cursor.rest with
      | nil => rw [advanceBy_of_rest_nil restEq]
      | cons c rest => rw [advanceBy_succ_cons restEq, ih]

/-- A cursor over a source stands between two of its characters. -/
structure Within (source : List Char) (cursor : Cursor) : Prop where
  sourceEq : cursor.source = source
  hasRead : ∃ read, cursor.HasRead source read

theorem within_ofText (source : List Char) : (ofText source).Within source :=
  ⟨rfl, [], rfl, rfl⟩

theorem Within.advanceBy {source : List Char} {cursor : Cursor} (within : cursor.Within source)
    (count : Nat) : (advanceBy count cursor).Within source := by
  obtain ⟨sourceEq, read, hasRead⟩ := within
  refine ⟨by rw [advanceBy_source, sourceEq], read ++ cursor.rest.take count, ?_, ?_⟩
  · rw [advanceBy_rest, List.append_assoc, List.take_append_drop]
    exact hasRead.sourceEq
  · rw [advanceBy_offset, hasRead.offsetEq, Text.byteLength_append]

/-- The mark of a cursor tells where it stands. -/
theorem Within.ofMark_eq {source : List Char} {cursor : Cursor} (within : cursor.Within source) :
    ofMark source cursor.mark = cursor := by
  obtain ⟨sourceEq, read, hasRead⟩ := within
  obtain ⟨source, rest, mark⟩ := cursor
  obtain rfl : source = _ := sourceEq
  obtain ⟨restEq, offsetEq⟩ := hasRead
  simp only at restEq offsetEq
  rw [ofMark, offsetEq, restEq, Text.dropBytes?_byteLength]
  rfl

theorem advanceBy_mark {piece tail : List Char} {cursor : Cursor}
    (restEq : cursor.rest = piece ++ tail)
    (unbroken : ∀ c ∈ piece, Text.isLineBreak c = false) :
    (advanceBy piece.length cursor).mark =
      ⟨cursor.mark.offset + Text.byteLength piece, cursor.mark.line,
        cursor.mark.column + piece.length⟩ := by
  induction piece generalizing cursor with
  | nil => rfl
  | cons c piece ih =>
      have plain : Text.isLineBreak c = false := unbroken c List.mem_cons_self
      obtain ⟨notFeed, notReturn⟩ := Text.not_isLineBreak plain
      have stepEq : cursor.mark.step c (piece ++ tail).head? =
          ⟨cursor.mark.offset + c.utf8Size, cursor.mark.line, cursor.mark.column + 1⟩ := by
        simp [Mark.step, Text.endsLine, notFeed, notReturn]
      rw [List.length_cons, advanceBy_succ_cons (List.cons_append ▸ restEq),
        ih rfl fun other member => unbroken other (List.mem_cons_of_mem c member), stepEq]
      simp only [Text.byteLength_cons, Mark.mk.injEq, true_and]
      omega

theorem textTo_advanceBy {piece tail : List Char} {cursor : Cursor}
    (restEq : cursor.rest = piece ++ tail) :
    cursor.textTo (advanceBy piece.length cursor) = piece := by
  rw [textTo, advanceBy_offset, restEq, List.take_left', Nat.add_sub_cancel_left,
    Text.takeBytes?_byteLength]
  · rfl
  · rfl

end Cursor

end TemplateCompiler
