import TemplateCompiler.Proofs.Source.Lines
import Mathlib.Data.List.TakeWhile

/-!
# Texts on other platforms

A text whose lines end with line feeds is saved on another platform with a carriage
return in front of every line feed.  What is said about the characters within a line
is the same for both, and a cursor that has come to the same place of both is on the
same line and in the same column.
-/

namespace TemplateCompiler

namespace Text

/-- How the line breaks of a text are spelled. -/
inductive BreakStyle where
  | feed
  | pair
deriving DecidableEq, Repr

namespace BreakStyle

def lineBreak : BreakStyle → List Char
  | feed => ['\n']
  | pair => ['\r', '\n']

/-- What stands for a character of a text whose lines end with line feeds. -/
def spell (style : BreakStyle) (c : Char) : List Char :=
  if c = '\n' then style.lineBreak else [c]

end BreakStyle

/-- A text whose lines end with line feeds, with its line breaks in another style. -/
def respell (style : BreakStyle) (text : List Char) : List Char :=
  text.flatMap style.spell

variable {style : BreakStyle} {c : Char} {text piece tail pattern : List Char}

theorem eq_of_isLineBreak (isBreak : isLineBreak c = true) : c = '\n' ∨ c = '\r' := by
  simpa [isLineBreak] using isBreak

namespace BreakStyle

theorem spell_of_ne (plain : c ≠ '\n') : style.spell c = [c] :=
  if_neg plain

/-- A class that does not tell the two characters of a line break apart does not
tell the styles apart. -/
theorem class_of_mem_spell {member : Char → Bool} (breaks : member '\r' = member '\n') {d : Char}
    (mem : d ∈ style.spell c) : member d = member c := by
  rw [spell] at mem
  split at mem
  · next isFeed =>
      subst isFeed
      cases style <;> simp only [lineBreak, List.mem_cons, List.not_mem_nil, or_false] at mem
      · rw [mem]
      · rcases mem with rfl | rfl
        · exact breaks
        · rfl
  · rw [List.mem_singleton.1 mem]

/-- What stands for a character begins with a character that such a class does not tell
from it. -/
theorem exists_spell (style : BreakStyle) (c : Char) (member : Char → Bool)
    (breaks : member '\r' = member '\n') :
    ∃ d later, style.spell c = d :: later ∧ member d = member c := by
  rw [spell]
  split
  · next isFeed =>
      subst isFeed
      cases style
      · exact ⟨_, _, rfl, rfl⟩
      · exact ⟨_, _, rfl, breaks⟩
  · exact ⟨_, _, rfl, rfl⟩

/-- Only what stands for a line break has more than one character. -/
theorem isLineBreak_of_spell_eq_cons {d e : Char} {later : List Char}
    (spelled : style.spell c = d :: later) (mem : e ∈ later) : isLineBreak e = true := by
  rw [spell] at spelled
  split at spelled
  · cases style <;> obtain ⟨-, rfl⟩ := List.cons.inj spelled
    · contradiction
    · rw [List.mem_singleton.1 mem]
      rfl
  · obtain ⟨-, rfl⟩ := List.cons.inj spelled
    contradiction

end BreakStyle

@[simp]
theorem respell_nil : respell style [] = [] :=
  rfl

theorem respell_cons (c : Char) (text : List Char) :
    respell style (c :: text) = style.spell c ++ respell style text :=
  rfl

theorem respell_cons_of_ne (plain : c ≠ '\n') (text : List Char) :
    respell style (c :: text) = c :: respell style text := by
  rw [respell_cons, BreakStyle.spell_of_ne plain, List.singleton_append]

@[simp]
theorem respell_append (first second : List Char) :
    respell style (first ++ second) = respell style first ++ respell style second :=
  List.flatMap_append

@[simp]
theorem respell_feed (text : List Char) : respell .feed text = text := by
  induction text with
  | nil => rfl
  | cons c text ih =>
      rw [respell_cons, ih, BreakStyle.spell]
      split
      · next isFeed => rw [isFeed]; rfl
      · rfl

theorem respell_of_notMem (unbroken : '\n' ∉ text) : respell style text = text := by
  induction text with
  | nil => rfl
  | cons c text ih =>
      obtain ⟨plain, later⟩ := not_or.1 (List.mem_cons.not.1 unbroken)
      rw [respell_cons_of_ne (Ne.symm plain), ih later]

theorem respell_eq_nil : respell style text = [] ↔ text = [] := by
  cases text with
  | nil => simp
  | cons c text =>
      obtain ⟨d, later, spelled, -⟩ := style.exists_spell c isLineBreak rfl
      simp [respell_cons, spelled]

theorem exists_of_respell_eq_cons {rest : List Char} (plain : isLineBreak c = false)
    (textEq : respell style text = c :: rest) :
    ∃ later, text = c :: later ∧ rest = respell style later := by
  cases text with
  | nil => cases textEq
  | cons d text =>
      have sameClass : isLineBreak c = isLineBreak d := by
        obtain ⟨e, later, spelled, sameClass⟩ := style.exists_spell d isLineBreak rfl
        rw [respell_cons, spelled] at textEq
        obtain ⟨rfl, -⟩ := List.cons.inj textEq
        exact sameClass
      rw [respell_cons_of_ne (not_isLineBreak (sameClass.symm.trans plain)).1] at textEq
      obtain ⟨rfl, rfl⟩ := List.cons.inj textEq
      exact ⟨text, rfl, rfl⟩

/-- What is said about a text by its first character, and takes nothing of a line
break, is said in every style. -/
theorem eq_of_respell {β : Type} {said : List Char → β}
    (breaks : ∀ d later, isLineBreak d = true → said (d :: later) = said [])
    (others : ∀ d later, d ≠ '\n' → said (d :: respell style later) = said (d :: later))
    (text : List Char) : said (respell style text) = said text := by
  cases text with
  | nil => rfl
  | cons c text =>
      by_cases isFeed : c = '\n'
      · obtain ⟨d, later, spelled, isBreak⟩ := style.exists_spell c isLineBreak rfl
        subst isFeed
        rw [respell_cons, spelled, List.cons_append, breaks d _ isBreak, breaks '\n' _ rfl]
      · rw [respell_cons_of_ne isFeed, others c text isFeed]

theorem drop_respell_of_notMem (style : BreakStyle) (textEq : text = piece ++ tail)
    (unbroken : '\n' ∉ piece) :
    (respell style text).drop piece.length = respell style (text.drop piece.length) := by
  rw [textEq, respell_append, respell_of_notMem unbroken, List.drop_left, List.drop_left]

theorem drop_respell (count : Nat) (text : List Char) :
    (respell style text).drop (respell style (text.take count)).length =
      respell style (text.drop count) := by
  conv_lhs => rw [← List.take_append_drop count text, respell_append]
  rw [List.take_append_drop, List.drop_left]

theorem take_respell (count : Nat) (text : List Char) :
    (respell style text).take (respell style (text.take count)).length =
      respell style (text.take count) := by
  conv_lhs => rw [← List.take_append_drop count text, respell_append]
  rw [List.take_append_drop, List.take_left]

section Classes

variable {member : Char → Bool} (breaks : member '\r' = member '\n')

include breaks

theorem takeWhile_respell (text : List Char) :
    (respell style text).takeWhile member = respell style (text.takeWhile member) := by
  induction text with
  | nil => rfl
  | cons c text ih =>
      have sameClass : ∀ d ∈ style.spell c, member d = member c := fun _ =>
        BreakStyle.class_of_mem_spell breaks
      rw [respell_cons, List.takeWhile_cons]
      split
      · next inside =>
          rw [List.takeWhile_append_of_pos fun d mem => (sameClass d mem).trans inside, ih,
            respell_cons]
      · next outside =>
          obtain ⟨d, later, spelled, sameHead⟩ := style.exists_spell c member breaks
          rw [spelled, List.cons_append, List.takeWhile_cons_of_neg (sameHead ▸ outside),
            respell_nil]

theorem dropWhile_respell (text : List Char) :
    (respell style text).dropWhile member = respell style (text.dropWhile member) := by
  have divided : (respell style text).takeWhile member ++ (respell style text).dropWhile member =
      (respell style text).takeWhile member ++ respell style (text.dropWhile member) := by
    rw [List.takeWhile_append_dropWhile, takeWhile_respell breaks, ← respell_append,
      List.takeWhile_append_dropWhile]
  exact List.append_cancel_left divided

theorem any_head?_respell (text : List Char) :
    (respell style text).head?.any member = text.head?.any member := by
  cases text with
  | nil => rfl
  | cons c text =>
      obtain ⟨d, later, spelled, sameClass⟩ := style.exists_spell c member breaks
      simp [respell_cons, spelled, sameClass]

theorem all_head?_respell (text : List Char) :
    (respell style text).head?.all member = text.head?.all member := by
  cases text with
  | nil => rfl
  | cons c text =>
      obtain ⟨d, later, spelled, sameClass⟩ := style.exists_spell c member breaks
      simp [respell_cons, spelled, sameClass]

omit breaks

/-- A class of characters that stand within lines. -/
structure ExcludesBreaks (member : Char → Bool) : Prop where
  feedEq : member '\n' = false
  returnEq : member '\r' = false

theorem ExcludesBreaks.eq_false (excludes : ExcludesBreaks member)
    (isBreak : isLineBreak c = true) : member c = false := by
  rcases eq_of_isLineBreak isBreak with rfl | rfl
  · exact excludes.feedEq
  · exact excludes.returnEq

theorem ExcludesBreaks.notMem (excludes : ExcludesBreaks member)
    (inside : ∀ d ∈ piece, member d = true) : '\n' ∉ piece :=
  fun mem => Bool.false_ne_true (excludes.feedEq.symm.trans (inside _ mem))

theorem ExcludesBreaks.notMem_takeWhile (excludes : ExcludesBreaks member) (text : List Char) :
    '\n' ∉ text.takeWhile member :=
  excludes.notMem fun _ => List.mem_takeWhile_imp

theorem ExcludesBreaks.takeWhile_respell (excludes : ExcludesBreaks member) (style : BreakStyle)
    (text : List Char) :
    (respell style text).takeWhile member = text.takeWhile member := by
  rw [Text.takeWhile_respell (excludes.returnEq.trans excludes.feedEq.symm),
    respell_of_notMem (excludes.notMem_takeWhile text)]

end Classes

section Patterns

/-! A pattern without line breaks is found at the same places. -/

theorem startsWith_of_break {d : Char} (nonempty : pattern ≠ [])
    (unbroken : pattern.any isLineBreak = false) (isBreak : isLineBreak d = true)
    (text : List Char) : startsWith pattern (d :: text) = false := by
  obtain ⟨p, pattern, rfl⟩ := List.exists_cons_of_ne_nil nonempty
  obtain ⟨plain, -⟩ := Bool.or_eq_false_iff.1 unbroken
  have differs : (p == d) = false :=
    beq_eq_false_iff_ne.2 fun same => by simp [same, isBreak] at plain
  rw [startsWith, List.isPrefixOf, differs, Bool.false_and]

theorem startsWith_respell (style : BreakStyle) (pattern : List Char)
    (unbroken : pattern.any isLineBreak = false) (text : List Char) :
    startsWith pattern (respell style text) = startsWith pattern text := by
  induction pattern generalizing text with
  | nil => simp [startsWith]
  | cons p pattern ih =>
      cases text with
      | nil => rfl
      | cons c text =>
          by_cases isFeed : c = '\n'
          · obtain ⟨d, later, spelled, isBreak⟩ := style.exists_spell c isLineBreak rfl
            subst isFeed
            rw [respell_cons, spelled, List.cons_append,
              startsWith_of_break (by simp) unbroken isBreak,
              startsWith_of_break (by simp) unbroken rfl]
          · have later := ih (Bool.or_eq_false_iff.1 unbroken).2 text
            simp only [startsWith] at later ⊢
            rw [respell_cons_of_ne isFeed, List.isPrefixOf, List.isPrefixOf, later]

theorem startsWithIgnoreCase_respell (style : BreakStyle) (pattern : List Char)
    (unbroken : pattern.any (isLineBreak ∘ Char.toLower) = false) (text : List Char) :
    startsWithIgnoreCase pattern (respell style text) = startsWithIgnoreCase pattern text := by
  induction pattern generalizing text with
  | nil => simp [startsWithIgnoreCase]
  | cons p pattern ih =>
      cases text with
      | nil => rfl
      | cons c text =>
          by_cases isFeed : c = '\n'
          · obtain ⟨notFeed, notReturn⟩ := not_isLineBreak (Bool.or_eq_false_iff.1 unbroken).1
            have breaks : (p.toLower == '\r'.toLower) = (p.toLower == '\n'.toLower) :=
              (beq_eq_false_iff_ne.2 notReturn).trans (beq_eq_false_iff_ne.2 notFeed).symm
            obtain ⟨d, later, spelled, sameClass⟩ :=
              style.exists_spell c (fun e => p.toLower == e.toLower) breaks
            have differs : (p.toLower == c.toLower) = false := by
              rw [isFeed]
              exact beq_eq_false_iff_ne.2 notFeed
            rw [respell_cons, spelled, List.cons_append, startsWithIgnoreCase,
              startsWithIgnoreCase, sameClass, differs, Bool.false_and, Bool.false_and]
          · rw [respell_cons_of_ne isFeed, startsWithIgnoreCase, startsWithIgnoreCase,
              ih (Bool.or_eq_false_iff.1 unbroken).2]

theorem splitAtFirst?_lineBreak (nonempty : pattern ≠ [])
    (unbroken : pattern.any isLineBreak = false) (text : List Char) :
    splitAtFirst? pattern (style.lineBreak ++ text) =
      (splitAtFirst? pattern text).map fun (before, after) =>
        (style.lineBreak ++ before, after) := by
  have step : ∀ d, isLineBreak d = true → ∀ text, splitAtFirst? pattern (d :: text) =
      (splitAtFirst? pattern text).map fun (before, after) => (d :: before, after) := by
    intro d isBreak text
    rw [splitAtFirst?, startsWith_of_break nonempty unbroken isBreak, if_neg Bool.false_ne_true]
  cases style with
  | feed => exact step '\n' rfl text
  | pair =>
      change splitAtFirst? pattern ('\r' :: '\n' :: text) = _
      rw [step '\r' rfl, step '\n' rfl, Option.map_map]
      rfl

theorem splitAtFirst?_respell (style : BreakStyle) (pattern : List Char) (nonempty : pattern ≠ [])
    (unbroken : pattern.any isLineBreak = false) (text : List Char) :
    splitAtFirst? pattern (respell style text) =
      (splitAtFirst? pattern text).map fun (before, after) =>
        (respell style before, respell style after) := by
  induction text with
  | nil => simp [splitAtFirst?, nonempty]
  | cons c text ih =>
      by_cases isFeed : c = '\n'
      · subst isFeed
        rw [splitAtFirst?, startsWith_of_break nonempty unbroken rfl, if_neg Bool.false_ne_true,
          respell_cons, BreakStyle.spell, if_pos rfl, splitAtFirst?_lineBreak nonempty unbroken, ih,
          Option.map_map, Option.map_map]
        rfl
      · have sameStart := startsWith_respell style pattern unbroken (c :: text)
        rw [respell_cons_of_ne isFeed] at sameStart ⊢
        rw [splitAtFirst?, splitAtFirst?, sameStart, ih]
        split
        · simp [respell_cons_of_ne isFeed]
        · rw [Option.map_map, Option.map_map]
          congr 1
          funext parts
          simp [respell_cons_of_ne isFeed]

end Patterns

end Text

namespace Cursor

open Text

variable {style : BreakStyle} {text read piece : List Char} {cursor other : Cursor}

/-- Two cursors that have come to the same place of a text and of the text with its
line breaks in another style. -/
structure Respells (style : BreakStyle) (text read : List Char) (cursor other : Cursor) :
    Prop where
  hasRead : cursor.HasRead text read
  otherHasRead : other.HasRead (respell style text) (respell style read)
  lineEq : other.mark.line = cursor.mark.line
  columnEq : other.mark.column = cursor.mark.column

theorem respells_ofText (style : BreakStyle) (text : List Char) :
    Respells style text [] (ofText text) (ofText (respell style text)) :=
  ⟨⟨rfl, rfl⟩, ⟨rfl, rfl⟩, rfl, rfl⟩

theorem Respells.rest_eq (respells : Respells style text read cursor other) :
    other.rest = respell style cursor.rest := by
  have sourceEq := respells.otherHasRead.sourceEq
  rw [respells.hasRead.sourceEq, respell_append] at sourceEq
  exact (List.append_cancel_left sourceEq).symm

/-- Only at the start of the text has a cursor read nothing. -/
theorem Respells.offset_eq_zero (respells : Respells style text read cursor other) :
    (other.mark.offset == 0) = (cursor.mark.offset == 0) := by
  have zero : ∀ piece : List Char, byteLength piece = 0 ↔ piece = [] := fun piece =>
    ⟨fun none => Classical.not_not.1 fun some => Nat.pos_iff_ne_zero.1 (byteLength_pos some) none,
      fun none => none ▸ rfl⟩
  rw [respells.hasRead.offsetEq, respells.otherHasRead.offsetEq, Bool.eq_iff_iff, beq_iff_eq,
    beq_iff_eq, zero, zero, respell_eq_nil]

/-- A cursor steps over a character that is no carriage return as it steps over what
stands for the character. -/
theorem advanceBy_spell {c : Char} {rest otherRest : List Char} (notReturn : c ≠ '\r')
    (restEq : cursor.rest = c :: rest) (otherEq : other.rest = style.spell c ++ otherRest)
    (lineEq : other.mark.line = cursor.mark.line)
    (columnEq : other.mark.column = cursor.mark.column) :
    (advanceBy (style.spell c).length other).mark.line = (advanceBy 1 cursor).mark.line ∧
      (advanceBy (style.spell c).length other).mark.column =
        (advanceBy 1 cursor).mark.column := by
  rw [advanceBy_succ_cons restEq, advanceBy_zero]
  by_cases isFeed : c = '\n'
  · subst isFeed
    cases style with
    | feed =>
        have otherCons : other.rest = '\n' :: otherRest := otherEq
        change (advanceBy 1 other).mark.line = _ ∧ (advanceBy 1 other).mark.column = _
        rw [advanceBy_succ_cons otherCons, advanceBy_zero]
        simp [Mark.step, endsLine, lineEq]
    | pair =>
        have otherCons : other.rest = '\r' :: '\n' :: otherRest := otherEq
        change (advanceBy 2 other).mark.line = _ ∧ (advanceBy 2 other).mark.column = _
        rw [advanceBy_succ_cons otherCons, advanceBy_succ_cons rfl, advanceBy_zero]
        simp [Mark.step, endsLine, lineEq]
  · rw [BreakStyle.spell_of_ne isFeed] at otherEq ⊢
    rw [List.length_singleton, advanceBy_succ_cons otherEq, advanceBy_zero]
    simp [Mark.step, endsLine, isFeed, notReturn, lineEq, columnEq]

theorem Respells.advanceBy (respells : Respells style text read cursor other)
    (noReturn : '\r' ∉ piece) (ahead : piece <+: cursor.rest) :
    Respells style text (read ++ piece) (Cursor.advanceBy piece.length cursor)
      (Cursor.advanceBy (respell style piece).length other) := by
  induction piece generalizing read cursor other with
  | nil => rwa [List.append_nil]
  | cons c piece ih =>
      obtain ⟨notReturn, later⟩ := not_or.1 (List.mem_cons.not.1 noReturn)
      obtain ⟨tail, restEq⟩ := ahead
      have otherEq : other.rest = style.spell c ++ respell style (piece ++ tail) := by
        rw [respells.rest_eq, ← restEq]
        rfl
      have stepped : Respells style text (read ++ [c]) (Cursor.advanceBy 1 cursor)
          (Cursor.advanceBy (style.spell c).length other) := by
        obtain ⟨lineEq, columnEq⟩ := advanceBy_spell (Ne.symm notReturn) restEq.symm otherEq
          respells.lineEq respells.columnEq
        have oneRead : [c] <+: cursor.rest := ⟨piece ++ tail, restEq⟩
        refine ⟨respells.hasRead.advanceBy oneRead, ?_, lineEq, columnEq⟩
        have spelled : respell style (read ++ [c]) = respell style read ++ style.spell c := by
          rw [respell_append, respell_cons, respell_nil, List.append_nil]
        rw [spelled]
        exact respells.otherHasRead.advanceBy ⟨_, otherEq.symm⟩
      have whole := ih stepped later ⟨tail, by
        rw [advanceBy_rest, ← restEq]
        rfl⟩
      rw [List.append_assoc, ← advanceBy_add, ← advanceBy_add] at whole
      rwa [List.length_cons, Nat.add_comm, respell_cons, List.length_append]

end Cursor

end TemplateCompiler
