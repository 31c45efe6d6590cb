import TemplateCompiler.Proofs.Template.Written
import Mathlib.Data.Set.List

/-!
# How paths are written

A path is written as a name and then names and positions, with points between them.  The
points divide it again, because none of the segments holds one.  So a path that is written
is the one that its own text stands for.
-/

namespace TemplateCompiler

theorem Text.pieces_eq_splitOn (separator : Char) (text : List Char) :
    pieces separator text = text.splitOn separator := by
  induction text with
  | nil => rfl
  | cons c text ih =>
      obtain ⟨piece, others, splitEq⟩ :=
        List.exists_cons_of_ne_nil (List.splitOn_ne_nil separator text)
      rw [pieces, List.splitOn_cons_eq_if_modifyHead, ih, splitEq]
      simp

/-- The separator is in none of the pieces. -/
theorem Text.not_mem_of_mem_pieces {separator : Char} {text piece : List Char}
    (member : piece ∈ pieces separator text) : separator ∉ piece := by
  induction text generalizing piece with
  | nil =>
      rw [pieces, List.mem_singleton] at member
      exact member ▸ List.not_mem_nil
  | cons c text ih =>
      rw [pieces] at member
      split at member
      · rcases List.mem_cons.1 member with rfl | member
        · exact List.not_mem_nil
        · exact ih member
      · next notSeparator =>
          obtain ⟨first, others, piecesEq⟩ := List.exists_cons_of_ne_nil
            (pieces_eq_splitOn separator text ▸ List.splitOn_ne_nil separator text)
          rw [piecesEq] at ih member
          obtain ⟨inFirst, inOthers⟩ := List.forall_mem_cons.1 fun _ => ih
          rcases List.mem_cons.1 member with rfl | member
          · exact List.not_mem_cons_of_ne_of_not_mem (Ne.symm notSeparator) inFirst
          · exact inOthers piece member

namespace Written

/-- A position in a list: one digit at least. -/
structure Digits where
  text : String
  nonempty : text.toList ≠ []
  digits : ∀ c ∈ text.toList, c.isDigit = true

/-- A segment of a path behind the first one. -/
inductive Segment where
  | property (name : VariableName)
  | position (digits : Digits)

def Segment.text : Segment → String
  | .property name => name.text
  | .position digits => digits.text

/-- A path as it is written. -/
structure Dotted where
  root : VariableName
  rest : List Segment

def Dotted.segments (dotted : Dotted) : List String :=
  dotted.root.text :: dotted.rest.map Segment.text

def Dotted.path (dotted : Dotted) : Path :=
  ⟨dotted.root.text, dotted.rest.map Segment.text⟩

/-- The segments with points between them. -/
def Dotted.source (dotted : Dotted) : List Char :=
  ['.'].intercalate (dotted.segments.map String.toList)

/-- Whether a text can be a segment of a path behind the first one. -/
def IsSegment (text : String) : Prop :=
  (Lex.IsVariableName text.toList ∧ Lex.booleanWord? text.toList = none) ∨
    (text.toList ≠ [] ∧ ∀ c ∈ text.toList, c.isDigit = true)

/-- Segments as they are written behind the first one of a path. -/
def segmentsSource (segments : List Segment) : List Char :=
  segments.flatMap fun segment => '.' :: segment.text.toList

/-- An interpolation that shows what a path leads to. -/
structure Shown where
  early : Spaces
  dotted : Dotted
  late : Spaces

def Shown.source (shown : Shown) : List Char :=
  ['{', '{'] ++ (shown.early.text ++ (shown.dotted.source ++ (shown.late.text ++ ['}', '}'])))

/-- The header of a loop with the white space in it. -/
structure Header where
  behindAt : Spaces
  behindKeyword : Spaces
  behindOpening : Spaces
  item : VariableName
  behindItem : Gap
  preposition : VariableName
  behindPreposition : Gap
  collection : Dotted
  behindCollection : Spaces
  behindClosing : Spaces

/-- What stands between the keyword of a loop and its brace. -/
def Header.rest (header : Header) : List Char :=
  header.behindKeyword.text ++ (['('] ++ (header.behindOpening.text ++
    (header.item.text.toList ++ (header.behindItem.text ++ (header.preposition.text.toList ++
      (header.behindPreposition.text ++ (header.collection.source ++
        (header.behindCollection.text ++ ([')'] ++ header.behindClosing.text)))))))))

/-- The header of a loop as it is written, up to the brace. -/
def Header.source (header : Header) : List Char :=
  ['@'] ++ (header.behindAt.text ++ ("for".toList ++ header.rest))

def Header.loop (header : Header) : Loop :=
  ⟨header.item.text, header.preposition.text, header.collection.path, Loop.indexName⟩

section Paths

theorem intercalate_eq (first : List Char) (others : List (List Char)) :
    ['.'].intercalate (first :: others) = first ++ others.flatMap ('.' :: ·) := by
  induction others generalizing first with
  | nil => simp
  | cons second others ih =>
      rw [List.intercalate_cons_cons, ih, List.append_assoc]
      rfl

theorem Dotted.source_eq (dotted : Dotted) :
    dotted.source = dotted.root.text.toList ++ segmentsSource dotted.rest := by
  rw [source, segments, List.map_cons, intercalate_eq, segmentsSource, List.map_map,
    List.flatMap_map]
  rfl

theorem exists_segment {text : String} (isSegment : IsSegment text) :
    ∃ segment : Segment, segment.text = text := by
  rcases isSegment with ⟨isName, notBoolean⟩ | ⟨nonempty, digits⟩
  · exact ⟨.property ⟨text, isName, notBoolean⟩, rfl⟩
  · exact ⟨.position ⟨text, nonempty, digits⟩, rfl⟩

/-- A variable and segments make a path. -/
theorem exists_dotted (root : VariableName) {rest : List String}
    (isSegments : ∀ text ∈ rest, IsSegment text) :
    ∃ dotted : Dotted, dotted.segments = root.text :: rest := by
  have each : rest ∈ Set.range (List.map Segment.text) := by
    rw [Set.range_list_map]
    exact fun text member => exists_segment (isSegments text member)
  obtain ⟨segments, textsEq⟩ := each
  exact ⟨⟨root, segments⟩, by rw [Dotted.segments, textsEq]⟩

section Characters

variable {c : Char}

theorem Digits.not_mem (digits : Digits) (notDigit : c.isDigit = false) :
    c ∉ digits.text.toList := by
  intro member
  rw [digits.digits c member] at notDigit
  contradiction

theorem Segment.not_mem (segment : Segment) (notStart : CharClass.isVariableStart c = false)
    (notPart : CharClass.isVariablePart c = false) : c ∉ segment.text.toList := by
  cases segment with
  | property name => exact name.isName.not_mem notStart notPart
  | position digits =>
      apply digits.not_mem
      rw [← Bool.not_eq_true] at notPart ⊢
      exact fun isDigit => notPart (by simp [CharClass.isVariablePart, Char.isAlphanum, isDigit])

theorem Dotted.not_mem (dotted : Dotted) (notPoint : c ≠ '.')
    (notStart : CharClass.isVariableStart c = false)
    (notPart : CharClass.isVariablePart c = false) : c ∉ dotted.source := by
  rw [dotted.source_eq, List.mem_append, segmentsSource, List.mem_flatMap]
  rintro (inRoot | ⟨segment, -, inSegment⟩)
  · exact dotted.root.isName.not_mem notStart notPart inRoot
  · rcases List.mem_cons.1 inSegment with isPoint | inSegment
    · exact notPoint isPoint
    · exact segment.not_mem notStart notPart inSegment

end Characters

theorem VariableName.nonempty (name : VariableName) : name.text.toList ≠ [] := by
  obtain ⟨c, rest, textEq, -⟩ := name.isName
  rw [textEq]
  exact List.cons_ne_nil c rest

theorem Segment.nonempty (segment : Segment) : segment.text.toList ≠ [] := by
  cases segment with
  | property name => exact name.nonempty
  | position digits => exact digits.nonempty

theorem Dotted.pieces_source (dotted : Dotted) :
    Text.pieces '.' dotted.source = dotted.segments.map String.toList := by
  rw [Text.pieces_eq_splitOn, source]
  apply List.splitOn_intercalate
  · simp only [segments, List.map_cons, List.map_map, List.forall_mem_cons, List.forall_mem_map]
    exact ⟨dotted.root.isName.not_mem (by decide) (by decide),
      fun segment _ => segment.not_mem (by decide) (by decide)⟩
  · exact List.cons_ne_nil _ _

theorem Dotted.text_path (dotted : Dotted) : dotted.path.text = String.ofList dotted.source := by
  rw [← String.toList_inj, String.toList_ofList, Path.text, String.toList_intercalate]
  rfl

/-- The text of a path that can be written stands for that path. -/
theorem Dotted.parse?_text (dotted : Dotted) :
    Path.parse? dotted.path.text = some dotted.path := by
  have someEach : (dotted.segments.map String.toList).any List.isEmpty = false := by
    rw [List.any_eq_false]
    simp only [segments, List.map_cons, List.map_map, List.forall_mem_cons, List.forall_mem_map,
      List.isEmpty_iff]
    exact ⟨dotted.root.nonempty, fun segment _ => segment.nonempty⟩
  have sameEach : (dotted.segments.map String.toList).map String.ofList = dotted.segments := by
    rw [List.map_map, show String.ofList ∘ String.toList = id from
      funext fun _ => String.ofList_toList, List.map_id]
  rw [Path.parse?, dotted.text_path, String.toList_ofList, dotted.pieces_source]
  simp only [someEach, Bool.false_eq_true, if_false, sameEach]
  rfl

end Paths

end Written

/-- The path that a node of a kind holds: one that is shown, or one that leads to the
collection of a loop. -/
def NodeKind.path? : NodeKind → Option Path
  | .interpolation (.path path) => some path
  | .loop head => some head.collection
  | _ => none

/-- Whether a node of a kind is written as a piece of text as far as it holds a path. -/
def NodeKind.SpellsPath (piece : List Char) : NodeKind → Prop
  | .interpolation (.path path) =>
      ∃ shown : Written.Shown, shown.dotted.path = path ∧ shown.source = piece
  | .loop head => ∃ header : Written.Header, header.loop = head ∧ header.source ++ ['{'] = piece
  | _ => True

/-- Whether the path that a node holds is written in a source where the node stands. -/
def NodeKind.PathStands (source : List Char) (kind : NodeKind) (position : Position) : Prop :=
  kind.path?.isSome = true →
    ∃ before piece, before ++ piece <+: source ∧ position.Marks before piece ∧
      kind.SpellsPath piece

end TemplateCompiler
