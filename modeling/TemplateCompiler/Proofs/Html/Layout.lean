import TemplateCompiler.Proofs.Html.Normal

/-!
# What layout adds to a document

The characters of the emissions of a node, apart from the layout: in every mode
only blanks and line breaks are added around a node, and a text keeps what is
left when it is trimmed.
-/

namespace TemplateCompiler

namespace Html

/-- The characters that emissions make up. -/
def characters (emissions : List Emission) : List Char :=
  emissions.flatMap fun emission => emission.written.toList

@[simp]
theorem characters_nil : characters [] = [] :=
  rfl

@[simp]
theorem characters_cons (emission : Emission) (emissions : List Emission) :
    characters (emission :: emissions) = emission.written.toList ++ characters emissions :=
  rfl

@[simp]
theorem characters_append (first second : List Emission) :
    characters (first ++ second) = characters first ++ characters second :=
  List.flatMap_append

theorem toList_write (emissions : List Emission) :
    (write emissions).toList = characters emissions := by
  simp [write, characters, List.flatMap_def, Function.comp_def]

section Layout

/-- Characters that layout consists of. -/
def IsLayout (text : List Char) : Prop :=
  ∀ c ∈ text, c = ' ' ∨ c = '\n'

theorem isLayout_nil : IsLayout [] :=
  fun _ impossible => by cases impossible

theorem isLayout_newline : IsLayout (Emission.written .newline).toList := by
  simp [IsLayout, Emission.written]

theorem isLayout_indent (blanks : Nat) : IsLayout (Emission.written (.indent blanks)).toList := by
  intro c member
  rw [Emission.written, String.toList_ofList] at member
  exact .inl (List.eq_of_mem_replicate member)

variable {text : List Char}

theorem IsLayout.allWhite (isLayout : IsLayout text) : Text.AllWhite text := by
  intro c member
  rcases isLayout c member with rfl | rfl <;> rfl

theorem IsLayout.isSpaces (isLayout : IsLayout text) : Text.IsSpaces text := by
  intro c member
  rcases isLayout c member with rfl | rfl <;> rfl

theorem IsLayout.isPlainText (isLayout : IsLayout text) : IsPlainText text := by
  intro c member
  rcases isLayout c member with rfl | rfl <;> decide

end Layout

/-- A text with some layout before and behind it. -/
def LaysOut (text laidOut : List Char) : Prop :=
  ∃ before after, IsLayout before ∧ IsLayout after ∧ laidOut = before ++ (text ++ after)

theorem LaysOut.refl (text : List Char) : LaysOut text text :=
  ⟨[], [], isLayout_nil, isLayout_nil, by simp⟩

/-- Layout before and behind some emissions. -/
theorem laysOut_between {before after : Emission} (layoutBefore : IsLayout before.written.toList)
    (layoutAfter : IsLayout after.written.toList) (emissions : List Emission) :
    LaysOut (characters emissions) (characters (before :: (emissions ++ [after]))) :=
  ⟨_, _, layoutBefore, layoutAfter, by simp⟩

theorem LaysOut.trimList_eq {text laidOut : List Char} (laysOut : LaysOut text laidOut) :
    Text.trimList laidOut = Text.trimList text := by
  obtain ⟨before, after, layoutBefore, layoutAfter, rfl⟩ := laysOut
  rw [Text.trimList_white_append layoutBefore.allWhite,
    Text.trimList_append_white layoutAfter.allWhite]

theorem LaysOut.isPlainText {text laidOut : List Char} (laysOut : LaysOut text laidOut)
    (plain : IsPlainText text) : IsPlainText laidOut := by
  obtain ⟨before, after, layoutBefore, layoutAfter, rfl⟩ := laysOut
  exact layoutBefore.isPlainText.append (plain.append layoutAfter.isPlainText)

namespace Node

variable (settings : Settings) (depth : Nat)

theorem laysOut_ownLine (emissions : List Emission) :
    LaysOut (characters emissions) (characters (ownLine settings depth emissions)) := by
  unfold ownLine
  split
  · exact laysOut_between (isLayout_indent _) isLayout_newline _
  · exact .refl _

/-- A text that is laid out has its content in it, or the content without white
space at its ends. -/
theorem laysOut_text (content : String) :
    ∃ kept, (kept = content.toList ∨ kept = Text.trimList content.toList) ∧
      LaysOut kept (characters (layOutText settings depth content)) := by
  have trimmedEq : characters [.text (Text.trim content)] = Text.trimList content.toList := by
    simp [Emission.written, Text.trim]
  have contentEq : characters [.text content] = content.toList := by simp [Emission.written]
  have aroundLine (kept : String) := laysOut_between (isLayout_indent (depth * settings.indent))
    isLayout_newline [.text kept]
  unfold layOutText
  cases settings.mode with
  | minify => exact ⟨_, .inr trimmedEq, .refl _⟩
  | preserve => exact ⟨_, .inl contentEq, aroundLine content⟩
  | pretty =>
      simp only
      split
      · next empty =>
          rw [String.isEmpty_iff.1 empty] at trimmedEq
          exact ⟨[], .inr trimmedEq, .refl _⟩
      · exact ⟨_, .inr trimmedEq, aroundLine (Text.trim content)⟩

theorem trimList_layOutText (content : String) :
    Text.trimList (characters (layOutText settings depth content)) =
      Text.trimList content.toList := by
  obtain ⟨kept, keptEq, laysOut⟩ := laysOut_text settings depth content
  rw [laysOut.trimList_eq]
  rcases keptEq with rfl | rfl
  · rfl
  · exact Text.trimList_trimList _

theorem isPlainText_layOutText {content : String} (plain : IsPlainText content.toList) :
    IsPlainText (characters (layOutText settings depth content)) := by
  obtain ⟨kept, keptEq, laysOut⟩ := laysOut_text settings depth content
  apply laysOut.isPlainText
  rcases keptEq with rfl | rfl
  · exact plain
  · exact fun c member => plain c (Text.mem_of_mem_trimList member)

/-- An element without content is a tag, with some blank before its slash. -/
theorem laysOut_empty (name : String) (attributes : List Attribute) :
    ∃ blanks, IsLayout blanks ∧
      LaysOut (characters (tagEmissions name attributes) ++ (blanks ++ ['/', '>']))
        (characters (layOut settings depth (.element name attributes []))) := by
  have laysOut (ending : String) := laysOut_ownLine settings depth
    (tagEmissions name attributes ++ [.text ending])
  simp only [characters_append, characters_cons, characters_nil, List.append_nil,
    Emission.written] at laysOut
  rw [layOut]
  split
  · exact ⟨[], isLayout_nil, laysOut "/>"⟩
  · exact ⟨[' '], by simp [IsLayout], laysOut " />"⟩

/-- What stands between the tags of an element is its content with layout
around. -/
theorem layOutElement_eq (name : String) (attributes : List Attribute)
    (content : List Emission) :
    ∃ inner, LaysOut (characters content) inner ∧
      LaysOut (characters (tagEmissions name attributes) ++
          (['>'] ++ (inner ++ characters (endTagEmissions name))))
        (characters (layOutElement settings depth name attributes content)) := by
  let inner :=
    if settings.mode = .pretty then
      .newline :: (content ++ [.indent (depth * settings.indent)])
    else content
  have laysOutInner : LaysOut (characters content) (characters inner) := by
    unfold inner
    split
    · exact laysOut_between isLayout_newline (isLayout_indent _) _
    · exact .refl _
  have writtenEq : characters (tagEmissions name attributes ++ [.text ">"] ++ inner ++
      endTagEmissions name) = characters (tagEmissions name attributes) ++
        (['>'] ++ (characters inner ++ characters (endTagEmissions name))) := by
    simp [Emission.written]
  refine ⟨characters inner, laysOutInner, ?_⟩
  rw [← writtenEq]
  exact laysOut_ownLine settings depth _

end Node

end Html

end TemplateCompiler
