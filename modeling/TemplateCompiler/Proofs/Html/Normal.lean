import TemplateCompiler.Html.Render
import TemplateCompiler.Parse.Tag
import TemplateCompiler.Proofs.Lex.Recognition

/-!
# Documents up to layout

Rendering adds white space around texts and leaves empty values of attributes
out, so a document can be read back only up to these.  Its normal form has its
texts trimmed, without those of which nothing is left, and has no empty values.

A document is plain when none of its parts can be taken for other markup than
what it is.
-/

namespace TemplateCompiler

namespace Text

section Trimming

/-- A text of nothing but white space. -/
def AllWhite (text : List Char) : Prop :=
  ∀ c ∈ text, isWhiteSpace c = true

variable {text white : List Char}

theorem trimList_white_append (allWhite : AllWhite white) :
    trimList (white ++ text) = trimList text := by
  rw [trimList, List.dropWhile_append_of_pos allWhite, trimList]

theorem trimList_append_white (allWhite : AllWhite white) :
    trimList (text ++ white) = trimList text := by
  have noneLeft : white.dropWhile isWhiteSpace = [] := List.dropWhile_eq_nil_iff.2 allWhite
  have reversed : ∀ c ∈ white.reverse, isWhiteSpace c = true := fun c member =>
    allWhite c (List.mem_reverse.1 member)
  rw [trimList, trimList, List.dropWhile_append]
  split
  · next empty => rw [noneLeft, List.isEmpty_iff.1 empty]
  · rw [List.reverse_append, List.dropWhile_append_of_pos reversed]

/-- What is trimmed from a text is white space. -/
theorem exists_white_around (text : List Char) :
    ∃ before after, AllWhite before ∧ AllWhite after ∧
      text = before ++ (trimList text ++ after) := by
  let behind := text.dropWhile isWhiteSpace
  refine ⟨text.takeWhile isWhiteSpace, (behind.reverse.takeWhile isWhiteSpace).reverse,
    fun c member => List.mem_takeWhile_imp member,
    fun c member => List.mem_takeWhile_imp (List.mem_reverse.1 member), ?_⟩
  rw [trimList, ← List.reverse_append, List.takeWhile_append_dropWhile, List.reverse_reverse,
    List.takeWhile_append_dropWhile]

theorem trimList_trimList (text : List Char) : trimList (trimList text) = trimList text := by
  obtain ⟨before, after, whiteBefore, whiteAfter, textEq⟩ := exists_white_around text
  have trimmed : trimList text = trimList (before ++ (trimList text ++ after)) :=
    congrArg trimList textEq
  rw [trimList_white_append whiteBefore, trimList_append_white whiteAfter] at trimmed
  exact trimmed.symm

theorem mem_of_mem_trimList {c : Char} (member : c ∈ trimList text) : c ∈ text := by
  obtain ⟨before, after, -, -, textEq⟩ := exists_white_around text
  rw [textEq]
  exact List.mem_append_right _ (List.mem_append_left _ member)

end Trimming

end Text

/-- An attribute without an empty value. -/
def Attribute.normal (item : Attribute) : Attribute :=
  { item with value := item.value.filter fun value => !value.isEmpty }

theorem Attribute.normal_normal (item : Attribute) : item.normal.normal = item.normal := by
  simp [normal]

namespace Html

namespace Node

/-- A text without white space at its ends, if anything is left. -/
def normalText (content : String) (raw : Bool) : List Node :=
  let trimmed := Text.trim content
  if trimmed.isEmpty then [] else [.text trimmed raw]

mutual

/-- The normal form of a node, which is no node for a text without content. -/
def normal : Node → List Node
  | .text content raw => normalText content raw
  | .comment content => [.comment content]
  | .element name attributes children =>
      [.element name (attributes.map Attribute.normal) (normals children)]

/-- The normal forms of nodes. -/
def normals : List Node → List Node
  | [] => []
  | first :: others => normal first ++ normals others

end

/-- Only what is trimmed from a text counts in its normal form. -/
theorem normalText_congr {first second : List Char} (raw : Bool)
    (trimEq : Text.trimList first = Text.trimList second) :
    normalText (String.ofList first) raw = normalText (String.ofList second) raw := by
  simp only [normalText, Text.trim, String.toList_ofList, trimEq]

theorem normalText_white {white : List Char} (raw : Bool) (allWhite : Text.AllWhite white) :
    normalText (String.ofList white) raw = [] := by
  have trimEq : Text.trimList ([] ++ white) = Text.trimList [] :=
    Text.trimList_append_white allWhite
  rw [List.nil_append] at trimEq
  rw [normalText_congr raw trimEq]
  rfl

end Node

end Html

section Plain

/-- A text that is read as nothing but text. -/
def IsPlainText (text : List Char) : Prop :=
  ∀ c ∈ text, c ∉ ['<', '{', '}', '@', '&']

theorem IsPlainText.append {first second : List Char} (plain : IsPlainText first)
    (plainThen : IsPlainText second) : IsPlainText (first ++ second) := by
  intro c member
  rcases List.mem_append.1 member with member | member
  · exact plain c member
  · exact plainThen c member

/-- An attribute with a name that is admitted, the value of which needs no
escapes. -/
@[mk_iff]
structure Attribute.IsPlain (admits : String → Prop) (item : Attribute) : Prop where
  named : admits item.name
  unescaped : ∀ value ∈ item.value, '"' ∉ value.toList ∧ '\\' ∉ value.toList

namespace Html

namespace Node

def IsText : Node → Prop
  | .text _ _ => True
  | _ => False

theorem exists_of_isText {node : Node} (isText : node.IsText) :
    ∃ content raw, node = .text content raw := by
  cases node with
  | text content raw => exact ⟨content, raw, rfl⟩
  | comment content => exact isText.elim
  | element name attributes children => exact isText.elim

/-- The start tag of an element is read as one, and the content of the element as
markup. -/
@[mk_iff]
structure IsPlainElement (admits : String → Prop) (name : String)
    (attributes : List Attribute) (children : List Node) : Prop where
  named : IsPlainName name
  markup : isRawTextElement name = false
  void : Parser.isVoid name = true → children = []
  attributes : ∀ item ∈ attributes, item.IsPlain admits

variable (admits : String → Prop)

mutual

/-- Whether nothing in a node can be taken for other markup than it is, when
attributes have names that are admitted. -/
def IsPlain : Node → Prop
  | .text content raw => raw = false ∧ IsPlainText content.toList
  | .comment content => ¬['-', '-', '>'] <:+: content.toList
  | .element name attributes children =>
      IsPlainElement admits name attributes children ∧ AllPlain children

/-- The same for nodes that follow each other, no two texts of which are
neighbours. -/
def AllPlain : List Node → Prop
  | [] => True
  | first :: others =>
      IsPlain first ∧ (first.IsText → ∀ next ∈ others.head?, ¬next.IsText) ∧ AllPlain others

end

end Node

end Html

end Plain

end TemplateCompiler
