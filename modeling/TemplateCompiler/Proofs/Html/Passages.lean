import TemplateCompiler.Html.Render

/-!
# Passages of the output

The output of a document is divided into passages: the scripts and styles that
have content, each from its start tag to its end tag, and single emissions for
all the rest.  The passages make up exactly what is rendered.  Which scripts and
styles there are, and what is between their tags, does not depend on the
settings.
-/

namespace TemplateCompiler

namespace Html

/-- Whether the content of elements of a name is code. -/
def embedsCode (name : String) : Bool :=
  Text.equalIgnoreCase name.toList "script".toList ||
    Text.equalIgnoreCase name.toList "style".toList

/-- A script or a style with what is written between its tags. -/
structure CodeElement where
  name : String
  attributes : List Attribute
  content : List Emission

/-- A part of the output. -/
inductive Passage where
  | plain (emission : Emission)
  | code (element : CodeElement)

namespace Passage

def emissions : Passage → List Emission
  | .plain emission => [emission]
  | .code element =>
      tagEmissions element.name element.attributes ++ [.text ">"] ++ element.content
        ++ endTagEmissions element.name

def code? : Passage → Option CodeElement
  | .plain _ => none
  | .code element => some element

@[simp]
theorem emissions_plain (emission : Emission) :
    (Passage.plain emission).emissions = [emission] :=
  rfl

@[simp]
theorem code?_plain (emission : Emission) : code? (.plain emission) = none :=
  rfl

def plains (emissions : List Emission) : List Passage :=
  emissions.map .plain

@[simp]
theorem flatMap_plains (emissions : List Emission) :
    (plains emissions).flatMap Passage.emissions = emissions := by
  rw [plains, List.flatMap_map]
  exact List.flatMap_singleton' emissions

@[simp]
theorem filterMap_plains (emissions : List Emission) :
    (plains emissions).filterMap code? = [] := by
  simp [plains, List.filterMap_map, Function.comp_def]

end Passage

namespace Node

open Passage

mutual

/-- The passages of a node inside an element whose content is left as it is. -/
def verbatimPassages : Node → List Passage
  | .text content _ => [.plain (.text content)]
  | .comment content => plains (commentEmissions content)
  | .element name attributes children =>
      match children with
      | [] => plains (tagEmissions name attributes ++ [.text "/>"])
      | first :: others =>
          if embedsCode name then [.code ⟨name, attributes, verbatims (first :: others)⟩]
          else
            plains (tagEmissions name attributes ++ [.text ">"])
              ++ (verbatimPassages first ++ verbatimsPassages others)
              ++ plains (endTagEmissions name)

def verbatimsPassages : List Node → List Passage
  | [] => []
  | first :: others => verbatimPassages first ++ verbatimsPassages others

end

/-- Passages on a line of their own in pretty mode. -/
def ownLinePassages (settings : Settings) (depth : Nat) (passages : List Passage) :
    List Passage :=
  if settings.mode = .pretty then
    .plain (.indent (depth * settings.indent)) :: (passages ++ [.plain .newline])
  else passages

/-- The passages of an element with content that is laid out. -/
def elementPassages (settings : Settings) (depth : Nat) (name : String)
    (attributes : List Attribute) (content : List Passage) : List Passage :=
  let inner :=
    if settings.mode = .pretty then
      .plain .newline :: (content ++ [.plain (.indent (depth * settings.indent))])
    else content
  ownLinePassages settings depth
    (plains (tagEmissions name attributes ++ [.text ">"]) ++ inner
      ++ plains (endTagEmissions name))

mutual

/-- The passages of a node at a depth. -/
def passages (settings : Settings) (depth : Nat) : Node → List Passage
  | .text content raw => plains (layOut settings depth (.text content raw))
  | .comment content => plains (layOut settings depth (.comment content))
  | .element name attributes children =>
      match children with
      | [] => plains (layOut settings depth (.element name attributes []))
      | first :: others =>
          if embedsCode name then
            ownLinePassages settings depth [.code ⟨name, attributes, verbatims (first :: others)⟩]
          else if isRawTextElement name then
            ownLinePassages settings depth
              (plains (tagEmissions name attributes ++ [.text ">"])
                ++ verbatimsPassages (first :: others) ++ plains (endTagEmissions name))
          else
            elementPassages settings depth name attributes
              (passages settings (depth + 1) first ++ passagesAll settings (depth + 1) others)

def passagesAll (settings : Settings) (depth : Nat) : List Node → List Passage
  | [] => []
  | first :: others => passages settings depth first ++ passagesAll settings depth others

end

mutual

/-- The scripts and styles with content at or below a node, in order. -/
def codes : Node → List CodeElement
  | .text _ _ | .comment _ => []
  | .element name attributes children =>
      if embedsCode name then
        match children with
        | [] => []
        | first :: others => [⟨name, attributes, verbatims (first :: others)⟩]
      else codesAll children

def codesAll : List Node → List CodeElement
  | [] => []
  | first :: others => codes first ++ codesAll others

end

theorem codesAll_append (first second : List Node) :
    codesAll (first ++ second) = codesAll first ++ codesAll second := by
  induction first with
  | nil => rfl
  | cons node first ih => rw [List.cons_append, codesAll, codesAll, ih, List.append_assoc]

variable (settings : Settings) (depth : Nat)

theorem flatMap_ownLinePassages (passages : List Passage) :
    (ownLinePassages settings depth passages).flatMap Passage.emissions =
      ownLine settings depth (passages.flatMap Passage.emissions) := by
  unfold ownLinePassages ownLine
  split <;> simp

theorem filterMap_ownLinePassages (passages : List Passage) :
    (ownLinePassages settings depth passages).filterMap code? = passages.filterMap code? := by
  unfold ownLinePassages
  split
  · simp [List.filterMap_cons]
  · rfl

theorem flatMap_elementPassages (name : String) (attributes : List Attribute)
    (content : List Passage) :
    (elementPassages settings depth name attributes content).flatMap Passage.emissions =
      layOutElement settings depth name attributes (content.flatMap Passage.emissions) := by
  rw [elementPassages, flatMap_ownLinePassages, layOutElement]
  congr 1
  split <;> simp

theorem filterMap_elementPassages (name : String) (attributes : List Attribute)
    (content : List Passage) :
    (elementPassages settings depth name attributes content).filterMap code? =
      content.filterMap code? := by
  rw [elementPassages, filterMap_ownLinePassages]
  split <;> simp [List.filterMap_cons]

/-- The content of scripts and styles is left as it is. -/
theorem isRawTextElement_of_embedsCode {name : String} (embeds : embedsCode name = true) :
    isRawTextElement name = true := by
  simp only [embedsCode, Text.equalIgnoreCase_comm name.toList, Bool.or_eq_true] at embeds
  rcases embeds with script | style
  · exact List.any_eq_true.2 ⟨"script", by decide, script⟩
  · exact List.any_eq_true.2 ⟨"style", by decide, style⟩

mutual

theorem flatMap_verbatimPassages :
    (node : Node) → (verbatimPassages node).flatMap Passage.emissions = verbatim node
  | .text content raw => rfl
  | .comment content => flatMap_plains _
  | .element name attributes children => by
      cases children with
      | nil => exact flatMap_plains _
      | cons first others =>
          have content := flatMap_verbatimPassages first
          have contentThen := flatMap_verbatimsPassages others
          simp only [verbatimPassages, verbatim]
          split
          · simp [Passage.emissions, verbatims]
          · simp only [List.flatMap_append, flatMap_plains, content, contentThen]

theorem flatMap_verbatimsPassages :
    (nodes : List Node) → (verbatimsPassages nodes).flatMap Passage.emissions = verbatims nodes
  | [] => rfl
  | first :: others => by
      rw [verbatimsPassages, verbatims, List.flatMap_append, flatMap_verbatimPassages first,
        flatMap_verbatimsPassages others]

end

mutual

theorem flatMap_passages (depth : Nat) :
    (node : Node) → (passages settings depth node).flatMap Passage.emissions =
      layOut settings depth node
  | .text content raw => flatMap_plains _
  | .comment content => flatMap_plains _
  | .element name attributes children => by
      cases children with
      | nil => exact flatMap_plains _
      | cons first others =>
          have content := flatMap_passages (depth + 1) first
          have contentThen := flatMap_passagesAll (depth + 1) others
          simp only [passages, layOut]
          split
          · next embeds =>
              rw [flatMap_ownLinePassages, if_pos (isRawTextElement_of_embedsCode embeds)]
              simp [Passage.emissions]
          · split
            · rw [flatMap_ownLinePassages]
              simp only [List.flatMap_append, flatMap_plains, flatMap_verbatimsPassages]
            · rw [flatMap_elementPassages, List.flatMap_append, content, contentThen]

theorem flatMap_passagesAll (depth : Nat) :
    (nodes : List Node) → (passagesAll settings depth nodes).flatMap Passage.emissions =
      layOuts settings depth nodes
  | [] => rfl
  | first :: others => by
      rw [passagesAll, layOuts, List.flatMap_append, flatMap_passages depth first,
        flatMap_passagesAll depth others]

end

mutual

theorem filterMap_verbatimPassages :
    (node : Node) → (verbatimPassages node).filterMap code? = codes node
  | .text content raw => rfl
  | .comment content => filterMap_plains _
  | .element name attributes children => by
      cases children with
      | nil => simp [verbatimPassages, codes, codesAll]
      | cons first others =>
          have content := filterMap_verbatimPassages first
          have contentThen := filterMap_verbatimsPassages others
          simp only [verbatimPassages, codes, codesAll]
          split
          · rfl
          · simp [content, contentThen]

theorem filterMap_verbatimsPassages :
    (nodes : List Node) → (verbatimsPassages nodes).filterMap code? = codesAll nodes
  | [] => rfl
  | first :: others => by
      rw [verbatimsPassages, codesAll, List.filterMap_append, filterMap_verbatimPassages first,
        filterMap_verbatimsPassages others]

end

mutual

/-- Whatever the settings are, the scripts and styles are the same. -/
theorem filterMap_passages (depth : Nat) :
    (node : Node) → (passages settings depth node).filterMap code? = codes node
  | .text content raw => filterMap_plains _
  | .comment content => filterMap_plains _
  | .element name attributes children => by
      cases children with
      | nil => simp [passages, codes, codesAll]
      | cons first others =>
          have content := filterMap_passages (depth + 1) first
          have contentThen := filterMap_passagesAll (depth + 1) others
          simp only [passages, codes, codesAll]
          split
          · exact filterMap_ownLinePassages _ _ _
          · split
            · rw [filterMap_ownLinePassages]
              simp [filterMap_verbatimsPassages, codesAll]
            · rw [filterMap_elementPassages, List.filterMap_append, content, contentThen]

theorem filterMap_passagesAll (depth : Nat) :
    (nodes : List Node) → (passagesAll settings depth nodes).filterMap code? = codesAll nodes
  | [] => rfl
  | first :: others => by
      rw [passagesAll, codesAll, List.filterMap_append, filterMap_passages depth first,
        filterMap_passagesAll depth others]

end

end Node

namespace Document

/-- The passages of a document: what is rendered before its nodes, and those. -/
def passages (settings : Settings) (document : Document) : List Passage :=
  Passage.plains (({ document with children := [] } : Document).layOut settings)
    ++ Node.passagesAll settings 0 document.children

/-- The passages are what is rendered. -/
theorem flatMap_passages (settings : Settings) (document : Document) :
    (document.passages settings).flatMap Passage.emissions = document.layOut settings := by
  rw [passages, List.flatMap_append, Passage.flatMap_plains, Node.flatMap_passagesAll]
  simp [layOut, writtenDoctype?, Node.layOuts]

theorem filterMap_passages (settings : Settings) (document : Document) :
    (document.passages settings).filterMap Passage.code? = Node.codesAll document.children := by
  rw [passages, List.filterMap_append, Passage.filterMap_plains, Node.filterMap_passagesAll,
    List.nil_append]

end Document

end Html

end TemplateCompiler
