import TemplateCompiler.Proofs.Compile.Concatenation
import TemplateCompiler.Proofs.Lex.LineBreaks

/-!
# Elements whose content is left as it is

An element such as `pre` is written the same wherever it stands and in whatever mode: its
tags, and between them its content without a character added or taken away.  What is around
it decides only how far its line is indented, and that in pretty mode alone.

A place in a document is what is left of it when a node is taken out.  The induction is on
the elements around the place: each adds some text before what is inside it and some behind,
and neither depends on what that is.
-/

namespace TemplateCompiler

namespace Html

/-- The text of an attribute in a tag. -/
def attributeText (item : Attribute) : String :=
  match item.value with
  | none | some "" => " " ++ item.name
  | some value => " " ++ item.name ++ "=\"" ++ value ++ "\""

/-- A start tag without what ends it. -/
def tagText (name : String) (attributes : List Attribute) : String :=
  "<" ++ name ++ String.join (attributes.map attributeText)

/-- Whether a name is, in some case, one of an element whose content is left as it is. -/
def IsRawTextName (name : String) : Prop :=
  name.toLower ∈ ["pre", "textarea", "script", "style", "xmp"]

namespace Node

mutual

/-- The text of a node as it is. -/
def plainly : Node → String
  | .text content _ => content
  | .comment content => "<!--" ++ content ++ "-->"
  | .element name attributes children =>
      match children with
      | [] => tagText name attributes ++ "/>"
      | first :: others =>
          tagText name attributes ++ ">" ++ (plainly first ++ allPlainly others)
            ++ "</" ++ name ++ ">"

/-- The text of some nodes as they are, one behind the other. -/
def allPlainly : List Node → String
  | [] => ""
  | first :: others => plainly first ++ allPlainly others

end

end Node

/-- An element without one of the nodes in it. -/
structure Frame where
  name : String
  attributes : List Attribute
  before : List Node
  after : List Node

/-- The element with a node at the place that is left. -/
def Frame.around (frame : Frame) (node : Node) : Node :=
  .element frame.name frame.attributes (frame.before ++ node :: frame.after)

/-- A document without one of the nodes in it, which stood within some elements, the outermost
of them first. -/
structure Place where
  doctype : Option String
  before : List Node
  after : List Node
  frames : List Frame

/-- The document with a node at the place that is left. -/
def Place.fill (place : Place) (node : Node) : Document :=
  ⟨place.doctype, place.before ++ place.frames.foldr Frame.around node :: place.after⟩

@[simp]
theorem write_nil : write [] = "" :=
  rfl

@[simp]
theorem write_cons (emission : Emission) (emissions : List Emission) :
    write (emission :: emissions) = emission.written ++ write emissions := by
  simp [write]

theorem isRawTextElement_iff (name : String) :
    isRawTextElement name = true ↔ IsRawTextName name := by
  have lower : ∀ other ∈ rawTextElements, other.toList.map Char.toLower = other.toList := by
    decide
  have lowered : name.toLower.toList = name.toList.map Char.toLower := String.toList_map
  have same : ∀ other ∈ rawTextElements,
      Text.equalIgnoreCase other.toList name.toList = true ↔ name.toLower = other := by
    intro other member
    rw [Text.equalIgnoreCase_iff, lower other member, ← String.toList_inj, lowered, eq_comm]
  simp only [isRawTextElement, List.any_eq_true, IsRawTextName]
  constructor
  · rintro ⟨other, member, equal⟩
    rw [(same other member).1 equal]
    exact member
  · intro member
    exact ⟨name.toLower, member, (same _ member).2 rfl⟩

theorem write_attributeEmissions (item : Attribute) :
    write (attributeEmissions item) = attributeText item := by
  obtain ⟨name, value⟩ := item
  cases value with
  | none => simp [attributeEmissions, attributeText, Emission.written]
  | some value =>
      by_cases empty : value = ""
      · simp [attributeEmissions, attributeText, Emission.written, empty]
      · simp [attributeEmissions, attributeText, Emission.written, empty, String.append_assoc]

theorem write_tagEmissions (name : String) (attributes : List Attribute) :
    write (tagEmissions name attributes) = tagText name attributes := by
  have attributesEq : write (attributes.flatMap attributeEmissions) =
      String.join (attributes.map attributeText) := by
    induction attributes with
    | nil => rfl
    | cons item attributes ih =>
        rw [List.flatMap_cons, write_append, write_attributeEmissions, ih, List.map_cons,
          String.join_cons]
  simp [tagEmissions, tagText, attributesEq, Emission.written, String.append_assoc]

/-- Whether some emissions are others with the same ones before and behind them, whatever
those are made for. -/
def Encloses {α : Type} (outer inner : α → List Emission) : Prop :=
  ∃ front back, ∀ node, outer node = front ++ inner node ++ back

theorem Encloses.refl {α : Type} (emissions : α → List Emission) : Encloses emissions emissions :=
  ⟨[], [], fun _ => by simp⟩

theorem Encloses.trans {α : Type} {first second third : α → List Emission}
    (encloses : Encloses first second) (enclosesThen : Encloses second third) :
    Encloses first third := by
  obtain ⟨front, back, firstEq⟩ := encloses
  obtain ⟨frontThen, backThen, secondEq⟩ := enclosesThen
  refine ⟨front ++ frontThen, backThen ++ back, fun node => ?_⟩
  rw [firstEq, secondEq]
  simp only [List.append_assoc]

theorem Encloses.comp {α β : Type} {outer inner : α → List Emission}
    (encloses : Encloses outer inner) (make : β → α) :
    Encloses (fun node => outer (make node)) (fun node => inner (make node)) := by
  obtain ⟨front, back, outerEq⟩ := encloses
  exact ⟨front, back, fun node => outerEq (make node)⟩

namespace Node

mutual

theorem write_verbatim : (node : Node) → write (verbatim node) = plainly node
  | .text content raw => by simp [verbatim, plainly, Emission.written]
  | .comment content => by
      simp [verbatim, plainly, commentEmissions, Emission.written, String.append_assoc]
  | .element name attributes [] => by
      simp [verbatim, plainly, write_append, write_tagEmissions, Emission.written]
  | .element name attributes (first :: others) => by
      simp [verbatim, plainly, write_append, write_tagEmissions, write_verbatim first,
        write_verbatims others, endTagEmissions, Emission.written, String.append_assoc]

theorem write_verbatims : (nodes : List Node) → write (verbatims nodes) = allPlainly nodes
  | [] => rfl
  | first :: others => by
      rw [verbatims, write_append, write_verbatim first, write_verbatims others, allPlainly]

end

/-- An emission on a line of its own in pretty mode, by itself in the others. -/
theorem write_ownLine (settings : Settings) (depth : Nat) (emissions : List Emission) :
    write (ownLine settings depth emissions) =
      if settings.mode = .pretty then
        String.ofList (List.replicate (depth * settings.indent) ' ') ++ write emissions ++ "\n"
      else write emissions := by
  unfold ownLine
  split <;> simp [write_append, Emission.written, String.append_assoc]

/-- An element with content that is laid out. -/
theorem layOut_laidOut (settings : Settings) (depth : Nat) {name : String}
    (laidOut : ¬ IsRawTextName name) (attributes : List Attribute) {children : List Node}
    (nonempty : children ≠ []) :
    layOut settings depth (.element name attributes children) =
      layOutElement settings depth name attributes (layOuts settings (depth + 1) children) := by
  cases children with
  | nil => contradiction
  | cons first others =>
      rw [layOut, if_neg fun isRaw => laidOut ((isRawTextElement_iff name).1 isRaw), layOuts]

variable {α : Type} (settings : Settings) (depth : Nat)

theorem encloses_ownLine (content : α → List Emission) :
    Encloses (fun node => ownLine settings depth (content node)) content := by
  unfold ownLine
  split
  · exact ⟨[.indent _], [.newline], fun node => rfl⟩
  · exact .refl content

theorem encloses_element (name : String) (attributes : List Attribute)
    (content : α → List Emission) :
    Encloses (fun node => layOutElement settings depth name attributes (content node)) content := by
  unfold layOutElement
  refine (encloses_ownLine settings depth _).trans ?_
  split
  · exact ⟨tagEmissions name attributes ++ [.text ">", .newline],
      .indent (depth * settings.indent) :: endTagEmissions name, fun node => by simp⟩
  · exact ⟨tagEmissions name attributes ++ [.text ">"], endTagEmissions name, fun node => rfl⟩

/-- An element that is laid out encloses whatever node is at a place in it. -/
theorem encloses_around {frame : Frame} (laidOut : ¬ IsRawTextName frame.name) :
    Encloses (fun node => layOut settings depth (frame.around node))
      (layOut settings (depth + 1)) := by
  obtain ⟨name, attributes, before, after⟩ := frame
  have nonempty (node : Node) : before ++ node :: after ≠ [] := by simp
  have content : Encloses (fun node => layOuts settings (depth + 1) (before ++ node :: after))
      (layOut settings (depth + 1)) := by
    refine ⟨layOuts settings (depth + 1) before, layOuts settings (depth + 1) after, fun node => ?_⟩
    simp only [layOuts_append, layOuts, List.append_assoc]
  simp only [Frame.around, layOut_laidOut settings depth laidOut attributes (nonempty _)]
  exact (encloses_element settings depth name attributes _).trans content

/-- Elements one within the other, the innermost around some node. -/
theorem encloses_arounds (frames : List Frame)
    (laidOut : ∀ frame ∈ frames, ¬ IsRawTextName frame.name) :
    Encloses (fun node => layOut settings depth (frames.foldr Frame.around node))
      (layOut settings (depth + frames.length)) := by
  induction frames generalizing depth with
  | nil => exact .refl _
  | cons frame frames ih =>
      obtain ⟨laidOutFirst, laidOutThen⟩ := List.forall_mem_cons.1 laidOut
      have outer := (encloses_around settings depth laidOutFirst).comp (frames.foldr Frame.around)
      rw [List.length_cons, Nat.add_comm frames.length, ← Nat.add_assoc]
      exact outer.trans (ih (depth + 1) laidOutThen)

/-- An element whose content is left as it is. -/
theorem write_rawText {name : String} (isRaw : IsRawTextName name) (attributes : List Attribute)
    {children : List Node} (nonempty : children ≠ []) :
    write (layOut settings depth (.element name attributes children)) =
      let written := tagText name attributes ++ ">" ++ allPlainly children ++ "</" ++ name ++ ">"
      if settings.mode = .pretty then
        String.ofList (List.replicate (depth * settings.indent) ' ') ++ written ++ "\n"
      else written := by
  have tagsEq : write (tagEmissions name attributes ++ [.text ">"] ++ verbatims children ++
        endTagEmissions name) =
      tagText name attributes ++ ">" ++ allPlainly children ++ "</" ++ name ++ ">" := by
    simp [write_append, write_tagEmissions, write_verbatims, endTagEmissions, Emission.written,
      String.append_assoc]
  cases children with
  | nil => contradiction
  | cons first others =>
      rw [layOut, if_pos ((isRawTextElement_iff name).2 isRaw), write_ownLine, tagsEq]

end Node

theorem Place.encloses_fill (place : Place) (settings : Settings)
    (laidOut : ∀ frame ∈ place.frames, ¬ IsRawTextName frame.name) :
    Encloses (fun node => (place.fill node).layOut settings)
      (Node.layOut settings place.frames.length) := by
  obtain ⟨doctype, before, after, frames⟩ := place
  have inside := Node.encloses_arounds settings 0 frames laidOut
  rw [Nat.zero_add] at inside
  refine Encloses.trans ⟨Document.layOut settings ⟨doctype, before⟩,
    Node.layOuts settings 0 after, fun node => ?_⟩ inside
  simp only [Document.layOut, fill, Node.layOuts_append, Node.layOuts, List.append_assoc]
  rfl

/-- An element whose content is left as it is has the same text at every place outside of other
such elements, in pretty mode on a line of its own.  What is written around it is what is
written there around any raw text. -/
theorem Place.render_rawText (place : Place) (settings : Settings)
    (laidOut : ∀ frame ∈ place.frames, ¬ IsRawTextName frame.name) :
    ∃ front back,
      (∀ content, (place.fill (.text content true)).render settings = front ++ content ++ back) ∧
      ∀ name attributes children, IsRawTextName name → children ≠ [] →
        (place.fill (.element name attributes children)).render settings =
          let written :=
            tagText name attributes ++ ">" ++ Node.allPlainly children ++ "</" ++ name ++ ">"
          front ++ (if settings.mode = .pretty then
              String.ofList (List.replicate (place.frames.length * settings.indent) ' ')
                ++ written ++ "\n"
            else written) ++ back := by
  obtain ⟨front, back, encloses⟩ := place.encloses_fill settings laidOut
  have renderEq (node : Node) : (place.fill node).render settings =
      write front ++ write (Node.layOut settings place.frames.length node) ++ write back := by
    have enclosed : (place.fill node).layOut settings = _ := encloses node
    rw [Document.render, enclosed, write_append, write_append]
  refine ⟨write front, write back, fun content => ?_, fun name attributes children isRaw full => ?_⟩
  · rw [renderEq]
    simp [Node.layOut, Emission.written]
  · rw [renderEq, Node.write_rawText settings place.frames.length isRaw attributes full]

/-- A place in an element that has more content before and behind it. -/
def Place.inDivision : Place :=
  ⟨none, [.comment "first"], [.text "last" false],
    [⟨"div", [⟨"id", some "a"⟩], [.text " b " false], [.element "br" [] []]⟩]⟩

/-- Content with white space, a tag, a comment and another element whose content is left as it
is. -/
def Node.mixedContent : List Node :=
  [.text " x\n" false, .element "br" [] [], .comment "y",
    .element "Script" [⟨"async", some ""⟩] [.text " 1 < 2" true]]

theorem Place.render_rawText_inDivision :
    ∃ front back,
      (inDivision.fill (.text "<raw>" true)).render .standard = front ++ "<raw>" ++ back ∧
      (inDivision.fill (.element "PRE" [⟨"class", some "k"⟩] Node.mixedContent)).render .standard =
        front ++ "  <PRE class=\"k\"> x\n<br/><!--y--><Script async> 1 < 2</Script></PRE>\n"
          ++ back := by
  have laidOut : ∀ frame ∈ inDivision.frames, ¬ IsRawTextName frame.name := by
    intro frame member
    obtain rfl := List.mem_singleton.1 member
    rw [← isRawTextElement_iff]
    decide
  obtain ⟨front, back, rawText, element⟩ := inDivision.render_rawText .standard laidOut
  refine ⟨front, back, rawText "<raw>", ?_⟩
  have isRaw : IsRawTextName "PRE" := (isRawTextElement_iff "PRE").1 (by decide)
  rw [element "PRE" [⟨"class", some "k"⟩] Node.mixedContent isRaw (List.cons_ne_nil _ _)]
  refine congrArg (front ++ · ++ back) ?_
  decide +kernel

end Html

end TemplateCompiler
