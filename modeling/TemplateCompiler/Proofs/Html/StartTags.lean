import TemplateCompiler.Html.Render

/-!
# Start tags of the output

The output for a document has a start tag for every element of the document, in the
order of the elements, whatever the settings are.
-/

namespace TemplateCompiler

namespace Html

/-- What is written for an element before its content. -/
structure StartTag where
  name : String
  attributes : List Attribute

namespace StartTag

/-- The ends of start tags, with and without content behind them. -/
def endings : List String :=
  [">", "/>", " />"]

def emissions (tag : StartTag) (ending : String) : List Emission :=
  tagEmissions tag.name tag.attributes ++ [.text ending]

end StartTag

/-- Whether emissions have some start tags among them, one after the other. -/
inductive Tagged : List StartTag → List Emission → Prop
  | nil : Tagged [] []
  | other {tags : List StartTag} {emissions : List Emission} (emission : Emission)
      (later : Tagged tags emissions) : Tagged tags (emission :: emissions)
  | tag {tags : List StartTag} {emissions : List Emission} (tag : StartTag) {ending : String}
      (isEnding : ending ∈ StartTag.endings) (later : Tagged tags emissions) :
      Tagged (tag :: tags) (tag.emissions ending ++ emissions)

namespace Tagged

variable {tags others : List StartTag} {emissions laterEmissions : List Emission}

theorem append (tagged : Tagged tags emissions) (later : Tagged others laterEmissions) :
    Tagged (tags ++ others) (emissions ++ laterEmissions) := by
  induction tagged with
  | nil => exact later
  | other emission _ ih => exact .other emission ih
  | tag tag isEnding _ ih =>
      rw [List.append_assoc]
      exact .tag tag isEnding ih

theorem untagged (emissions : List Emission) : Tagged [] emissions := by
  induction emissions with
  | nil => exact .nil
  | cons emission emissions ih => exact .other emission ih

/-- What stands behind start tags adds none. -/
theorem before (tagged : Tagged tags emissions) (later : List Emission) :
    Tagged tags (emissions ++ later) := by
  simpa using tagged.append (untagged later)

/-- A start tag with nothing but its content behind it. -/
theorem element {name : String} {attributes : List Attribute} {ending : String}
    (isEnding : ending ∈ StartTag.endings) (content : Tagged tags emissions)
    (endTag : List Emission) :
    Tagged (⟨name, attributes⟩ :: tags)
      (tagEmissions name attributes ++ [.text ending] ++ emissions ++ endTag) := by
  rw [List.append_assoc]
  exact .tag ⟨name, attributes⟩ isEnding (content.before endTag)

theorem ownLine (tagged : Tagged tags emissions) (settings : Settings) (depth : Nat) :
    Tagged tags (Node.ownLine settings depth emissions) := by
  unfold Node.ownLine
  split
  · exact .other _ (tagged.before _)
  · exact tagged

theorem layOutElement (settings : Settings) (depth : Nat) (name : String)
    (attributes : List Attribute) (content : Tagged tags emissions) :
    Tagged (⟨name, attributes⟩ :: tags)
      (Node.layOutElement settings depth name attributes emissions) := by
  apply ownLine
  refine element (by decide) ?_ _
  split
  · exact .other _ (content.before _)
  · exact content

end Tagged

namespace Node

mutual

/-- The start tags of a node and of the nodes below it, each before those of its
children. -/
def startTags : Node → List StartTag
  | .text _ _ | .comment _ => []
  | .element name attributes children => ⟨name, attributes⟩ :: startTagsAll children

/-- The start tags of nodes and of the nodes below them. -/
def startTagsAll : List Node → List StartTag
  | [] => []
  | first :: others => startTags first ++ startTagsAll others

end

theorem startTagsAll_append (first second : List Node) :
    startTagsAll (first ++ second) = startTagsAll first ++ startTagsAll second := by
  induction first with
  | nil => rfl
  | cons node first ih =>
      rw [List.cons_append, startTagsAll, startTagsAll, ih, List.append_assoc]

/-- An element without content. -/
theorem tagged_empty (name : String) (attributes : List Attribute) {ending : String}
    (isEnding : ending ∈ StartTag.endings) :
    Tagged [⟨name, attributes⟩] (tagEmissions name attributes ++ [.text ending]) := by
  have tagged : Tagged [⟨name, attributes⟩] _ := .element isEnding .nil []
  simpa using tagged

mutual

theorem tagged_verbatim : ∀ node : Node, Tagged node.startTags node.verbatim
  | .text _ _ | .comment _ => .untagged _
  | .element name attributes [] => tagged_empty name attributes (by decide)
  | .element _ _ (first :: others) =>
      .element (by decide) ((tagged_verbatim first).append (tagged_verbatims others)) _

theorem tagged_verbatims : ∀ nodes : List Node, Tagged (startTagsAll nodes) (verbatims nodes)
  | [] => .nil
  | first :: others => (tagged_verbatim first).append (tagged_verbatims others)

end

variable (settings : Settings)

mutual

theorem tagged_layOut : ∀ (node : Node) (depth : Nat),
    Tagged node.startTags (node.layOut settings depth)
  | .text _ _, _ | .comment _, _ => .untagged _
  | .element name attributes [], depth => by
      rw [layOut]
      refine (tagged_empty name attributes ?_).ownLine settings depth
      split <;> decide
  | .element name attributes (first :: others), depth => by
      rw [layOut, startTags]
      split
      · have content := tagged_verbatims (first :: others)
        exact (Tagged.element (by decide) content _).ownLine settings depth
      · have content := tagged_layOuts (first :: others) (depth + 1)
        exact content.layOutElement settings depth name attributes

theorem tagged_layOuts : ∀ (nodes : List Node) (depth : Nat),
    Tagged (startTagsAll nodes) (layOuts settings depth nodes)
  | [], _ => .nil
  | first :: others, depth =>
      (tagged_layOut first depth).append (tagged_layOuts others depth)

end

end Node

/-- The emissions of a document have the start tags of its elements. -/
theorem Document.tagged_layOut (document : Document) (settings : Settings) :
    Tagged (Node.startTagsAll document.children) (document.layOut settings) :=
  (Tagged.untagged _).append (Node.tagged_layOuts settings document.children 0)

end Html

end TemplateCompiler
