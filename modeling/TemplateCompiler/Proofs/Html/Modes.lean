import TemplateCompiler.Html.Render

/-!
# What the modes have in common

Each emission of a document is layout or some part of the document: content that
every mode writes as it is, a text that may be trimmed, or the end of the tag of
an element without content.  Apart from layout the modes write the same parts,
except that pretty mode leaves out the texts of which nothing is left when they
are trimmed.
-/

namespace TemplateCompiler

namespace Html

/-- What is passed on to be written as it is; layout is asked for by other
means. -/
def Emission.passed : Emission → String
  | .text content => content
  | .newline | .indent _ => ""

/-- What an emission stands for. -/
inductive Part where
  /-- Something that every mode writes as it is. -/
  | fixed (text : String)
  /-- A text that is not raw, outside of elements whose content is left as it
  is. -/
  | plainText (text : String)
  /-- The end of the tag of an element without content, outside of elements whose
  content is left as it is. -/
  | tagEnd
  | newline
  | indent (blanks : Nat)

namespace Part

/-- How a mode shows a text that may be trimmed. -/
def shownText (mode : Mode) (text : String) : String :=
  if mode = .preserve then text else Text.trim text

/-- The emission of a part in a mode. -/
def emission (mode : Mode) : Part → Emission
  | .fixed text => .text text
  | .plainText text => .text (shownText mode text)
  | .tagEnd => .text (if mode = .minify then "/>" else " />")
  | .newline => .newline
  | .indent blanks => .indent blanks

/-- What is passed on for a part in a mode, every end of a tag without content
counted alike. -/
def counted (mode : Mode) : Part → String
  | .tagEnd => "/>"
  | other => (other.emission mode).passed

/-- An emission that every mode writes as it is. -/
def ofEmission : Emission → Part
  | .text content => .fixed content
  | .newline => .newline
  | .indent blanks => .indent blanks

@[simp]
theorem emission_ofEmission (mode : Mode) (emission : Emission) :
    (ofEmission emission).emission mode = emission := by
  cases emission <;> rfl

/-- Emissions that every mode writes as they are. -/
def ofEmissions (emissions : List Emission) : List Part :=
  emissions.map ofEmission

/-- The emissions of parts in a mode. -/
def emissions (mode : Mode) (parts : List Part) : List Emission :=
  parts.map (emission mode)

@[simp]
theorem emissions_ofEmissions (mode : Mode) (emitted : List Emission) :
    emissions mode (ofEmissions emitted) = emitted := by
  simp [emissions, ofEmissions, Function.comp_def]

@[simp]
theorem emissions_append (mode : Mode) (first second : List Part) :
    emissions mode (first ++ second) = emissions mode first ++ emissions mode second :=
  List.map_append

@[simp]
theorem emissions_cons (mode : Mode) (part : Part) (parts : List Part) :
    emissions mode (part :: parts) = part.emission mode :: emissions mode parts :=
  rfl

@[simp]
theorem emissions_nil (mode : Mode) : emissions mode [] = [] :=
  rfl

/-- Everything that is passed on for parts in a mode, one after the other. -/
def countedAll (mode : Mode) (parts : List Part) : String :=
  String.join (parts.map (counted mode))

@[simp]
theorem countedAll_nil (mode : Mode) : countedAll mode [] = "" :=
  rfl

@[simp]
theorem countedAll_cons (mode : Mode) (part : Part) (parts : List Part) :
    countedAll mode (part :: parts) = part.counted mode ++ countedAll mode parts := by
  simp [countedAll]

@[simp]
theorem countedAll_append (mode : Mode) (first second : List Part) :
    countedAll mode (first ++ second) = countedAll mode first ++ countedAll mode second := by
  simp [countedAll]

@[simp]
theorem counted_newline (mode : Mode) : counted mode .newline = "" :=
  rfl

@[simp]
theorem counted_indent (mode : Mode) (blanks : Nat) : counted mode (.indent blanks) = "" :=
  rfl

/-- Pretty and minified, every part counts the same. -/
theorem counted_pretty (part : Part) : part.counted .pretty = part.counted .minify := by
  cases part <;> rfl

end Part

namespace Node

open Html.Part

/-- The parts of a text that is not raw. -/
def textParts (settings : Settings) (depth : Nat) (content : String) : List Part :=
  match settings.mode with
  | .minify => [.plainText content]
  | .pretty =>
      if (Text.trim content).isEmpty then []
      else [.indent (depth * settings.indent), .plainText content, .newline]
  | .preserve => [.indent (depth * settings.indent), .plainText content, .newline]

/-- Parts on a line of their own in pretty mode. -/
def ownLineParts (settings : Settings) (depth : Nat) (parts : List Part) : List Part :=
  if settings.mode = .pretty then
    .indent (depth * settings.indent) :: (parts ++ [.newline])
  else parts

/-- The parts of an element with content, given those of its content. -/
def elementParts (settings : Settings) (depth : Nat) (name : String)
    (attributes : List Attribute) (content : List Part) : List Part :=
  let inner :=
    if settings.mode = .pretty then
      .newline :: (content ++ [.indent (depth * settings.indent)])
    else content
  ownLineParts settings depth
    (ofEmissions (tagEmissions name attributes ++ [.text ">"]) ++ inner
      ++ ofEmissions (endTagEmissions name))

mutual

/-- The parts of a node at a depth. -/
def parts (settings : Settings) (depth : Nat) : Node → List Part
  | .text content raw => if raw then [.fixed content] else textParts settings depth content
  | .comment content => ownLineParts settings depth (ofEmissions (commentEmissions content))
  | .element name attributes children =>
      match children with
      | [] =>
          ownLineParts settings depth (ofEmissions (tagEmissions name attributes) ++ [.tagEnd])
      | first :: others =>
          if isRawTextElement name then
            ownLineParts settings depth
              (ofEmissions (tagEmissions name attributes ++ [.text ">"]
                ++ verbatims (first :: others) ++ endTagEmissions name))
          else
            elementParts settings depth name attributes
              (parts settings (depth + 1) first ++ partsAll settings (depth + 1) others)

/-- The parts of nodes at a depth. -/
def partsAll (settings : Settings) (depth : Nat) : List Node → List Part
  | [] => []
  | first :: others => parts settings depth first ++ partsAll settings depth others

end

section Emissions

/-! The parts are what is emitted. -/

variable (settings : Settings) (depth : Nat)

theorem emissions_textParts (content : String) :
    emissions settings.mode (textParts settings depth content) =
      layOutText settings depth content := by
  obtain ⟨mode, indent, implicitDoctype⟩ := settings
  cases mode with
  | minify => rfl
  | preserve => rfl
  | pretty =>
      simp only [textParts, layOutText]
      split <;> rfl

theorem emissions_ownLineParts (parts : List Part) :
    emissions settings.mode (ownLineParts settings depth parts) =
      ownLine settings depth (emissions settings.mode parts) := by
  unfold ownLineParts ownLine
  split <;> simp [emission]

theorem emissions_elementParts (name : String) (attributes : List Attribute)
    (content : List Part) :
    emissions settings.mode (elementParts settings depth name attributes content) =
      layOutElement settings depth name attributes (emissions settings.mode content) := by
  rw [elementParts, emissions_ownLineParts, layOutElement]
  congr 1
  split <;> simp [emission]

mutual

theorem emissions_parts (depth : Nat) :
    (node : Node) → emissions settings.mode (parts settings depth node) =
      layOut settings depth node
  | .text content raw => by
      rw [parts, layOut]
      split
      · rfl
      · exact emissions_textParts settings depth content
  | .comment content => by
      rw [parts, layOut, emissions_ownLineParts, emissions_ofEmissions]
  | .element name attributes children => by
      cases children with
      | nil =>
          simp only [parts, layOut]
          rw [emissions_ownLineParts, emissions_append, emissions_ofEmissions]
          rfl
      | cons first others =>
          have firstEq := emissions_parts (depth + 1) first
          have othersEq := emissions_partsAll (depth + 1) others
          simp only [parts, layOut]
          split
          · rw [emissions_ownLineParts, emissions_ofEmissions]
          · rw [emissions_elementParts, emissions_append, firstEq, othersEq]

theorem emissions_partsAll (depth : Nat) :
    (nodes : List Node) → emissions settings.mode (partsAll settings depth nodes) =
      layOuts settings depth nodes
  | [] => rfl
  | first :: others => by
      rw [partsAll, layOuts, emissions_append, emissions_parts depth first,
        emissions_partsAll depth others]

end

end Emissions

section Counted

/-! Layout counts for nothing, so in each mode the parts of a document count for as
much as the parts of the minified one. -/

variable (settings minified : Settings) (depth : Nat)

theorem countedAll_textParts (minify : minified.mode = .minify) (other : Nat)
    (content : String) :
    countedAll settings.mode (textParts settings depth content) =
      countedAll settings.mode (textParts minified other content) := by
  obtain ⟨mode, indent, implicitDoctype⟩ := settings
  cases mode with
  | minify | preserve => simp [textParts, minify]
  | pretty =>
      simp only [textParts, minify]
      split
      · next empty =>
          have nothing : counted .pretty (.plainText content) = "" := String.isEmpty_iff.1 empty
          simp [nothing]
      · simp

theorem countedAll_ownLineParts (parts : List Part) :
    countedAll settings.mode (ownLineParts settings depth parts) =
      countedAll settings.mode parts := by
  unfold ownLineParts
  split <;> simp

theorem ownLineParts_minified (minify : minified.mode = .minify) (parts : List Part) :
    ownLineParts minified depth parts = parts := by
  simp [ownLineParts, minify]

theorem countedAll_elementParts (minify : minified.mode = .minify) (other : Nat)
    {name : String} {attributes : List Attribute} {content contentThere : List Part}
    (same : countedAll settings.mode content = countedAll settings.mode contentThere) :
    countedAll settings.mode (elementParts settings depth name attributes content) =
      countedAll settings.mode (elementParts minified other name attributes contentThere) := by
  have inner : ∀ parts : List Part, countedAll settings.mode
      (if settings.mode = .pretty then .newline :: (parts ++ [.indent (depth * settings.indent)])
        else parts) = countedAll settings.mode parts := by
    intro parts
    split <;> simp
  simp only [elementParts, ownLineParts_minified _ _ minify, countedAll_ownLineParts,
    countedAll_append, inner, same, minify, reduceCtorEq, if_false]

mutual

theorem countedAll_parts (minify : minified.mode = .minify) (depth other : Nat) :
    (node : Node) → countedAll settings.mode (parts settings depth node) =
      countedAll settings.mode (parts minified other node)
  | .text content raw => by
      rw [parts, parts]
      split
      · rfl
      · exact countedAll_textParts settings minified depth minify other content
  | .comment content => by
      rw [parts, parts, countedAll_ownLineParts, ownLineParts_minified _ _ minify]
  | .element name attributes children => by
      cases children with
      | nil =>
          simp only [parts]
          rw [countedAll_ownLineParts, ownLineParts_minified _ _ minify]
      | cons first others =>
          have firstEq := countedAll_parts minify (depth + 1) (other + 1) first
          have othersEq := countedAll_partsAll minify (depth + 1) (other + 1) others
          simp only [parts]
          split
          · rw [countedAll_ownLineParts, ownLineParts_minified _ _ minify]
          · apply countedAll_elementParts settings minified depth minify other
            rw [countedAll_append, countedAll_append, firstEq, othersEq]

theorem countedAll_partsAll (minify : minified.mode = .minify) (depth other : Nat) :
    (nodes : List Node) → countedAll settings.mode (partsAll settings depth nodes) =
      countedAll settings.mode (partsAll minified other nodes)
  | [] => rfl
  | first :: others => by
      rw [partsAll, partsAll, countedAll_append, countedAll_append,
        countedAll_parts minify depth other first, countedAll_partsAll minify depth other others]

end

end Counted

end Node

namespace Document

open Html.Part

/-- The parts of a document. -/
def parts (settings : Settings) (document : Document) : List Part :=
  let doctype :=
    match document.writtenDoctype? settings with
    | some doctype =>
        ofEmissions [.text "<!DOCTYPE ", .text doctype, .text ">"]
          ++ (if settings.mode = .minify then [] else [.newline])
    | none => []
  doctype ++ Node.partsAll settings 0 document.children

/-- The parts are what is emitted. -/
theorem emissions_parts (settings : Settings) (document : Document) :
    emissions settings.mode (document.parts settings) = document.layOut settings := by
  rw [parts, layOut, emissions_append, Node.emissions_partsAll]
  congr 1
  cases document.writtenDoctype? settings with
  | none => rfl
  | some doctype =>
      rw [emissions_append, emissions_ofEmissions]
      congr 1
      split <;> rfl

/-- In each mode a document counts for as much as its minified parts do. -/
theorem countedAll_parts (settings minified : Settings) (minify : minified.mode = .minify)
    (sameDoctype : minified.implicitDoctype = settings.implicitDoctype) (document : Document) :
    countedAll settings.mode (document.parts settings) =
      countedAll settings.mode (document.parts minified) := by
  have doctypeEq : document.writtenDoctype? minified = document.writtenDoctype? settings := by
    rw [writtenDoctype?, writtenDoctype?, sameDoctype]
  rw [parts, parts, countedAll_append, countedAll_append,
    Node.countedAll_partsAll settings minified minify 0 0, doctypeEq]
  congr 1
  cases document.writtenDoctype? settings with
  | none => rfl
  | some doctype =>
      rw [countedAll_append, countedAll_append, if_pos minify]
      congr 1
      split <;> simp

/-- The modes differ in layout only.  Every emission is one of the parts of the
document.  Without the layout, and with the ends of tags without content counted
alike, pretty mode passes on what minify mode does, and preserve mode passes on
the parts that minify mode does with the plain texts as they are. -/
theorem counted_of_every_mode (document : Document) (indent : Nat) (implicitDoctype : Bool) :
    let partsIn (mode : Mode) := document.parts ⟨mode, indent, implicitDoctype⟩
    (∀ mode, emissions mode (partsIn mode) =
        document.layOut ⟨mode, indent, implicitDoctype⟩) ∧
      countedAll .pretty (partsIn .pretty) = countedAll .minify (partsIn .minify) ∧
      countedAll .preserve (partsIn .preserve) = countedAll .preserve (partsIn .minify) := by
  intro partsIn
  have countedIn (mode : Mode) :
      countedAll mode (partsIn mode) = countedAll mode (partsIn .minify) :=
    countedAll_parts ⟨mode, indent, implicitDoctype⟩ ⟨.minify, indent, implicitDoctype⟩ rfl rfl
      document
  refine ⟨fun mode => emissions_parts ⟨mode, indent, implicitDoctype⟩ document, ?_,
    countedIn .preserve⟩
  rw [countedIn .pretty, countedAll, countedAll]
  exact congrArg String.join (List.map_congr_left fun part _ => part.counted_pretty)

end Document

end Html

end TemplateCompiler
