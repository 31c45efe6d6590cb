import TemplateCompiler.Proofs.Eval.Refinement
import TemplateCompiler.Proofs.Template.Written

/-!
# Templates that no data changes

A template of texts, comments and elements evaluates to the same output nodes
whatever the data are, and its outline tells which.
-/

namespace TemplateCompiler

open Written

namespace Written

/-- Outlines display some output nodes when they are of texts, comments and
elements that hold no styles. -/
inductive Displays : List Outline → List Html.Node → Prop
  | nil : Displays [] []
  | text {others : List Outline} {shown : List Html.Node} (content : String)
      (later : Displays others shown) :
      Displays (.mk (.text content) [] :: others) (.text content false :: shown)
  | comment {others : List Outline} {shown : List Html.Node} (content : String)
      (later : Displays others shown) :
      Displays (.mk (.comment content) [] :: others) (.comment content :: shown)
  | element {children others : List Outline} {content shown : List Html.Node} (tag : Element)
      (notStyle : tag.isNamed "style" = false) (inside : Displays children content)
      (later : Displays others shown) :
      Displays (.mk (.element tag) children :: others)
        (.element tag.name tag.attributes content :: shown)

variable {outlines : List Outline} {shown : List Html.Node}

theorem exists_of_outlines_cons {kind : NodeKind} {children others : List Outline}
    {nodes : List Node} (outlinesEq : Node.outlines nodes = .mk kind children :: others) :
    ∃ id position inside later, nodes = .node id kind position inside :: later ∧
      Node.outlines inside = children ∧ Node.outlines later = others := by
  cases nodes with
  | nil => simp [Node.outlines] at outlinesEq
  | cons node later =>
      obtain ⟨id, _, position, inside⟩ := node
      simp only [Node.outlines, Node.outline, List.cons.injEq, Outline.mk.injEq] at outlinesEq
      obtain ⟨⟨rfl, insideEq⟩, laterEq⟩ := outlinesEq
      exact ⟨id, position, inside, later, rfl, insideEq, laterEq⟩

/-- Nodes of such outlines expand to what these display. -/
theorem Displays.expansions_eq (displays : Displays outlines shown) {nodes : List Node}
    (outlinesEq : Node.outlines nodes = outlines) (environment : Environment) :
    Eval.expansions false nodes environment = .ok shown := by
  induction displays generalizing nodes with
  | nil =>
      cases nodes with
      | nil => rfl
      | cons node nodes => simp [Node.outlines] at outlinesEq
  | text content later ih =>
      obtain ⟨id, position, inside, others, rfl, -, othersEq⟩ :=
        exists_of_outlines_cons outlinesEq
      rw [Eval.expansions, ih othersEq]
      rfl
  | comment content later ih =>
      obtain ⟨id, position, inside, others, rfl, -, othersEq⟩ :=
        exists_of_outlines_cons outlinesEq
      rw [Eval.expansions, ih othersEq]
      rfl
  | element tag notStyle displaysInside later ihInside ih =>
      obtain ⟨id, position, inside, others, rfl, insideEq, othersEq⟩ :=
        exists_of_outlines_cons outlinesEq
      rw [Eval.expansions, ih othersEq, Eval.expansion_eq, NodeKind.isStyle, notStyle]
      simp only [Eval.kindIn, ihInside insideEq]
      rfl

theorem Displays.evaluate_eq {template : Template} (displays : Displays outlines shown)
    (outlinesEq : Node.outlines template.children = outlines) (data : Json) :
    template.evaluate data = .ok ⟨template.document.doctype?, shown⟩ := by
  rw [template.evaluate_eq, Template.expansion, displays.expansions_eq outlinesEq,
    template.document.declaredType?_eq]
  rfl

end Written

end TemplateCompiler
