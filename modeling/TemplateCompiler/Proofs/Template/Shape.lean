import TemplateCompiler.Parse.Tag
import TemplateCompiler.Proofs.Template.Spelling
import Mathlib.Data.List.Chain

/-!
# The shape of a template

Not every tree is a template.  Texts are as long as they can be, so no two of
them are neighbours.  A loop has a block and nothing else below it.  What is in
a script is code and interpolations, what is in a style is one text, and code is
nowhere else.  The evaluator and the renderer rely on this.

The shape of a whole tree is the shape of each of its nodes with the children it
has.  It does not depend on the order of the children, so it can be kept up
while they are collected in reverse.
-/

namespace TemplateCompiler

namespace Node

/-- No two neighbours are both of a kind. -/
def Apart (isOf : NodeKind → Bool) (nodes : List Node) : Prop :=
  nodes.IsChain fun first second => ¬ (isOf first.kind = true ∧ isOf second.kind = true)

/-- Nodes that can stand in markup: there is no code, and texts are apart. -/
structure IsMarkup (nodes : List Node) : Prop where
  noCode : ∀ node ∈ nodes, node.kind.isCode = false
  textsApart : Apart NodeKind.isText nodes

/-- The content of a script: code and interpolations, with pieces of code
apart. -/
structure IsScriptContent (nodes : List Node) : Prop where
  parts : ∀ node ∈ nodes, node.kind.isCode = true ∨ node.kind.isInterpolation = true
  codeApart : Apart NodeKind.isCode nodes

/-- The content of a style: one text at most. -/
def IsStyleContent (nodes : List Node) : Prop :=
  nodes = [] ∨ ∃ node, nodes = [node] ∧ node.kind.isText = true

end Node

/-- Whether a node of a kind has the children that it can have below the
document. -/
def NodeKind.Fits (children : List Node) : NodeKind → Prop
  | .document _ => False
  | .loop _ => ∃ body, children = [body] ∧ body.kind = .block
  | .block => Node.IsMarkup children
  | .element tag =>
      (Parser.isVoid tag.name = true → tag.selfClosing = true) ∧
        if tag.selfClosing = true then children = []
        else if tag.isNamed "script" = true then Node.IsScriptContent children
        else if tag.isNamed "style" = true then Node.IsStyleContent children
        else Node.IsMarkup children
  | .text content | .script content => content ≠ "" ∧ children = []
  | .comment _ | .interpolation _ => children = []

namespace Node

mutual

/-- Whether a node and the nodes below it have the children they can have. -/
def IsFit : Node → Prop
  | .node _ kind _ children => kind.Fits children ∧ AllFit children

def AllFit : List Node → Prop
  | [] => True
  | first :: others => IsFit first ∧ AllFit others

end

/-- A text that was dropped before a declaration: it is blank, and it ends where
a declaration begins. -/
structure IsDropped (declarations : List Declaration) (node : Node) : Prop where
  blank : node.IsBlank
  childless : node.children = []
  before : ∃ declaration ∈ declarations,
    node.position.offset + node.position.length.getD 0 = declaration.position.offset

end Node

/-- The shape of a template.  The nodes that were made are those of the tree and
the dropped texts. -/
structure Template.Shaped (template : Template) : Prop where
  markup : Node.IsMarkup template.children
  below : Node.AllFit template.children
  numbers : (template.root.preorder ++ Node.preorders template.dropped).Perm
    (List.range template.size)
  dropped : ∀ node ∈ template.dropped, node.IsDropped template.document.declarations

namespace Node

variable {isOf : NodeKind → Bool} {node : Node} {nodes : List Node}

theorem apart_nil : Apart isOf [] :=
  List.isChain_nil

theorem apart_cons :
    Apart isOf (node :: nodes) ↔
      (isOf node.kind = true → ∀ next ∈ nodes.head?, isOf next.kind = false) ∧
        Apart isOf nodes := by
  rw [Apart, List.isChain_cons]
  constructor
  · rintro ⟨behind, apart⟩
    refine ⟨fun isOfNode next member => ?_, apart⟩
    rw [← Bool.not_eq_true]
    exact fun isOfNext => behind next member ⟨isOfNode, isOfNext⟩
  · rintro ⟨behind, apart⟩
    refine ⟨fun next member both => ?_, apart⟩
    rw [behind both.1 next member] at both
    cases both.2

theorem apart_reverse : Apart isOf nodes.reverse ↔ Apart isOf nodes := by
  rw [Apart, List.isChain_reverse]
  constructor <;> exact fun apart => apart.imp fun _ _ others both => others both.symm

theorem IsMarkup.reverse (markup : IsMarkup nodes) : IsMarkup nodes.reverse :=
  ⟨fun node member => markup.noCode node (List.mem_reverse.1 member),
    apart_reverse.2 markup.textsApart⟩

theorem IsMarkup.cons (markup : IsMarkup nodes) (notCode : node.kind.isCode = false)
    (textApart : node.kind.isText = true → ∀ next ∈ nodes.head?, next.kind.isText = false) :
    IsMarkup (node :: nodes) := by
  constructor
  · intro other member
    rcases List.mem_cons.1 member with rfl | member
    · exact notCode
    · exact markup.noCode other member
  · exact apart_cons.2 ⟨textApart, markup.textsApart⟩

theorem isMarkup_nil : IsMarkup [] :=
  ⟨by simp, apart_nil⟩

theorem IsScriptContent.reverse (content : IsScriptContent nodes) :
    IsScriptContent nodes.reverse :=
  ⟨fun node member => content.parts node (List.mem_reverse.1 member),
    apart_reverse.2 content.codeApart⟩

theorem IsScriptContent.cons (content : IsScriptContent nodes)
    (part : node.kind.isCode = true ∨ node.kind.isInterpolation = true)
    (codeApart : node.kind.isCode = true → ∀ next ∈ nodes.head?, next.kind.isCode = false) :
    IsScriptContent (node :: nodes) := by
  constructor
  · intro other member
    rcases List.mem_cons.1 member with rfl | member
    · exact part
    · exact content.parts other member
  · exact apart_cons.2 ⟨codeApart, content.codeApart⟩

theorem isScriptContent_nil : IsScriptContent [] :=
  ⟨by simp, apart_nil⟩

theorem IsStyleContent.reverse (content : IsStyleContent nodes) :
    IsStyleContent nodes.reverse := by
  rcases content with rfl | ⟨node, rfl, isText⟩
  · exact .inl rfl
  · exact .inr ⟨node, rfl, isText⟩

theorem isFit_iff : node.IsFit ↔ node.kind.Fits node.children ∧ AllFit node.children := by
  obtain ⟨id, kind, position, children⟩ := node
  rw [IsFit]
  exact Iff.rfl

theorem allFit_iff : AllFit nodes ↔ ∀ node ∈ nodes, node.IsFit := by
  induction nodes with
  | nil => simp [AllFit]
  | cons first others ih => simp [AllFit, ih]

theorem AllFit.reverse (fit : AllFit nodes) : AllFit nodes.reverse := by
  rw [allFit_iff] at fit ⊢
  exact fun node member => fit node (List.mem_reverse.1 member)

theorem IsDropped.mono {declarations more : List Declaration}
    (isDropped : node.IsDropped declarations) (within : declarations ⊆ more) :
    node.IsDropped more := by
  obtain ⟨declaration, member, positionEq⟩ := isDropped.before
  exact ⟨isDropped.blank, isDropped.childless, declaration, within member, positionEq⟩

end Node

namespace NodeKind

theorem fits_element {tag : Element} {children : List Node}
    (hasContent : tag.selfClosing = false) :
    (NodeKind.element tag).Fits children ↔
      Parser.isVoid tag.name = false ∧
        match tag.contentMode? with
        | none => Node.IsMarkup children
        | some .script => Node.IsScriptContent children
        | some _ => Node.IsStyleContent children := by
  unfold Fits Element.contentMode?
  cases script : tag.isNamed "script" with
  | true => simp [hasContent, script]
  | false => cases style : tag.isNamed "style" <;> simp [hasContent, script, style]

theorem Fits.reverse {kind : NodeKind} {children : List Node} (fits : kind.Fits children) :
    kind.Fits children.reverse := by
  cases kind with
  | document head => exact fits
  | loop header =>
      obtain ⟨body, rfl, isBlock⟩ := fits
      exact ⟨body, rfl, isBlock⟩
  | block => exact Node.IsMarkup.reverse fits
  | element tag =>
      cases selfClosing : tag.selfClosing with
      | true =>
          simp only [Fits, selfClosing, if_true] at fits ⊢
          exact ⟨fits.1, by rw [fits.2]; rfl⟩
      | false =>
          rw [fits_element selfClosing] at fits ⊢
          refine ⟨fits.1, ?_⟩
          have content := fits.2
          split at content
          · exact content.reverse
          · exact content.reverse
          · exact content.reverse
  | text content | script code =>
      obtain ⟨nonempty, rfl⟩ := fits
      exact ⟨nonempty, rfl⟩
  | comment content | interpolation value =>
      obtain rfl : children = [] := fits
      rfl

theorem fits_of_isChildless {kind : NodeKind} {piece : List Char}
    (childless : kind.IsChildless) (written : kind.IsWritten piece) : kind.Fits [] := by
  cases kind with
  | element tag =>
      have selfClosing : tag.selfClosing = true := childless
      simp [Fits, selfClosing]
  | text content =>
      refine ⟨?_, rfl⟩
      rintro rfl
      exact written.1 written.2
  | comment content | interpolation value => rfl
  | _ => exact childless.elim

end NodeKind

end TemplateCompiler
