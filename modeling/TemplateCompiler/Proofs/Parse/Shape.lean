import TemplateCompiler.Proofs.Parse.Tiling
import TemplateCompiler.Proofs.Template.Shape

/-!
# Every parsed template has the shape of one

The steps of parsing build a template from the inside out.  What is finished has
the shape of a template already, and what is open would have it if it were closed
now.  Besides this, every step gives each new node a number of its own, and a
declaration drops at most one text, the end of which is where the declaration
begins.
-/

namespace TemplateCompiler

namespace Parse

open Node

variable {state before after : State}

section Trees

/-- Whether open constructs could be closed now.  A loop is open together with
its body, and nothing is open inside a script or a style. -/
inductive AllShaped : List Open → Prop
  | nil : AllShaped []
  | construct {construct : Open} {outer : List Open} (earlier : AllShaped outer)
      (inMarkup : contentModeIn? outer = none) (enclosing : construct.kind.IsEnclosing)
      (fits : construct.kind.Fits construct.children) (below : AllFit construct.children) :
      AllShaped (construct :: outer)
  | body {id bodyId : Nat} {header : Loop} {position bodyPosition : Position}
      {children : List Node} {outer : List Open} (earlier : AllShaped outer)
      (inMarkup : contentModeIn? outer = none) (content : IsMarkup children)
      (below : AllFit children) :
      AllShaped (⟨bodyId, .block, bodyPosition, children⟩ ::
        ⟨id, .loop header, position, []⟩ :: outer)

/-- Whether what is built so far has the shape of a template. -/
structure State.Shaped (state : State) : Prop where
  enclosing : AllShaped state.enclosing
  markup : IsMarkup state.top
  below : AllFit state.top

/-- The innermost construct is never a loop, because its body is open as long as
it is. -/
theorem AllShaped.head_not_loop {enclosing : List Open} (shaped : AllShaped enclosing) :
    ∀ construct ∈ enclosing.head?, ∀ header, construct.kind ≠ .loop header := by
  intro construct member header kindEq
  cases shaped with
  | nil => cases member
  | construct earlier inMarkup isEnclosing fits below =>
      obtain rfl := Option.some.inj member
      rw [kindEq] at isEnclosing
      exact isEnclosing
  | body earlier inMarkup content below =>
      obtain rfl := Option.some.inj member
      cases kindEq

/-- A construct that is open takes another child where that is accepted. -/
theorem fits_cons {kind : NodeKind} {node : Node} {children : List Node}
    (enclosing : kind.IsEnclosing) (fits : kind.Fits children)
    (notCode : node.kind.isCode = false)
    (accepted : match kind.contentMode? with
      | none => node.kind.isText = true → ∀ next ∈ children.head?, next.kind.isText = false
      | some .script => node.kind.isInterpolation = true
      | some _ => node.kind.isText = true ∧ children.head? = none) :
    kind.Fits (node :: children) := by
  cases kind with
  | block => exact IsMarkup.cons fits notCode accepted
  | element tag =>
      have hasContent : tag.selfClosing = false := enclosing
      rw [NodeKind.fits_element hasContent] at fits ⊢
      obtain ⟨notVoid, content⟩ := fits
      refine ⟨notVoid, ?_⟩
      change match tag.contentMode? with
        | none => _
        | some .script => _
        | some _ => _ at accepted
      cases contentMode : tag.contentMode? with
      | none =>
          rw [contentMode] at content accepted
          exact content.cons notCode accepted
      | some mode =>
          rw [contentMode] at content accepted
          cases mode with
          | script =>
              refine content.cons (.inr accepted) fun isCode => ?_
              rw [notCode] at isCode
              cases isCode
          | _ =>
              obtain rfl : children = [] := List.head?_eq_none_iff.1 accepted.2
              exact .inr ⟨node, rfl, accepted.1⟩
  | _ => exact enclosing.elim

theorem State.Shaped.add {node : Node} (shaped : state.Shaped) (fit : node.IsFit)
    (notCode : node.kind.isCode = false) (accepted : state.Accepts node.kind) :
    (state.add node).Shaped := by
  obtain ⟨lexer, document, enclosing, top, dropped, size⟩ := state
  obtain ⟨open_, markup, below⟩ := shaped
  cases open_ with
  | nil => exact ⟨.nil, markup.cons notCode accepted, ⟨fit, below⟩⟩
  | construct earlier inMarkup isEnclosing fits belowOpen =>
      exact ⟨.construct earlier inMarkup isEnclosing
        (fits_cons isEnclosing fits notCode accepted) ⟨fit, belowOpen⟩, markup, below⟩
  | body earlier inMarkup content belowOpen =>
      exact ⟨.body earlier inMarkup (content.cons notCode accepted) ⟨fit, belowOpen⟩, markup,
        below⟩

theorem State.accepts_of_inMarkup {kind : NodeKind} (inMarkup : state.contentMode? = none)
    (notText : kind.isText = false) : state.Accepts kind := by
  rw [State.Accepts, inMarkup]
  intro isText
  rw [notText] at isText
  cases isText

theorem State.Shaped.addLeaf {kind : NodeKind} {position : Position} (shaped : state.Shaped)
    (fits : kind.Fits []) (notCode : kind.isCode = false) (accepted : state.Accepts kind) :
    (state.addLeaf kind position).Shaped := by
  have larger : ({ state with size := state.size + 1 } : State).Shaped :=
    ⟨shaped.enclosing, shaped.markup, shaped.below⟩
  exact larger.add (isFit_iff.2 ⟨fits, trivial⟩) notCode accepted

/-- What is open becomes a node of its shape. -/
theorem isFit_node {construct : Open} (fits : construct.kind.Fits construct.children)
    (below : AllFit construct.children) : construct.node.IsFit :=
  isFit_iff.2 ⟨fits.reverse, below.reverse⟩

theorem isEnclosing_plain {kind : NodeKind} (enclosing : kind.IsEnclosing) :
    kind.isText = false ∧ kind.isCode = false := by
  cases kind <;> first | exact ⟨rfl, rfl⟩ | exact enclosing.elim

theorem State.Shaped.closeElement {tag : Element} (shaped : state.Shaped)
    (innermost : state.innermost? = some (.element tag)) : state.closeNode.Shaped := by
  obtain ⟨lexer, document, enclosing, top, dropped, size⟩ := state
  obtain ⟨open_, markup, below⟩ := shaped
  cases open_ with
  | nil => simp [State.innermost?] at innermost
  | @construct construct outer earlier inMarkup isEnclosing fits belowOpen =>
      obtain ⟨notText, notCode⟩ := isEnclosing_plain isEnclosing
      have around : State.Shaped ⟨lexer, document, outer, top, dropped, size⟩ :=
        ⟨earlier, markup, below⟩
      exact around.add (isFit_node fits belowOpen) notCode
        (State.accepts_of_inMarkup inMarkup notText)
  | body earlier inMarkup content belowOpen => simp [State.innermost?] at innermost

theorem State.Shaped.closeBlock (shaped : state.Shaped)
    (innermost : state.innermost? = some .block) : state.closeBlock.Shaped := by
  obtain ⟨lexer, document, enclosing, top, dropped, size⟩ := state
  obtain ⟨open_, markup, below⟩ := shaped
  cases open_ with
  | nil => simp [State.innermost?] at innermost
  | @construct construct outer earlier inMarkup isEnclosing fits belowOpen =>
      obtain ⟨notText, notCode⟩ := isEnclosing_plain isEnclosing
      have around : State.Shaped ⟨lexer, document, outer, top, dropped, size⟩ :=
        ⟨earlier, markup, below⟩
      rw [State.closeBlock_eq_add rfl earlier.head_not_loop]
      exact around.add (isFit_node fits belowOpen) notCode
        (State.accepts_of_inMarkup inMarkup notText)
  | @body id bodyId header position bodyPosition children outer earlier inMarkup content
      belowOpen =>
      have around : State.Shaped ⟨lexer, document, outer, top, dropped, size⟩ :=
        ⟨earlier, markup, below⟩
      have bodyFit : IsFit (.node bodyId .block bodyPosition children.reverse) :=
        isFit_iff.2 ⟨content.reverse, belowOpen.reverse⟩
      exact around.add (isFit_iff.2 ⟨⟨_, rfl, rfl⟩, bodyFit, trivial⟩) rfl
        (State.accepts_of_inMarkup inMarkup rfl)

/-- Code goes to the code before it, so pieces of code stay apart. -/
theorem State.Shaped.addCode {tag : Element} {code : String} {position : Position}
    (shaped : state.Shaped) (innermost : state.innermost? = some (.element tag))
    (script : tag.contentMode? = some .script) (nonempty : code ≠ "") :
    (state.addCode code position).Shaped := by
  obtain ⟨lexer, document, enclosing, top, dropped, size⟩ := state
  obtain ⟨open_, markup, below⟩ := shaped
  cases open_ with
  | nil => simp [State.innermost?] at innermost
  | body earlier inMarkup content belowOpen => simp [State.innermost?] at innermost
  | @construct construct outer earlier inMarkup isEnclosing fits belowOpen =>
      obtain ⟨id, kind, place, children⟩ := construct
      obtain rfl : kind = .element tag := by simpa [State.innermost?] using innermost
      have hasContent : tag.selfClosing = false := isEnclosing
      have fitsScript := (NodeKind.fits_element hasContent).1 fits
      rw [script] at fitsScript
      obtain ⟨notVoid, content⟩ := fitsScript
      have fitsNow : ∀ {nodes : List Node}, IsScriptContent nodes →
          (NodeKind.element tag).Fits nodes := by
        intro nodes content
        rw [NodeKind.fits_element hasContent, script]
        exact ⟨notVoid, content⟩
      unfold State.addCode
      split
      · next enclosingEq =>
          simp only [List.cons.injEq, Open.mk.injEq] at enclosingEq
          obtain ⟨⟨rfl, rfl, rfl, rfl⟩, rfl⟩ := enclosingEq
          have childFit := isFit_iff.1 belowOpen.1
          refine ⟨.construct earlier inMarkup isEnclosing (fitsNow ⟨?_, ?_⟩) ⟨?_, belowOpen.2⟩,
            markup, below⟩
          · intro node member
            rcases List.mem_cons.1 member with rfl | member
            · exact .inl rfl
            · exact content.parts node (List.mem_cons_of_mem _ member)
          · obtain ⟨behind, apart⟩ := apart_cons.1 content.codeApart
            exact apart_cons.2 ⟨fun _ => behind rfl, apart⟩
          · refine isFit_iff.2 ⟨⟨?_, childFit.1.2⟩, childFit.2⟩
            simp [nonempty]
      · next noCode =>
          have behind : ∀ next ∈ children.head?, next.kind.isCode = false := by
            intro next member
            obtain ⟨nextId, nextKind, nextPlace, nextChildren⟩ := next
            cases children with
            | nil => cases member
            | cons first others =>
                obtain rfl : first = _ := Option.some.inj member
                cases nextKind with
                | script before => exact (noCode _ _ _ _ _ _ _ _ _ rfl).elim
                | _ => rfl
          refine ⟨.construct earlier inMarkup isEnclosing
            (fitsNow (content.cons (.inl rfl) fun _ => behind)) ⟨?_, belowOpen⟩, markup, below⟩
          exact isFit_iff.2 ⟨⟨nonempty, rfl⟩, trivial⟩

theorem State.Shaped.openNode {kind : NodeKind} {position : Position} (shaped : state.Shaped)
    (inMarkup : state.contentMode? = none) (enclosing : kind.IsEnclosing) (fits : kind.Fits []) :
    (state.openNode kind position).Shaped :=
  ⟨.construct shaped.enclosing inMarkup enclosing fits trivial, shaped.markup, shaped.below⟩

theorem State.Shaped.withLexer (shaped : state.Shaped) (lexer : Lexer) :
    (state.withLexer lexer).Shaped :=
  ⟨shaped.enclosing, shaped.markup, shaped.below⟩

theorem State.intoContent_eq (tag : Element) (state : State) :
    ∃ lexer, state.intoContent tag = state.withLexer lexer := by
  unfold intoContent
  split
  · exact ⟨_, rfl⟩
  · exact ⟨state.lexer, rfl⟩

theorem State.exists_outOfContent_eq (tag : Element) (state : State) :
    ∃ lexer, state.outOfContent tag = state.withLexer lexer := by
  unfold outOfContent
  split
  · exact ⟨_, rfl⟩
  · exact ⟨state.lexer, rfl⟩

/-- Every step keeps the shape of what is built. -/
theorem Step.shaped (step : Step before after) (shaped : before.Shaped) : after.Shaped := by
  cases step with
  | leaf ahead written childless accepted =>
      have notCode : ∀ {kind : NodeKind}, kind.IsChildless → kind.isCode = false := by
        intro kind childless
        cases kind <;> first | rfl | exact childless.elim
      exact (shaped.withLexer _).addLeaf (NodeKind.fits_of_isChildless childless written)
        (notCode childless) accepted
  | @opened tag piece ahead written hasContent notVoid inMarkup =>
      have enclosing : (NodeKind.element tag).IsEnclosing := hasContent
      have fits : (NodeKind.element tag).Fits [] := by
        rw [NodeKind.fits_element hasContent]
        refine ⟨notVoid, ?_⟩
        split
        · exact isMarkup_nil
        · exact isScriptContent_nil
        · exact .inl rfl
      obtain ⟨lexer, intoEq⟩ := State.intoContent_eq tag
        ((before.after piece).openNode (.element tag) (before.spanOf piece))
      rw [intoEq]
      exact ((shaped.withLexer _).openNode inMarkup enclosing fits).withLexer lexer
  | @closed tag piece ahead innermost ended =>
      obtain ⟨lexer, outEq⟩ := State.exists_outOfContent_eq tag (before.after piece)
      rw [outEq]
      exact ((shaped.withLexer _).withLexer lexer).closeElement innermost
  | @code tag piece ahead nonempty innermost script =>
      refine (shaped.withLexer _).addCode innermost script fun empty => nonempty ?_
      exact String.ofList_inj.1 (empty.trans String.ofList_nil.symm)
  | loop ahead written inMarkup =>
      exact ⟨.body shaped.enclosing inMarkup isMarkup_nil trivial, shaped.markup, shaped.below⟩
  | block ahead inMarkup =>
      exact (shaped.withLexer _).openNode inMarkup trivial isMarkup_nil
  | blockClosed ahead innermost => exact (shaped.withLexer _).closeBlock innermost
  | declared ahead written atStart positionEq => exact ⟨shaped.enclosing, isMarkup_nil, trivial⟩

end Trees

section Numbers

/-- The numbers of all nodes that were made, open and dropped ones included. -/
def State.numbers (state : State) : List Nat :=
  0 :: (preorders state.top ++
    (state.enclosing.flatMap fun construct => construct.id :: preorders construct.children) ++
      preorders state.dropped)

/-- Whether the nodes that were made are numbered in order, without gaps. -/
def State.Numbered (state : State) : Prop :=
  state.numbers.Perm (List.range state.size)

theorem preorders_append (first second : List Node) :
    preorders (first ++ second) = preorders first ++ preorders second := by
  induction first with
  | nil => rfl
  | cons node first ih => rw [List.cons_append, preorders, preorders, ih, List.append_assoc]

theorem preorders_reverse (nodes : List Node) :
    (preorders nodes.reverse).Perm (preorders nodes) := by
  induction nodes with
  | nil => exact List.Perm.refl _
  | cons node nodes ih =>
      rw [List.reverse_cons, preorders_append]
      simp only [preorders, List.append_nil]
      exact List.perm_append_comm.trans (ih.append_left _)

theorem State.numbers_add (state : State) (node : Node) :
    (state.add node).numbers.Perm (node.preorder ++ state.numbers) := by
  obtain ⟨lexer, document, enclosing, top, dropped, size⟩ := state
  apply List.perm_iff_count.2
  intro id
  cases enclosing with
  | nil =>
      simp only [add, numbers, preorders, List.count_cons, List.count_append]
      omega
  | cons construct outer =>
      simp only [add, numbers, preorders, List.flatMap_cons, List.count_cons, List.count_append]
      omega

theorem State.numbers_closeNode (state : State) :
    state.closeNode.numbers.Perm state.numbers := by
  obtain ⟨lexer, document, enclosing, top, dropped, size⟩ := state
  cases enclosing with
  | nil => exact List.Perm.refl _
  | cons construct outer =>
      have moved := State.numbers_add ⟨lexer, document, outer, top, dropped, size⟩ construct.node
      refine moved.trans (List.perm_iff_count.2 fun id => ?_)
      have reversed := List.perm_iff_count.1 (preorders_reverse construct.children) id
      simp only [numbers, Open.node, preorder, List.flatMap_cons, List.count_cons,
        List.count_append, reversed]
      omega

theorem State.size_closeNode (state : State) : state.closeNode.size = state.size := by
  obtain ⟨lexer, document, enclosing, top, dropped, size⟩ := state
  cases enclosing with
  | nil => rfl
  | cons construct outer => cases outer <;> rfl

theorem State.Numbered.closeNode (numbered : state.Numbered) : state.closeNode.Numbered := by
  rw [State.Numbered, State.size_closeNode]
  exact (State.numbers_closeNode state).trans numbered

theorem State.Numbered.closeBlock (numbered : state.Numbered) : state.closeBlock.Numbered := by
  unfold State.closeBlock
  split
  · exact numbered.closeNode.closeNode
  · exact numbered.closeNode

/-- One more node gets the next number. -/
theorem State.Numbered.grow (numbered : state.Numbered)
    (grown : after.numbers.Perm (state.size :: state.numbers))
    (sizeEq : after.size = state.size + 1) : after.Numbered := by
  rw [State.Numbered, sizeEq, List.range_succ]
  exact grown.trans ((numbered.cons _).trans (List.perm_append_singleton _ _).symm)

theorem State.size_add (state : State) (node : Node) : (state.add node).size = state.size := by
  obtain ⟨lexer, document, enclosing, top, dropped, size⟩ := state
  cases enclosing <;> rfl

theorem State.Numbered.addLeaf {kind : NodeKind} {position : Position}
    (numbered : state.Numbered) : (state.addLeaf kind position).Numbered := by
  have added := State.numbers_add { state with size := state.size + 1 }
    (.leaf state.size kind position)
  exact numbered.grow added (State.size_add _ _)

theorem State.Numbered.openNode {kind : NodeKind} {position : Position}
    (numbered : state.Numbered) : (state.openNode kind position).Numbered := by
  refine numbered.grow (List.perm_iff_count.2 fun id => ?_) rfl
  simp only [numbers, State.openNode, preorders, List.flatMap_cons, List.count_cons,
    List.count_append, List.count_nil]
  omega

/-- Code that goes to the code before it makes no node. -/
theorem State.Numbered.addCode {code : String} {position : Position} (numbered : state.Numbered) :
    (state.addCode code position).Numbered := by
  obtain ⟨lexer, document, enclosing, top, dropped, size⟩ := state
  unfold State.addCode
  split
  · next enclosingEq =>
      obtain rfl : enclosing = _ := enclosingEq
      exact numbered
  · exact numbered.addLeaf

theorem State.Numbered.declare {declaration : Declaration} (numbered : state.Numbered) :
    (state.declare declaration).Numbered := by
  refine List.Perm.trans (List.perm_iff_count.2 fun id => ?_) numbered
  have reversed := List.perm_iff_count.1 (preorders_reverse state.top) id
  simp only [numbers, State.declare, preorders, preorders_append, List.count_cons,
    List.count_append, List.count_nil, reversed]
  omega

theorem Step.numbered (step : Step before after) (numbered : before.Numbered) :
    after.Numbered := by
  have moved : ∀ {piece : List Char}, (before.after piece).Numbered := numbered
  cases step with
  | leaf => exact moved.addLeaf
  | @opened tag piece =>
      obtain ⟨lexer, intoEq⟩ := State.intoContent_eq tag
        ((before.after piece).openNode (.element tag) (before.spanOf piece))
      rw [intoEq]
      exact State.Numbered.openNode moved
  | @closed tag piece =>
      obtain ⟨lexer, outEq⟩ := State.exists_outOfContent_eq tag (before.after piece)
      rw [outEq]
      exact State.Numbered.closeNode (@moved piece)
  | code => exact State.Numbered.addCode moved
  | loop => exact State.Numbered.openNode (State.Numbered.openNode moved)
  | block => exact State.Numbered.openNode moved
  | blockClosed => exact State.Numbered.closeBlock moved
  | declared => exact State.Numbered.declare moved

end Numbers

section Dropping

/-- Whether every dropped text stood before a declaration, and a text that was
read last ends where the reading has come to. -/
structure State.Drops (state : State) : Prop where
  dropped : ∀ node ∈ state.dropped, node.IsDropped state.document.declarations
  ended : ∀ node ∈ state.last?, node.kind.isText = true →
    node.position.offset + node.position.length.getD 0 = state.cursor.mark.offset

theorem State.document_addLeaf (kind : NodeKind) (position : Position) (state : State) :
    (state.addLeaf kind position).document = state.document ∧
      (state.addLeaf kind position).dropped = state.dropped :=
  State.document_add _ _

/-- A step that does not end with a text. -/
theorem State.Drops.of_last? (drops : before.Drops)
    (documentEq : after.document = before.document) (droppedEq : after.dropped = before.dropped)
    (other : ∀ node ∈ after.last?, node.kind.isText = false) : after.Drops := by
  constructor
  · rw [documentEq, droppedEq]
    exact drops.dropped
  · intro node member isText
    rw [other node member] at isText
    cases isText

theorem State.Drops.of_none (drops : before.Drops)
    (documentEq : after.document = before.document) (droppedEq : after.dropped = before.dropped)
    (nothing : after.last? = none) : after.Drops := by
  apply drops.of_last? documentEq droppedEq
  intro node member
  rw [nothing] at member
  cases member

theorem State.last?_addCode (code : String) (position : Position) :
    ∀ node ∈ (state.addCode code position).last?, node.kind.isText = false := by
  intro node member
  unfold State.addCode at member
  split at member
  · obtain rfl := Option.some.inj member
    rfl
  · rw [Parser.last?_addLeaf, Option.mem_some] at member
    rw [← member]
    rfl

theorem State.last?_closeNode {kind : NodeKind} (innermost : state.innermost? = some kind)
    (notText : kind.isText = false) : ∀ node ∈ state.closeNode.last?, node.kind.isText = false := by
  obtain ⟨closed, lastEq, kindEq⟩ := Parser.last?_closeNode innermost
  intro node member
  rw [lastEq, Option.mem_some] at member
  rw [← member, kindEq]
  exact notText

theorem State.last?_closeBlock (innermost : state.innermost? = some .block) :
    ∀ node ∈ state.closeBlock.last?, node.kind.isText = false := by
  unfold State.closeBlock
  split
  · next header loopInnermost => exact State.last?_closeNode loopInnermost rfl
  · exact State.last?_closeNode innermost rfl

/-- At the start of a template there is one text at most. -/
theorem State.Shaped.top_of_atStart (shaped : state.Shaped) (atStart : state.atStart = true) :
    state.enclosing = [] ∧
      (state.top = [] ∨ ∃ node, state.top = [node] ∧ node.IsBlank ∧ node.children = []) := by
  obtain ⟨enclosingEq, blank⟩ := State.blank_of_atStart atStart
  refine ⟨enclosingEq, ?_⟩
  cases topEq : state.top with
  | nil => exact .inl rfl
  | cons node others =>
      rw [topEq] at blank
      have isBlank := blank node List.mem_cons_self
      have ⟨content, kindEq, _⟩ := isBlank
      have apart := shaped.markup.textsApart
      have fit := shaped.below
      rw [topEq] at apart fit
      have childless : node.children = [] := by
        have fits := (isFit_iff.1 fit.1).1
        rw [kindEq] at fits
        exact fits.2
      cases others with
      | nil => exact .inr ⟨node, rfl, isBlank, childless⟩
      | cons next others =>
          obtain ⟨_, nextKindEq, -⟩ := blank next (by simp)
          have notText := (apart_cons.1 apart).1 (by rw [kindEq]; rfl) next rfl
          rw [nextKindEq] at notText
          cases notText

theorem State.Drops.addLeaf {kind : NodeKind} {piece : List Char} (drops : before.Drops)
    (ahead : piece <+: before.rest) :
    ((before.after piece).addLeaf kind (before.spanOf piece)).Drops := by
  have free := State.addLeaf_lexerFree kind (before.spanOf piece)
  obtain ⟨documentEq, droppedEq⟩ :=
    State.document_addLeaf kind (before.spanOf piece) (before.after piece)
  constructor
  · rw [documentEq, droppedEq]
    exact drops.dropped
  · intro node member _
    rw [Parser.last?_addLeaf, Option.mem_some] at member
    obtain ⟨tail, restEq⟩ := ahead
    rw [← member, free.cursor_eq, State.cursor_after, Cursor.advanceBy_offset,
      show before.cursor.rest = piece ++ tail from restEq.symm, List.take_left]
    rfl

/-- A declaration drops the one text at most that stands before it, which ends where
the declaration begins. -/
theorem State.Drops.declare {declaration : Declaration} {piece : List Char}
    (drops : before.Drops) (shaped : before.Shaped) (atStart : before.atStart = true)
    (positionEq : declaration.position = before.spanOf piece) :
    ((before.after piece).declare declaration).Drops := by
  obtain ⟨enclosingEq, topEq⟩ := shaped.top_of_atStart atStart
  have nothing : ((before.after piece).declare declaration).last? = none :=
    Parser.last?_declare atStart
  constructor
  · intro node member
    rcases List.mem_append.1 member with earlier | member
    · exact (drops.dropped node earlier).mono (List.subset_append_left _ _)
    · change node ∈ before.top.reverse at member
      rcases topEq with topEq | ⟨text, topEq, isBlank, childless⟩
      · simp [topEq] at member
      · obtain rfl : node = text := by simpa [topEq] using member
        have lastEq : before.last? = some node := by
          simp [State.last?, enclosingEq, topEq]
        have isText : node.kind.isText = true := by
          obtain ⟨content, kindEq, -⟩ := isBlank
          rw [kindEq]
          rfl
        refine ⟨isBlank, childless, declaration, by simp [State.declare], ?_⟩
        rw [positionEq, drops.ended node lastEq isText]
        rfl
  · simp [nothing]

/-- Every step keeps account of dropped texts. -/
theorem Step.drops (step : Step before after) (shaped : before.Shaped) (drops : before.Drops) :
    after.Drops := by
  cases step with
  | leaf ahead => exact drops.addLeaf ahead
  | @opened tag piece =>
      obtain ⟨lexer, intoEq⟩ := State.intoContent_eq tag
        ((before.after piece).openNode (.element tag) (before.spanOf piece))
      rw [intoEq]
      exact drops.of_none rfl rfl rfl
  | @closed tag piece ahead innermost ended =>
      obtain ⟨lexer, outEq⟩ := State.exists_outOfContent_eq tag (before.after piece)
      rw [outEq]
      obtain ⟨documentEq, droppedEq⟩ :=
        State.document_closeNode ((before.after piece).withLexer lexer)
      exact drops.of_last? documentEq droppedEq (State.last?_closeNode innermost rfl)
  | @code tag piece =>
      obtain ⟨documentEq, droppedEq⟩ :=
        State.document_addCode (String.ofList piece) (before.spanOf piece) (before.after piece)
      exact drops.of_last? documentEq droppedEq (State.last?_addCode _ _)
  | loop => exact drops.of_none rfl rfl rfl
  | block => exact drops.of_none rfl rfl rfl
  | @blockClosed ahead innermost =>
      obtain ⟨documentEq, droppedEq⟩ := State.document_closeBlock (before.after ['}'])
      exact drops.of_last? documentEq droppedEq (State.last?_closeBlock innermost)
  | declared ahead written atStart positionEq => exact drops.declare shaped atStart positionEq

end Dropping

theorem Steps.shaped (steps : Steps before after) (shaped : before.Shaped)
    (numbered : before.Numbered) (drops : before.Drops) :
    after.Shaped ∧ after.Numbered ∧ after.Drops := by
  induction steps with
  | refl => exact ⟨shaped, numbered, drops⟩
  | tail _ step ih =>
      obtain ⟨shapedThen, numberedThen, dropsThen⟩ := ih
      exact ⟨step.shaped shapedThen, step.numbered numberedThen,
        step.drops shapedThen dropsThen⟩

end Parse

namespace Parser

open Parse

/-- Every template that was parsed has the shape of one. -/
theorem shaped_of_parse {text : String} {template : Template}
    (parsed : Template.parse text = .ok template) : template.Shaped := by
  obtain ⟨content, length, after, -, steps, -, closed, rfl⟩ := parse_steps parsed
  have shaped : (behindMatter text.toList content length).Shaped :=
    ⟨.nil, Node.isMarkup_nil, trivial⟩
  have numbered : (behindMatter text.toList content length).Numbered := List.Perm.refl _
  have drops : (behindMatter text.toList content length).Drops := ⟨nofun, nofun⟩
  obtain ⟨shaped, numbered, drops⟩ := steps.shaped shaped numbered drops
  refine ⟨shaped.markup.reverse, shaped.below.reverse, ?_, drops.dropped⟩
  refine List.Perm.trans ?_ numbered
  have reversed := preorders_reverse after.top
  simp only [Template.root, State.template, Node.preorder, State.numbers, closed,
    List.flatMap_nil, List.append_nil, List.cons_append]
  exact (reversed.append_right _).cons 0

end Parser

end TemplateCompiler
