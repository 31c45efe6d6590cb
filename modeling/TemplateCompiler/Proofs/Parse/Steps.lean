import TemplateCompiler.Parse.Tag
import TemplateCompiler.Proofs.Parse.Building
import TemplateCompiler.Proofs.Template.Paths
import TemplateCompiler.Proofs.Template.Spelling
import Mathlib.Logic.Relation

/-!
# Parsing in steps

A template is read in steps.  Each step takes the characters of one construct,
or of the beginning or the end of one, and changes what was built accordingly.
The steps do not mention tokens, so what holds of every template that can be
parsed is proved by looking at a dozen changes of a state.

A step tells what it may follow: no text is added behind a text, and the content
of a script or a style is code and interpolations, or a single text.  It also tells
how the path is written that an interpolation or a loop holds.

That the parser reads nothing but sequences of these steps is shown apart from
them.
-/

namespace TemplateCompiler

namespace Parse

/-- The mode in which the content of the innermost construct is read, unless that
is markup. -/
def contentModeIn? (enclosing : List Open) : Option LexMode :=
  (enclosing.head?.map (·.kind)).bind NodeKind.contentMode?

namespace State

/-- The state in the mode for the content of an element. -/
def intoContent (tag : Element) (state : State) : State :=
  match tag.contentMode? with
  | some mode => state.entered mode
  | none => state

/-- The state out of the mode for the content of an element. -/
def outOfContent (tag : Element) (state : State) : State :=
  match tag.contentMode? with
  | some _ => state.left
  | none => state

/-- Closes a block, and the loop whose body it is. -/
def closeBlock (state : State) : State :=
  match state.closeNode.innermost? with
  | some (.loop _) => state.closeNode.closeNode
  | _ => state.closeNode

/-- The last node at the innermost place. -/
def last? (state : State) : Option Node :=
  match state.enclosing with
  | construct :: _ => construct.children.head?
  | [] => state.top.head?

def contentMode? (state : State) : Option LexMode :=
  contentModeIn? state.enclosing

/-- Whether a node that is read as a whole may stand next. -/
def Accepts (kind : NodeKind) (state : State) : Prop :=
  match state.contentMode? with
  | none => kind.isText = true → ∀ node ∈ state.last?, node.kind.isText = false
  | some .script => kind.isInterpolation = true
  | some _ => kind.isText = true ∧ state.last? = none

theorem closeBlock_of_loop {state : State} {header : Loop}
    (loop : state.closeNode.innermost? = some (.loop header)) :
    state.closeBlock = state.closeNode.closeNode := by
  rw [closeBlock, loop]

theorem closeBlock_of_other {state : State}
    (other : ∀ header, state.closeNode.innermost? ≠ some (.loop header)) :
    state.closeBlock = state.closeNode := by
  unfold closeBlock
  split
  · next header loop => exact (other header loop).elim
  · rfl

/-- A block that is not the body of a loop is closed by itself. -/
theorem closeBlock_eq_add {state : State} {construct : Open} {outer : List Open}
    (enclosingEq : state.enclosing = construct :: outer)
    (notInLoop : ∀ next ∈ outer.head?, ∀ header, next.kind ≠ .loop header) :
    state.closeBlock = ({ state with enclosing := outer }).add construct.node := by
  have closedEq : state.closeNode = ({ state with enclosing := outer }).add construct.node := by
    rw [closeNode, enclosingEq]
  rw [closeBlock_of_other, closedEq]
  intro header loopInnermost
  rw [closedEq, innermost?_eq_frames, frames_add, ← innermost?_eq_frames] at loopInnermost
  obtain ⟨next, member, kindEq⟩ := Option.map_eq_some_iff.1 loopInnermost
  exact notInLoop next member header kindEq

theorem closeBlock_lexerFree : LexerFree closeBlock := by
  intro state lexer
  unfold closeBlock
  rw [closeNode_lexerFree, innermost?_withLexer]
  split
  · exact closeNode_lexerFree _ _
  · rfl

end State

/-- A step of parsing: some characters are taken and the state changes. -/
inductive Step : State → State → Prop
  | leaf {state : State} {kind : NodeKind} {piece : List Char}
      (ahead : piece <+: state.rest) (written : kind.IsWritten piece)
      (childless : kind.IsChildless) (accepted : state.Accepts kind) (named : kind.IsNamed)
      (pathed : kind.SpellsPath piece) :
      Step state ((state.after piece).addLeaf kind (state.spanOf piece))
  | opened {state : State} {tag : Element} {piece : List Char}
      (ahead : piece <+: state.rest) (written : (NodeKind.element tag).IsWritten piece)
      (hasContent : tag.selfClosing = false) (notVoid : Parser.isVoid tag.name = false)
      (inMarkup : state.contentMode? = none) (named : tag.IsNamed) :
      Step state
        (((state.after piece).openNode (.element tag) (state.spanOf piece)).intoContent tag)
  | closed {state : State} {tag : Element} {piece : List Char}
      (ahead : piece <+: state.rest) (innermost : state.innermost? = some (.element tag))
      (ended : tag.IsEndedBy piece) :
      Step state ((state.after piece).outOfContent tag).closeNode
  | code {state : State} {tag : Element} {piece : List Char}
      (ahead : piece <+: state.rest) (nonempty : piece ≠ [])
      (innermost : state.innermost? = some (.element tag))
      (script : tag.contentMode? = some .script) :
      Step state ((state.after piece).addCode (String.ofList piece) (state.spanOf piece))
  | loop {state : State} {header : Loop} {head : List Char}
      (ahead : head ++ ['{'] <+: state.rest) (written : ['@'] <+: head)
      (inMarkup : state.contentMode? = none) (indexed : header.index = Loop.indexName)
      (pathed : (NodeKind.loop header).SpellsPath (head ++ ['{'])) :
      Step state
        (((state.after (head ++ ['{'])).openNode (.loop header)
          (state.spanOf (head ++ ['{']))).openNode .block ((state.after head).spanOf ['{']))
  | block {state : State} (ahead : ['{'] <+: state.rest)
      (inMarkup : state.contentMode? = none) :
      Step state ((state.after ['{']).openNode .block (state.spanOf ['{']))
  | blockClosed {state : State} (ahead : ['}'] <+: state.rest)
      (innermost : state.innermost? = some .block) :
      Step state (state.after ['}']).closeBlock
  | declared {state : State} {declaration : Declaration} {piece : List Char}
      (ahead : piece <+: state.rest) (written : declaration.IsWritten piece)
      (atStart : state.atStart = true)
      (positionEq : declaration.position = state.spanOf piece) :
      Step state ((state.after piece).declare declaration)

/-- Any number of steps. -/
abbrev Steps : State → State → Prop :=
  Relation.ReflTransGen Step

end Parse

end TemplateCompiler
