import TemplateCompiler.Proofs.Parse.Logic

/-!
# What the parser builds

The changes of a state that add, open and close nodes leave the lexer alone, so
they can be carried past everything that is only about the lexer.  What they do
to the constructs that are open is stated for the kinds of those.
-/

namespace TemplateCompiler

namespace Parse

namespace State

/-- Opens a loop and its body. -/
def openLoop (header : Loop) (position bodyPosition : Position) (state : State) : State :=
  (state.openNode (.loop header) position).openNode .block bodyPosition

section LexerFree

variable (kind : NodeKind) (position : Position)

theorem add_lexerFree (node : Node) : LexerFree (add node) := by
  rintro ⟨lexer, document, enclosing, top, dropped, size⟩ other
  cases enclosing <;> rfl

theorem addLeaf_lexerFree : LexerFree (addLeaf kind position) := fun state lexer =>
  add_lexerFree (.leaf state.size kind position) { state with size := state.size + 1 } lexer

theorem openNode_lexerFree : LexerFree (openNode kind position) := fun _ _ =>
  rfl

theorem openLoop_lexerFree (header : Loop) (bodyPosition : Position) :
    LexerFree (openLoop header position bodyPosition) := fun _ _ =>
  rfl

theorem closeNode_lexerFree : LexerFree closeNode := by
  rintro ⟨lexer, document, enclosing, top, dropped, size⟩ other
  cases enclosing with
  | nil => rfl
  | cons construct outer =>
      exact add_lexerFree construct.node ⟨lexer, document, outer, top, dropped, size⟩ other

theorem addCode_lexerFree (code : String) : LexerFree (addCode code position) := by
  rintro state other
  unfold addCode
  simp only [withLexer]
  split
  · rfl
  · exact addLeaf_lexerFree (.script code) position state other

theorem declare_lexerFree (declaration : Declaration) : LexerFree (declare declaration) :=
  fun _ _ => rfl

end LexerFree

variable (kind : NodeKind) (position : Position) (state : State)

theorem LexerFree.cursor_eq {change : State → State} (free : LexerFree change) (state : State) :
    (change state).cursor = state.cursor :=
  congrArg Lexer.taken (free.lexer_eq state)

theorem LexerFree.rest_eq {change : State → State} (free : LexerFree change) (state : State) :
    (change state).rest = state.rest :=
  congrArg Cursor.rest (free.cursor_eq state)

theorem LexerFree.modes_eq {change : State → State} (free : LexerFree change) (state : State) :
    (change state).modes = state.modes :=
  congrArg Lexer.modes (free.lexer_eq state)

theorem LexerFree.next {change : State → State} (free : LexerFree change) {state : State}
    {token : TokenKind} {piece : List Char} (known : state.Next token piece) :
    (change state).Next token piece := by
  have modeEq : (change state).mode = state.mode := congrArg Lexer.mode (free.lexer_eq state)
  exact ⟨by rw [modeEq, free.rest_eq]; exact known.scanned, by rw [free.rest_eq]; exact known.ahead⟩

theorem LexerFree.after_eq {change : State → State} (free : LexerFree change) (state : State)
    (piece : List Char) : (change state).after piece = change (state.after piece) := by
  rw [after, moved, free.lexer_eq, free.cursor_eq, ← free]
  rfl

/-- What the open constructs are and where they begin, the innermost first. -/
def frames (state : State) : List (NodeKind × Position) :=
  state.enclosing.map fun construct => (construct.kind, construct.position)

theorem unclosed?_eq_frames :
    state.unclosed?.map (fun construct => (construct.kind, construct.position)) =
      match state.frames with
      | (.block, _) :: (.loop header, place) :: _ => some (.loop header, place)
      | frame :: _ => some frame
      | [] => none := by
  unfold unclosed? frames
  generalize state.enclosing = enclosing
  cases enclosing with
  | nil => rfl
  | cons construct outer =>
      obtain ⟨id, kind, position, children⟩ := construct
      cases kind <;> try rfl
      cases outer with
      | nil => rfl
      | cons construct outer =>
          obtain ⟨id, kind, position, children⟩ := construct
          cases kind <;> rfl

theorem innermost?_withLexer (lexer : Lexer) :
    (state.withLexer lexer).innermost? = state.innermost? :=
  rfl

theorem innermost?_eq_frames : state.innermost? = state.frames.head?.map Prod.fst := by
  simp [innermost?, frames, Function.comp_def]

@[simp]
theorem frames_after (piece : List Char) : (state.after piece).frames = state.frames :=
  rfl

@[simp]
theorem frames_left : state.left.frames = state.frames :=
  rfl

@[simp]
theorem frames_add (node : Node) : (state.add node).frames = state.frames := by
  obtain ⟨lexer, document, enclosing, top, dropped, size⟩ := state
  cases enclosing <;> rfl

@[simp]
theorem frames_addLeaf : (state.addLeaf kind position).frames = state.frames :=
  frames_add _ _

@[simp]
theorem frames_addCode (code : String) :
    (state.addCode code position).frames = state.frames := by
  unfold addCode
  split
  · next enclosingEq => simp [frames, enclosingEq]
  · exact frames_addLeaf _ _ _

@[simp]
theorem frames_closeNode : state.closeNode.frames = state.frames.tail := by
  unfold closeNode
  split
  · next construct outer enclosingEq =>
      rw [frames_add, frames, frames, enclosingEq]
      rfl
  · next enclosingEq => simp [frames, enclosingEq]

section Growing

/-- The state with more finished nodes at the innermost place, when some number
of nodes have been made. -/
def grown (nodes : List Node) (size : Nat) (state : State) : State :=
  match state.enclosing with
  | construct :: outer =>
      { state with
        enclosing := { construct with children := nodes.reverse ++ construct.children } :: outer
        size := size }
  | [] => { state with top := nodes.reverse ++ state.top, size := size }

variable (nodes more : List Node) (size larger : Nat)

theorem grown_lexerFree : LexerFree (grown nodes size) := by
  rintro ⟨lexer, document, enclosing, top, dropped, made⟩ other
  cases enclosing <;> rfl

theorem grown_nil : state.grown [] state.size = state := by
  obtain ⟨lexer, document, enclosing, top, dropped, made⟩ := state
  cases enclosing <;> rfl

theorem grown_grown :
    (state.grown nodes size).grown more larger = state.grown (nodes ++ more) larger := by
  obtain ⟨lexer, document, enclosing, top, dropped, made⟩ := state
  cases enclosing <;> simp [grown]

theorem addLeaf_eq_grown :
    state.addLeaf kind position =
      state.grown [.leaf state.size kind position] (state.size + 1) := by
  obtain ⟨lexer, document, enclosing, top, dropped, made⟩ := state
  cases enclosing <;> rfl

theorem closeNode_grown_openNode :
    ((state.openNode kind position).grown nodes size).closeNode =
      state.grown [.node state.size kind position nodes] size := by
  obtain ⟨lexer, document, enclosing, top, dropped, made⟩ := state
  cases enclosing <;> simp [grown, openNode, closeNode, add, Open.node]

@[simp]
theorem frames_grown : (state.grown nodes size).frames = state.frames := by
  obtain ⟨lexer, document, enclosing, top, dropped, made⟩ := state
  cases enclosing <;> rfl

end Growing

end State

end Parse

end TemplateCompiler
