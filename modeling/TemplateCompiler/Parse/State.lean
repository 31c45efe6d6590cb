import TemplateCompiler.Lex.Lexer
import TemplateCompiler.Template.Node
import TemplateCompiler.Text.WhiteSpace

/-!
# Parser states

While a template is read, the elements, loops and blocks that are still open
form a stack, each with the children it has so far.  A finished node becomes a
child of the innermost open construct, or a node at the top when nothing is
open.  Nodes are numbered as they are made; zero is the document.
-/

namespace TemplateCompiler

namespace Parse

/-- An element, loop or block whose end has not been read. -/
structure Open where
  id : Nat
  kind : NodeKind
  position : Position
  /-- The children so far, the last one first. -/
  children : List Node

/-- The node that an open construct becomes when it is closed. -/
def Open.node (construct : Open) : Node :=
  .node construct.id construct.kind construct.position construct.children.reverse

/-- What is known while a template is read. -/
structure State where
  lexer : Lexer
  document : Document
  /-- The constructs that are open, the innermost first. -/
  enclosing : List Open
  /-- The finished nodes at the top, the last one first. -/
  top : List Node
  /-- The texts that stood before a declaration. -/
  dropped : List Node
  /-- The number of nodes made. -/
  size : Nat

namespace State

def ofText (text : List Char) : State :=
  ⟨.ofText text, ⟨"", []⟩, [], [], [], 1⟩

def add (node : Node) (state : State) : State :=
  match state.enclosing with
  | construct :: outer =>
      { state with enclosing := { construct with children := node :: construct.children } :: outer }
  | [] => { state with top := node :: state.top }

/-- Makes a node without children and adds it. -/
def addLeaf (kind : NodeKind) (position : Position) (state : State) : State :=
  ({ state with size := state.size + 1 }).add (.leaf state.size kind position)

/-- Makes a node and opens it. -/
def openNode (kind : NodeKind) (position : Position) (state : State) : State :=
  { state with
    enclosing := ⟨state.size, kind, position, []⟩ :: state.enclosing
    size := state.size + 1 }

/-- Closes the innermost open construct. -/
def closeNode (state : State) : State :=
  match state.enclosing with
  | construct :: outer => ({ state with enclosing := outer }).add construct.node
  | [] => state

/-- What the innermost open construct is. -/
def innermost? (state : State) : Option NodeKind :=
  state.enclosing.head?.map (·.kind)

/-- The open construct that is named when one is missing its end: the innermost,
or the loop when that is the body of a loop. -/
def unclosed? (state : State) : Option Open :=
  match state.enclosing with
  | ⟨id, .block, position, children⟩ :: outer =>
      match outer with
      | ⟨loopId, .loop header, loopPosition, others⟩ :: _ =>
          some ⟨loopId, .loop header, loopPosition, others⟩
      | _ => some ⟨id, .block, position, children⟩
  | construct :: _ => some construct
  | [] => none

/-- Whether nothing but white space has been read since the front matter and the
declarations. -/
def atStart (state : State) : Bool :=
  state.enclosing.isEmpty && state.top.all fun node =>
    match node.kind with
    | .text content => Text.isBlank content
    | _ => false

/-- Adds a declaration and drops the white space before it. -/
def declare (declaration : Declaration) (state : State) : State :=
  { state with
    document :=
      { state.document with declarations := state.document.declarations ++ [declaration] }
    top := []
    dropped := state.dropped ++ state.top.reverse }

/-- The template that was read. -/
def template (state : State) : Template :=
  ⟨state.document, state.top.reverse, state.dropped, state.size⟩

end State

end Parse

end TemplateCompiler
