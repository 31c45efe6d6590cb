import TemplateCompiler.Template.Kind

/-!
# Template trees

A node together with everything below it.  Nodes are numbered in the order in
which they were made.
-/

namespace TemplateCompiler

/-- A node of a template with its subtree. -/
inductive Node where
  | node (id : Nat) (kind : NodeKind) (position : Position) (children : List Node)

namespace Node

/-- The number of a node. -/
def id : Node → Nat
  | .node id _ _ _ => id

def kind : Node → NodeKind
  | .node _ kind _ _ => kind

def position : Node → Position
  | .node _ _ position _ => position

/-- The nodes directly below a node. -/
def children : Node → List Node
  | .node _ _ _ children => children

/-- A node with nothing below it. -/
def leaf (id : Nat) (kind : NodeKind) (position : Position) : Node :=
  .node id kind position []

mutual

/-- The numbers of a node and all nodes below it, each node before its
children. -/
def preorder : Node → List Nat
  | .node id _ _ children => id :: preorders children

/-- The numbers of a list of nodes and all nodes below them. -/
def preorders : List Node → List Nat
  | [] => []
  | first :: others => preorder first ++ preorders others

end

end Node

/-- A parsed template. -/
structure Template where
  document : Document
  /-- The nodes at the top. -/
  children : List Node
  /-- The texts that stood before a declaration, which are no part of the
  tree. -/
  dropped : List Node
  /-- The number of nodes made, the document and the dropped texts
  included. -/
  size : Nat

/-- The document node with the whole tree below it.  Its number is zero. -/
def Template.root (template : Template) : Node :=
  .node 0 (.document template.document) .start template.children

end TemplateCompiler
