import TemplateCompiler.Template.Node

/-!
# Template arenas

An arena holds the nodes of a template in a table and refers to them by their
numbers.  A node lists its children and knows its parent, so nodes can be
moved, taken out and changed in place.  Nodes are never removed from the table;
a node that was taken out keeps its number.

A node is in the list of its parent and in no other: before a node is appended
somewhere it is taken out of where it was.
-/

namespace TemplateCompiler

/-- An entry of an arena. -/
structure ArenaNode where
  kind : NodeKind
  position : Position
  parent : Option Nat
  children : List Nat
deriving DecidableEq

instance : Inhabited ArenaNode :=
  ⟨⟨.block, .start, none, []⟩⟩

/-- A table of nodes.  The document is the first of them. -/
structure Arena where
  nodes : Array ArenaNode

namespace Arena

/-- The arena that holds only a document. -/
def ofDocument (document : Document) (position : Position) : Arena :=
  ⟨#[⟨.document document, position, none, []⟩]⟩

def size (arena : Arena) : Nat :=
  arena.nodes.size

def get? (arena : Arena) (id : Nat) : Option ArenaNode :=
  arena.nodes[id]?

def parent? (arena : Arena) (id : Nat) : Option Nat :=
  (arena.get? id).bind (·.parent)

def children (arena : Arena) (id : Nat) : List Nat :=
  ((arena.get? id).map (·.children)).getD []

def lastChild? (arena : Arena) (id : Nat) : Option Nat :=
  (arena.children id).getLast?

/-- The body of a loop: its first child that is a block. -/
def loopBody? (arena : Arena) (id : Nat) : Option Nat :=
  (arena.children id).find? fun child => ((arena.get? child).map (·.kind.isBlock)).getD false

/-- Changes the entry of a node. -/
def update (arena : Arena) (id : Nat) (change : ArenaNode → ArenaNode) : Arena :=
  ⟨arena.nodes.modify id change⟩

/-- Adds a node that is not in the tree, and gives its number. -/
def alloc (arena : Arena) (kind : NodeKind) (position : Position) : Arena × Nat :=
  (⟨arena.nodes.push ⟨kind, position, none, []⟩⟩, arena.nodes.size)

/-- Takes a node, with what is below it, out of the list of its parent. -/
def detach (arena : Arena) (child : Nat) : Arena :=
  match arena.parent? child with
  | none => arena
  | some parent =>
      (arena.update child ({ · with parent := none })).update parent fun node =>
        { node with children := node.children.filter (· != child) }

/-- Puts a node at the end of the list of a parent. -/
def append (arena : Arena) (parent child : Nat) : Arena :=
  ((arena.detach child).update child ({ · with parent := some parent })).update parent
    fun node => { node with children := node.children ++ [child] }

/-- Adds a node at the end of the list of a parent, and gives its number. -/
def pushChild (arena : Arena) (parent : Nat) (kind : NodeKind) (position : Position) :
    Arena × Nat :=
  let (larger, id) := arena.alloc kind position
  (larger.append parent id, id)

def setKind (arena : Arena) (id : Nat) (kind : NodeKind) : Arena :=
  arena.update id ({ · with kind := kind })

def setFrontMatter (arena : Arena) (text : String) : Arena :=
  arena.update 0 fun node =>
    match node.kind with
    | .document document => { node with kind := .document { document with frontMatter := text } }
    | _ => node

/-- The subtree at a node, no deeper than `depth` levels. -/
def subtree (arena : Arena) : (depth : Nat) → (id : Nat) → Node
  | depth, id =>
      let node := (arena.get? id).getD default
      match depth with
      | 0 => .leaf id node.kind node.position
      | depth + 1 => .node id node.kind node.position (node.children.map (subtree arena depth))

/-- The subtree at a node.  No path through a tree is longer than the number of
nodes. -/
def tree (arena : Arena) (id : Nat) : Node :=
  arena.subtree arena.size id

/-- The numbers of a node and the nodes below it, each node before its
children. -/
def preorder (arena : Arena) (id : Nat) : List Nat :=
  (arena.tree id).preorder

mutual

/-- Enters a subtree into the table, under the numbers its nodes have. -/
def enter (parent : Option Nat) : Node → Array ArenaNode → Array ArenaNode
  | .node id kind position children, nodes =>
      enterAll id children
        (nodes.setIfInBounds id ⟨kind, position, parent, children.map Node.id⟩)

def enterAll (parent : Nat) : List Node → Array ArenaNode → Array ArenaNode
  | [], nodes => nodes
  | node :: others, nodes => enterAll parent others (enter (some parent) node nodes)

end

end Arena

/-- The arena of a parsed template.  Dropped texts are entries without a
parent. -/
def Template.arena (template : Template) : Arena :=
  let entered := Arena.enter none template.root (Array.replicate template.size default)
  ⟨template.dropped.foldl (fun nodes node => Arena.enter none node nodes) entered⟩

end TemplateCompiler
