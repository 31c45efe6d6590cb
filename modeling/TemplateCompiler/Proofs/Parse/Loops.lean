import TemplateCompiler.Proofs.Parse.Kinds

/-!
# The index of a loop

A loop tells in which variable its body finds the position of an item, but a
source has no way to choose it.  So all loops of a parsed template have the same
one, at whatever depth they are.
-/

namespace TemplateCompiler

/-- Whether a node keeps the position of an item in the one variable for it, if
it is a loop. -/
def NodeKind.IsIndexed : NodeKind → Prop
  | .loop header => header.index = Loop.indexName
  | _ => True

theorem NodeKind.IsRead.isIndexed {kind : NodeKind} (read : kind.IsRead) : kind.IsIndexed := by
  cases kind with
  | loop header => exact read
  | _ => trivial

namespace Node

mutual

/-- Whether a node and the nodes below it use the one variable. -/
def IsIndexed : Node → Prop
  | .node _ kind _ children => kind.IsIndexed ∧ AllIndexed children

def AllIndexed : List Node → Prop
  | [] => True
  | first :: others => IsIndexed first ∧ AllIndexed others

end

mutual

theorem isIndexed_of_holds : (node : Node) → node.Holds NodeKind.IsRead → node.IsIndexed
  | .node _ _ _ children, holds => ⟨holds.1.isIndexed, allIndexed_of_allHold children holds.2⟩

theorem allIndexed_of_allHold : (nodes : List Node) → AllHold NodeKind.IsRead nodes →
    AllIndexed nodes
  | [], _ => trivial
  | first :: others, hold =>
      ⟨isIndexed_of_holds first hold.1, allIndexed_of_allHold others hold.2⟩

end

end Node

/-- All loops of a parsed template use the one variable. -/
theorem Parser.allIndexed_of_parse {text : String} {template : Template}
    (parsed : Template.parse text = .ok template) : Node.AllIndexed template.children :=
  Node.allIndexed_of_allHold _ (allHold_of_parse parsed)

end TemplateCompiler
