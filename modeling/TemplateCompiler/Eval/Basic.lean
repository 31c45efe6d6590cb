import TemplateCompiler.Eval.Error
import TemplateCompiler.Eval.Scope
import TemplateCompiler.Eval.Value
import TemplateCompiler.Html.Node
import TemplateCompiler.Template.Arena

/-!
# Evaluation

Every node of a template evaluates to a list of output nodes, so that a block
or a loop expands in place.  A loop evaluates its body once for each item, in a
scope of its own that is released right after, also when the body fails.
-/

namespace TemplateCompiler

/-- An evaluation; the context is kept when it fails. -/
abbrev Evaluation := EStateM Eval.Error Context

namespace Eval

/-- The value of a path in a scope, at the node in question. -/
def resolve (position : Position) (path : Path) (slot : Nat) : Evaluation Json := do
  match ((← get).get? slot path.root).bind (·.lookup? path.rest) with
  | some value => return value
  | none => throw ⟨.undefinedVariable path.text, position⟩

/-- The text an interpolation shows. -/
def interpolate (position : Position) (slot : Nat) : Expr → Evaluation String
  | .path path => return (← resolve position path slot).text
  | .string value => return value
  | .number value => return NumberLayout.output.text value
  | .boolean value => return if value then "true" else "false"

/-- The items of the collection of a loop. -/
def loopItems (position : Position) (header : Loop) (slot : Nat) : Evaluation (List Json) := do
  let collection ← resolve position header.collection slot
  match collection.items? with
  | some items => return items
  | none => throw ⟨.notIterable header.collection.text collection.kindName, position⟩

/-- Evaluates in a scope under a parent, and releases the scope whatever the
outcome. -/
def withScope {α : Type} (parent : Nat) (entries : List (String × Json))
    (body : Nat → Evaluation α) : Evaluation α := fun context =>
  let (larger, slot) := context.child parent entries
  match body slot larger with
  | .ok value after => .ok value (after.release slot)
  | .error error after => .error error (after.release slot)

/-- Evaluates the body of a loop for each item, counting from `index`. -/
def iterate (header : Loop) (slot : Nat) (body : Nat → Evaluation (List Html.Node)) :
    (index : Nat) → (items : List Json) → Evaluation (List Html.Node)
  | _, [] => return []
  | index, item :: items => do
      let entries := [(header.item, item), (header.index, Json.ofNat index)]
      let first ← withScope slot entries body
      let others ← iterate header slot body (index + 1) items
      return first ++ others

/-- Evaluates a loop with a given body. -/
def loop (position : Position) (header : Loop) (slot : Nat)
    (body? : Option (Nat → Evaluation (List Html.Node))) : Evaluation (List Html.Node) := do
  match body? with
  | none => throw ⟨.emptyResult (NodeKind.loop header).name, position⟩
  | some body => iterate header slot body 0 (← loopItems position header slot)

mutual

/-- Evaluates a node in a scope; `inStyle` tells whether its parent is a style
element, the text of which is raw. -/
def node (inStyle : Bool) : Node → (slot : Nat) → Evaluation (List Html.Node)
  | .node _ kind position children, slot => do
      match kind with
      | .block => nodes false children slot
      | .element tag =>
          let content ← nodes kind.isStyle children slot
          return [.element tag.name tag.attributes content]
      | .text content => return [.text content inStyle]
      | .comment content => return [.comment content]
      | .script code => return [.text code true]
      | .interpolation expression =>
          return [.text (← interpolate position slot expression) false]
      | .loop header => loop position header slot (firstBlock children)
      | .document head => throw ⟨.noEvaluator (NodeKind.document head).name, position⟩

/-- Evaluates nodes one after the other. -/
def nodes (inStyle : Bool) : List Node → (slot : Nat) → Evaluation (List Html.Node)
  | [], _ => return []
  | first :: others, slot => do
      let before ← node inStyle first slot
      let after ← nodes inStyle others slot
      return before ++ after

/-- The evaluation of the content of the first block in a list. -/
def firstBlock : List Node → Option (Nat → Evaluation (List Html.Node))
  | [] => none
  | .node _ kind _ children :: others =>
      if kind.isBlock then some (nodes false children) else firstBlock others

end

/-- Evaluates the nodes at the top of a template in the root scope. -/
def document (head : Document) (children : List Node) : Evaluation Html.Document := do
  return ⟨head.doctype?, ← nodes false children 0⟩

end Eval

/-- Evaluates a template against data. -/
def Template.evaluate (template : Template) (data : Json) : Except Eval.Error Html.Document :=
  match Eval.document template.document template.children (.ofData data) with
  | .ok result _ => .ok result
  | .error error _ => .error error

/-- Evaluates the tree of an arena. -/
def Arena.evaluate (arena : Arena) : Evaluation Html.Document :=
  match arena.tree 0 with
  | .node _ (.document head) _ children => Eval.document head children
  | .node _ _ _ children => Eval.document ⟨"", []⟩ children

end TemplateCompiler
