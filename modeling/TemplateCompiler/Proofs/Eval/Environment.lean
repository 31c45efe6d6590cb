import TemplateCompiler.Eval.Basic
import TemplateCompiler.Proofs.Eval.Values
import Mathlib.Data.List.Lookmap
import Mathlib.Tactic.Common

/-!
# Evaluation in environments

The evaluator keeps its variables in scopes that are made, linked and released
while it runs.  The meaning of a template needs none of that: what a node
expands to depends only on the value of every variable.  This file states that
meaning, as a recursive function of a node and an environment.  What it needs to
know of values and of kinds of nodes it says itself.

The evaluator computes it and leaves its scopes as it found them.  The invariant
is that the scopes form a stack: every scope lies above its parent.  So a scope
made on top changes no variable seen from below, and releasing it restores the
stack exactly.
-/

namespace TemplateCompiler

/-- The value of every variable that has one. -/
abbrev Environment := String → Option Json

namespace Environment

/-- The environment without variables. -/
def empty : Environment :=
  fun _ => none

/-- An environment with one more variable, which hides another one of its
name. -/
def bind (environment : Environment) (name : String) (value : Json) : Environment :=
  fun other => if other = name then some value else environment other

/-- The environment of bindings that are made one after the other. -/
def bindAll (environment : Environment) (entries : List (String × Json)) : Environment :=
  entries.foldl (fun environment entry => environment.bind entry.1 entry.2) environment

/-- The fields of an object as variables; any other value has none. -/
def ofData : Json → Environment
  | .object fields => empty.bindAll fields
  | _ => empty

/-- The value that a path leads to. -/
def follow? (environment : Environment) (path : Path) : Option Json :=
  (environment path.root).bind (·.reached? path.rest)

end Environment

namespace Eval

/-- What a node expands to. -/
abbrev Expansion := Except Error (List Html.Node)

def valueIn (environment : Environment) (position : Position) (path : Path) :
    Except Error Json :=
  match environment.follow? path with
  | some value => .ok value
  | none => .error ⟨.undefinedVariable (".".intercalate (path.root :: path.rest)), position⟩

def shownIn (environment : Environment) (position : Position) : Expr → Except Error String
  | .path path => (valueIn environment position path).map Json.shown
  | .string value => .ok value
  | .number value => .ok (NumberLayout.output.text value)
  | .boolean value => .ok (if value then "true" else "false")

/-- The items that a loop goes through: those of an array, or the values of an object in the
order of its fields. -/
def itemsIn (environment : Environment) (position : Position) (header : Loop) :
    Except Error (List Json) := do
  let path := ".".intercalate (header.collection.root :: header.collection.rest)
  match ← valueIn environment position header.collection with
  | .array items => .ok items
  | .object fields => .ok (fields.map fun field => field.2)
  | .null => .error ⟨.notIterable path "null", position⟩
  | .bool _ => .error ⟨.notIterable path "boolean", position⟩
  | .number _ => .error ⟨.notIterable path "number", position⟩
  | .string _ => .error ⟨.notIterable path "string", position⟩

/-- The environment of one round of a loop.  The index is bound last, so it
hides an item of the same name. -/
def roundIn (environment : Environment) (header : Loop) (item : Json) (index : Nat) :
    Environment :=
  (environment.bind header.item item).bind header.index (.number (.integer index))

/-- The rounds of a loop one after the other, counted from `index`. -/
def roundsIn (environment : Environment) (header : Loop) (body : Environment → Expansion) :
    (index : Nat) → List Json → Expansion
  | _, [] => .ok []
  | index, item :: items => do
      let first ← body (roundIn environment header item index)
      let others ← roundsIn environment header body (index + 1) items
      return first ++ others

/-- What a kind of node expands to, given what its content and the content of
its loop body expand to. -/
def kindIn (position : Position) (inStyle : Bool) (content : Environment → Expansion)
    (body? : Option (Environment → Expansion)) (environment : Environment) :
    NodeKind → Expansion
  | .block => content environment
  | .element tag => do return [.element tag.name tag.attributes (← content environment)]
  | .text text => .ok [.text text inStyle]
  | .comment text => .ok [.comment text]
  | .script code => .ok [.text code true]
  | .interpolation expression => do
      return [.text (← shownIn environment position expression) false]
  | .loop header =>
      match body? with
      | none => .error ⟨.emptyResult "foreach-statement", position⟩
      | some body => do
          roundsIn environment header body 0 (← itemsIn environment position header)
  | .document _ => .error ⟨.noEvaluator "document", position⟩

/-- Whether a node is an element named `style`, in any ASCII case. -/
def opensStyle : NodeKind → Bool
  | .element tag => tag.name.toList.map Char.toLower == "style".toList
  | _ => false

mutual

def expansion (inStyle : Bool) : Node → Environment → Expansion
  | .node _ kind position children, environment =>
      kindIn position inStyle (expansions (opensStyle kind) children) (bodyExpansion? children)
        environment kind

def expansions (inStyle : Bool) : List Node → Environment → Expansion
  | [], _ => .ok []
  | first :: others, environment => do
      let before ← expansion inStyle first environment
      let after ← expansions inStyle others environment
      return before ++ after

/-- What the content of the first block in a list expands to. -/
def bodyExpansion? : List Node → Option (Environment → Expansion)
  | [] => none
  | .node _ kind _ children :: others =>
      if kind = .block then some (expansions false children) else bodyExpansion? others

end

theorem opensStyle_eq (kind : NodeKind) : opensStyle kind = kind.isStyle := by
  cases kind with
  | element tag =>
      have lower : "style".toList.map Char.toLower = "style".toList := by decide
      rw [opensStyle, NodeKind.isStyle, Element.isNamed, Bool.eq_iff_iff,
        Text.equalIgnoreCase_iff, lower, beq_iff_eq]
  | _ => rfl

theorem expansion_eq (inStyle : Bool) (id : Nat) (kind : NodeKind) (position : Position)
    (children : List Node) (environment : Environment) :
    expansion inStyle (.node id kind position children) environment =
      kindIn position inStyle (expansions kind.isStyle children) (bodyExpansion? children)
        environment kind := by
  rw [expansion, opensStyle_eq]

theorem bodyExpansion?_cons (id : Nat) (kind : NodeKind) (position : Position)
    (children others : List Node) :
    bodyExpansion? (.node id kind position children :: others) =
      if kind.isBlock then some (expansions false children) else bodyExpansion? others := by
  cases kind <;> rfl

theorem eq_block_of_isBlock {kind : NodeKind} (isBlock : kind.isBlock = true) :
    kind = .block := by
  cases kind <;> first | rfl | contradiction

section Outcomes

variable {environment : Environment} {position : Position} {error : Error}

theorem ok_of_bind {α β : Type} {first : Except Error α} {next : α → Except Error β} {result : β}
    (succeeded : (first >>= next) = .ok result) :
    ∃ value, first = .ok value ∧ next value = .ok result := by
  cases first with
  | error error => contradiction
  | ok value => exact ⟨value, rfl, succeeded⟩

theorem error_of_bind {α β : Type} {first : Except Error α} {next : α → Except Error β}
    (failed : (first >>= next) = .error error) :
    first = .error error ∨ ∃ value, first = .ok value ∧ next value = .error error := by
  cases first with
  | error other =>
      left
      cases failed
      rfl
  | ok value => exact .inr ⟨value, rfl, failed⟩

theorem error_of_valueIn {path : Path}
    (failed : valueIn environment position path = .error error) :
    error = ⟨.undefinedVariable path.text, position⟩ := by
  unfold valueIn at failed
  split at failed
  · contradiction
  · exact (Except.error.inj failed).symm

theorem error_of_shownIn {expression : Expr}
    (failed : shownIn environment position expression = .error error) :
    ∃ path : Path, error = ⟨.undefinedVariable path.text, position⟩ := by
  cases expression with
  | path path =>
      cases found : valueIn environment position path with
      | ok value => simp [shownIn, found, Except.map] at failed
      | error other =>
          simp only [shownIn, found, Except.map] at failed
          cases failed
          exact ⟨path, error_of_valueIn found⟩
  | string value | number value | boolean value => contradiction

theorem error_of_itemsIn {header : Loop}
    (failed : itemsIn environment position header = .error error) :
    error = ⟨.undefinedVariable header.collection.text, position⟩ ∨
      ∃ found, error = ⟨.notIterable header.collection.text found, position⟩ := by
  rcases error_of_bind failed with failed | ⟨collection, -, failed⟩
  · exact .inl (error_of_valueIn failed)
  · cases collection with
    | array items | object fields => contradiction
    | null | bool value | number value | string value =>
        exact .inr ⟨_, (Except.error.inj failed).symm⟩

end Outcomes

end Eval

/-- The document type that is declared first: the parameters of its declaration, with blanks
between them. -/
def Document.declaredType? (document : Document) : Option String :=
  (document.declarations.find? fun declaration =>
    declaration.name.toList.map Char.toLower == "doctype".toList).map fun declaration =>
      " ".intercalate declaration.parameters

theorem Document.declaredType?_eq (document : Document) :
    document.declaredType? = document.doctype? := by
  rw [declaredType?, doctype?]
  induction document.declarations with
  | nil => rfl
  | cons first others ih =>
      have lower : "doctype".toList.map Char.toLower = "doctype".toList := by decide
      have isDoctype : (first.name.toList.map Char.toLower == "doctype".toList) =
          Text.equalIgnoreCase first.name.toList "doctype".toList := by
        rw [Bool.eq_iff_iff, Text.equalIgnoreCase_iff, lower, beq_iff_eq]
      rw [List.find?_cons, List.findSome?_cons, Declaration.doctype?, isDoctype, ← ih]
      cases Text.equalIgnoreCase first.name.toList "doctype".toList <;> rfl

/-- What a template expands to, as a document. -/
def Template.expansion (template : Template) (environment : Environment) :
    Except Eval.Error Html.Document := do
  return ⟨template.document.declaredType?, ← Eval.expansions false template.children environment⟩

end TemplateCompiler
