import TemplateCompiler.Proofs.Actions
import TemplateCompiler.Proofs.Eval.ScopeStack

/-!
# The evaluator computes expansions

An evaluation that starts in a scope of a stack gives what the node expands to
in the environment that the scope shows, errors included, and leaves the stack
as it was.
-/

namespace TemplateCompiler

namespace Eval

/-- An action gives a result in a context and leaves the context as it was. -/
def Computes {α : Type} (action : Evaluation α) (context : Context) (result : Except Error α) :
    Prop :=
  action context =
    match result with
    | .ok value => .ok value context
    | .error error => .error error context

namespace Computes

variable {α β : Type} {context : Context}

theorem ok (value : α) : Computes (pure value) context (.ok value) :=
  rfl

theorem error (failure : Error) : Computes (throw failure : Evaluation α) context
    (.error failure) :=
  rfl

theorem bind {action : Evaluation α} {result : Except Error α}
    {next : α → Evaluation β} {nextResult : α → Except Error β}
    (first : Computes action context result)
    (second : ∀ value, Computes (next value) context (nextResult value)) :
    Computes (action >>= next) context (result >>= nextResult) := by
  simp only [Computes, run_bind] at first second ⊢
  rw [first]
  cases result with
  | ok value => exact second value
  | error failure => rfl

end Computes

/-- A scope in which an environment can be seen: a live one of a stack that
shows the environment. -/
structure Sees (context : Context) (slot : Nat) (environment : Environment) : Prop where
  stacked : context.Stacked
  live : slot < context.depth
  shows_ : context.Shows slot environment

variable {context : Context} {slot : Nat} {environment : Environment}

theorem resolve_computes (sees : Sees context slot environment) (position : Position)
    (path : Path) :
    Computes (resolve position path slot) context (valueIn environment position path) := by
  simp only [Computes, resolve, valueIn, Environment.follow?, ← sees.shows_ path.root,
    run_bind, run_get, Json.lookup?_eq_reached?]
  cases (context.get? slot path.root).bind fun value => value.reached? path.rest <;> rfl

theorem interpolate_computes (sees : Sees context slot environment) (position : Position)
    (expression : Expr) :
    Computes (interpolate position slot expression) context
      (shownIn environment position expression) := by
  cases expression with
  | path path =>
      have shown : shownIn environment position (.path path) =
          valueIn environment position path >>= fun value => .ok value.text := by
        cases valueEq : valueIn environment position path <;>
          simp [shownIn, valueEq, Except.map, Bind.bind, Except.bind, Json.text_eq_shown]
      rw [shown]
      exact (resolve_computes sees position path).bind fun value => .ok value.text
  | string value => exact .ok value
  | number value => exact .ok _
  | boolean value => exact .ok _

theorem loopItems_computes (sees : Sees context slot environment) (position : Position)
    (header : Loop) :
    Computes (loopItems position header slot) context (itemsIn environment position header) := by
  apply (resolve_computes sees position header.collection).bind
  intro collection
  cases collection with
  | array items => exact .ok items
  | object fields => exact .ok (fields.map fun field => field.2)
  | null | bool value | number value | string value => exact .error _

theorem sees_round (sees : Sees context slot environment) (header : Loop) (item : Json)
    (index : Nat) :
    let scope := context.child slot [(header.item, item), (header.index, Json.ofNat index)]
    Sees scope.1 scope.2 (roundIn environment header item index) where
  stacked := Context.stacked_child sees.stacked sees.live _
  live := by simp [Context.child, Context.depth]
  shows_ := by
    intro name
    rw [Context.get?_child sees.stacked sees.live, sees.shows_ name]
    exact (environment.bindAll_eq _ name).symm

/-- A body that computes its meaning in the scope of a round does so in a scope
that is made for it and released after it. -/
theorem withScope_computes {α : Type} {parent : Nat} {entries : List (String × Json)}
    {body : Nat → Evaluation α} {result : Except Error α} (nonempty : 0 < context.depth)
    (computes : Computes (body (context.child parent entries).2)
      (context.child parent entries).1 result) :
    Computes (withScope parent entries body) context result := by
  have released := Context.release_child nonempty parent entries
  simp only [Computes, withScope] at computes ⊢
  rw [computes]
  cases result <;> simp only [released]

theorem iterate_computes {header : Loop} {body : Nat → Evaluation (List Html.Node)}
    {meaning : Environment → Expansion}
    (bodyComputes : ∀ {context slot environment}, Sees context slot environment →
      Computes (body slot) context (meaning environment))
    (sees : Sees context slot environment) (items : List Json) (index : Nat) :
    Computes (iterate header slot body index items) context
      (roundsIn environment header meaning index items) := by
  induction items generalizing index with
  | nil => exact .ok []
  | cons item items ih =>
      have first := withScope_computes (Nat.zero_lt_of_lt sees.live)
        (bodyComputes (sees_round sees header item index))
      exact first.bind fun before => (ih (index + 1)).bind fun after => .ok (before ++ after)

mutual

/-- A node computes its expansion. -/
theorem node_computes (inStyle : Bool) : (node : Node) → {context : Context} → {slot : Nat} →
    {environment : Environment} → Sees context slot environment →
    Computes (Eval.node inStyle node slot) context (expansion inStyle node environment)
  | .node _ kind position children, context, slot, environment, sees => by
      cases kind with
      | document head => exact .error _
      | element tag =>
          rw [expansion_eq]
          exact (nodes_computes _ children sees).bind fun content => .ok _
      | text content => exact .ok _
      | comment content => exact .ok _
      | script code => exact .ok _
      | block => exact nodes_computes false children sees
      | interpolation expression =>
          exact (interpolate_computes sees position expression).bind fun text => .ok _
      | loop header =>
          have body := firstBlock_computes children
          simp only [Eval.node, expansion, kindIn, loop]
          cases found : firstBlock children with
          | none =>
              cases meaningEq : bodyExpansion? children with
              | none => exact .error _
              | some meaning => simp [found, meaningEq] at body
          | some run =>
              cases meaningEq : bodyExpansion? children with
              | none => simp [found, meaningEq] at body
              | some meaning =>
                  simp only [found, meaningEq] at body
                  exact (loopItems_computes sees position header).bind fun items =>
                    iterate_computes body sees items 0

/-- A list of nodes computes its expansion. -/
theorem nodes_computes (inStyle : Bool) : (nodes : List Node) → {context : Context} →
    {slot : Nat} → {environment : Environment} → Sees context slot environment →
    Computes (Eval.nodes inStyle nodes slot) context (expansions inStyle nodes environment)
  | [], _, _, _, _ => .ok []
  | first :: others, _, _, _, sees =>
      (node_computes inStyle first sees).bind fun before =>
        (nodes_computes inStyle others sees).bind fun after => .ok (before ++ after)

/-- The content of the first block of a list computes its expansion. -/
theorem firstBlock_computes : (nodes : List Node) →
    match firstBlock nodes, bodyExpansion? nodes with
    | none, none => True
    | some run, some meaning => ∀ {context : Context} {slot : Nat} {environment : Environment},
        Sees context slot environment → Computes (run slot) context (meaning environment)
    | _, _ => False
  | [] => trivial
  | .node _ kind _ children :: others => by
      simp only [firstBlock, bodyExpansion?_cons]
      cases kind.isBlock with
      | true => exact fun sees => nodes_computes false children sees
      | false => exact firstBlock_computes others

end

theorem sees_ofBindings (entries : List (String × Json)) :
    Sees (.ofBindings entries) 0 (Environment.empty.bindAll entries) where
  stacked := Context.stacked_ofBindings entries
  live := Nat.zero_lt_one
  shows_ := by
    intro name
    rw [Context.get?_eq (Context.stacked_ofBindings entries), Environment.bindAll_eq]
    simp [Context.ofBindings, Bindings.ofList, Environment.empty]

theorem sees_ofData (data : Json) : Sees (.ofData data) 0 (Environment.ofData data) := by
  cases data <;> exact sees_ofBindings _

/-- The top of a template computes its expansion. -/
theorem document_computes (head : Document) (children : List Node)
    (sees : Sees context 0 environment) :
    Computes (document head children) context
      (return ⟨head.declaredType?, ← expansions false children environment⟩ :
        Except Error Html.Document) := by
  rw [head.declaredType?_eq]
  exact (nodes_computes false children sees).bind fun content =>
    .ok (⟨head.doctype?, content⟩ : Html.Document)

end Eval

/-- A template evaluates to what it expands to in the environment of the
data. -/
theorem Template.evaluate_eq (template : Template) (data : Json) :
    template.evaluate data = template.expansion (.ofData data) := by
  have computed := Eval.document_computes template.document template.children
    (Eval.sees_ofData data)
  simp only [Eval.Computes] at computed
  rw [evaluate, computed, expansion]
  cases Eval.expansions false template.children (.ofData data) <;> rfl

end TemplateCompiler
