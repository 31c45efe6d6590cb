import TemplateCompiler.Proofs.Eval.Refinement

/-!
# Recorded evaluations

What an evaluation gives says nothing about its scopes on the way.  A recorded
evaluation also keeps its moments: the scopes there were, and the node that was
evaluated.  It records when a node begins and when it ends, whether by an error
or not, and when a loop goes on after a round.  The scopes change only when a
round begins, just before its body is entered, and when it is over, just after
its body was left; so no change goes by unrecorded.

If the moments are forgotten, what remains is the evaluation itself.
-/

namespace TemplateCompiler

namespace Eval

/-- The scopes at some time while a node is evaluated. -/
structure Moment where
  node : Nat
  context : Context

/-- The scopes of an evaluation and its moments so far, the last one first. -/
structure Recording where
  context : Context
  moments : List Moment

abbrev Recorded := EStateM Error Recording

namespace Recording

/-- Records a moment of a node. -/
def mark (id : Nat) (recording : Recording) : Recording :=
  { recording with moments := ⟨id, recording.context⟩ :: recording.moments }

@[simp] theorem context_mark (id : Nat) (recording : Recording) :
    (recording.mark id).context = recording.context :=
  rfl

@[simp] theorem moments_mark (id : Nat) (recording : Recording) :
    (recording.mark id).moments = ⟨id, recording.context⟩ :: recording.moments :=
  rfl

end Recording

section Actions

variable {α : Type}

/-- An evaluation without moments of its own. -/
def unrecorded (action : Evaluation α) : Recorded α := fun recording =>
  match action recording.context with
  | .ok value after => .ok value { recording with context := after }
  | .error error after => .error error { recording with context := after }

/-- Records the beginning and the end of the evaluation of a node. -/
def during (id : Nat) (action : Recorded α) : Recorded α := fun recording =>
  match action (recording.mark id) with
  | .ok value after => .ok value (after.mark id)
  | .error error after => .error error (after.mark id)

/-- Evaluates in a scope under a parent, and releases the scope whatever the
outcome. -/
def withScopeRecorded (parent : Nat) (entries : List (String × Json))
    (body : Nat → Recorded α) : Recorded α := fun recording =>
  let (larger, slot) := recording.context.child parent entries
  match body slot { recording with context := larger } with
  | .ok value after => .ok value { after with context := after.context.release slot }
  | .error error after => .error error { after with context := after.context.release slot }

end Actions

/-- The rounds of a loop, which is recorded again after each of them. -/
def iterateRecorded (id : Nat) (header : Loop) (slot : Nat)
    (body : Nat → Recorded (List Html.Node)) :
    (index : Nat) → (items : List Json) → Recorded (List Html.Node)
  | _, [] => return []
  | index, item :: items => do
      let entries := [(header.item, item), (header.index, Json.ofNat index)]
      let first ← withScopeRecorded slot entries body
      modify (·.mark id)
      let others ← iterateRecorded id header slot body (index + 1) items
      return first ++ others

def loopRecorded (id : Nat) (position : Position) (header : Loop) (slot : Nat)
    (body? : Option (Nat → Recorded (List Html.Node))) : Recorded (List Html.Node) := do
  match body? with
  | none => throw ⟨.emptyResult (NodeKind.loop header).name, position⟩
  | some body =>
      iterateRecorded id header slot body 0 (← unrecorded (loopItems position header slot))

mutual

def nodeRecorded (inStyle : Bool) : Node → (slot : Nat) → Recorded (List Html.Node)
  | .node id kind position children, slot => during id do
      match kind with
      | .block => nodesRecorded false children slot
      | .element tag =>
          let content ← nodesRecorded kind.isStyle children slot
          return [.element tag.name tag.attributes content]
      | .loop header => loopRecorded id position header slot (firstBlockRecorded children)
      | .text _ | .comment _ | .script _ | .interpolation _ | .document _ =>
          unrecorded (node inStyle (.node id kind position children) slot)

def nodesRecorded (inStyle : Bool) : List Node → (slot : Nat) → Recorded (List Html.Node)
  | [], _ => return []
  | first :: others, slot => do
      let before ← nodeRecorded inStyle first slot
      let after ← nodesRecorded inStyle others slot
      return before ++ after

/-- The body of a loop is recorded as a node of its own. -/
def firstBlockRecorded : List Node → Option (Nat → Recorded (List Html.Node))
  | [] => none
  | .node id kind _ children :: others =>
      if kind.isBlock then some fun slot => during id (nodesRecorded false children slot)
      else firstBlockRecorded others

end

def documentRecorded (id : Nat) (head : Document) (children : List Node) :
    Recorded Html.Document :=
  during id do return ⟨head.doctype?, ← nodesRecorded false children 0⟩

section Ends

variable {α : Type} (recording : Recording)

theorem endState_unrecorded (action : Evaluation α) :
    endState (unrecorded action recording) =
      { recording with context := endState (action recording.context) } := by
  rw [unrecorded]
  cases action recording.context <;> rfl

theorem endState_during (id : Nat) (recorded : Recorded α) :
    endState (during id recorded recording) =
      (endState (recorded (recording.mark id))).mark id := by
  rw [during]
  cases recorded (recording.mark id) <;> rfl

theorem endState_withScopeRecorded (parent : Nat) (entries : List (String × Json))
    (body : Nat → Recorded α) :
    let made := recording.context.child parent entries
    let after := endState (body made.2 { recording with context := made.1 })
    endState (withScopeRecorded parent entries body recording) =
      { after with context := after.context.release made.2 } := by
  intro made after
  simp only [withScopeRecorded, after, made]
  split <;> next ran => rw [ran]; rfl

end Ends

/-- A result without its moments. -/
def forget {α : Type} : EStateM.Result Error Recording α → EStateM.Result Error Context α
  | .ok value after => .ok value after.context
  | .error error after => .error error after.context

theorem endState_forget {α : Type} (result : EStateM.Result Error Recording α) :
    endState (forget result) = (endState result).context := by
  cases result <;> rfl

/-- A recorded evaluation is an evaluation when its moments are forgotten. -/
def Records {α : Type} (recorded : Recorded α) (action : Evaluation α) : Prop :=
  ∀ recording, forget (recorded recording) = action recording.context

namespace Records

variable {α β : Type} {recorded : Recorded α} {action : Evaluation α}

theorem pure (value : α) : Records (Pure.pure value) (Pure.pure value) :=
  fun _ => rfl

theorem bind {next : α → Recorded β} {plainNext : α → Evaluation β}
    (records : Records recorded action) (others : ∀ value, Records (next value) (plainNext value)) :
    Records (recorded >>= next) (action >>= plainNext) := by
  intro recording
  rw [run_bind, run_bind, ← records recording]
  cases recorded recording with
  | ok value after => exact others value after
  | error error after => rfl

theorem unrecorded : Records (unrecorded action) action := by
  intro recording
  rw [Eval.unrecorded]
  cases action recording.context <;> rfl

theorem during (records : Records recorded action) (id : Nat) :
    Records (during id recorded) action := by
  intro recording
  have same : forget (recorded (recording.mark id)) = action recording.context :=
    records (recording.mark id)
  rw [Eval.during, ← same]
  cases recorded (recording.mark id) <;> rfl

/-- Recording a moment between two parts changes neither of them. -/
theorem mark {id : Nat} (records : Records recorded action) :
    Records (modify (·.mark id) >>= fun _ => recorded) action :=
  fun recording => records (recording.mark id)

theorem withScope {parent : Nat} {entries : List (String × Json)} {body : Nat → Recorded α}
    {plainBody : Nat → Evaluation α} (records : ∀ slot, Records (body slot) (plainBody slot)) :
    Records (withScopeRecorded parent entries body) (withScope parent entries plainBody) := by
  intro recording
  have same := records (recording.context.child parent entries).2
    { recording with context := (recording.context.child parent entries).1 }
  simp only [withScopeRecorded, Eval.withScope, ← same]
  split <;> next ran => simp only [ran, forget]

theorem iterate {id slot : Nat} {header : Loop} {body : Nat → Recorded (List Html.Node)}
    {plainBody : Nat → Evaluation (List Html.Node)}
    (records : ∀ slot, Records (body slot) (plainBody slot)) (items : List Json) (index : Nat) :
    Records (iterateRecorded id header slot body index items)
      (iterate header slot plainBody index items) := by
  induction items generalizing index with
  | nil => exact .pure []
  | cons item items ih =>
      exact (withScope records).bind fun before => .mark ((ih (index + 1)).bind fun after =>
        .pure (before ++ after))

theorem loop {id slot : Nat} {position : Position} {header : Loop}
    {body? : Option (Nat → Recorded (List Html.Node))}
    {plainBody? : Option (Nat → Evaluation (List Html.Node))}
    (records : Option.Rel (fun body plainBody => ∀ slot, Records (body slot) (plainBody slot))
      body? plainBody?) :
    Records (loopRecorded id position header slot body?)
      (loop position header slot plainBody?) := by
  cases records with
  | none => exact fun _ => rfl
  | some records => exact unrecorded.bind fun items => iterate records items 0

end Records

mutual

theorem nodeRecorded_records (inStyle : Bool) : (node : Node) → (slot : Nat) →
    Records (nodeRecorded inStyle node slot) (Eval.node inStyle node slot)
  | .node id kind position children, slot => by
      have leaf : Records
          (during id (unrecorded (node inStyle (.node id kind position children) slot)))
          (node inStyle (.node id kind position children) slot) := Records.unrecorded.during id
      cases kind with
      | block => exact (nodesRecorded_records false children slot).during id
      | element tag =>
          exact ((nodesRecorded_records _ children slot).bind fun content => .pure _).during id
      | loop header => exact (Records.loop (firstBlockRecorded_records children)).during id
      | _ => exact leaf

theorem nodesRecorded_records (inStyle : Bool) : (nodes : List Node) → (slot : Nat) →
    Records (nodesRecorded inStyle nodes slot) (Eval.nodes inStyle nodes slot)
  | [], _ => .pure []
  | first :: others, slot =>
      (nodeRecorded_records inStyle first slot).bind fun before =>
        (nodesRecorded_records inStyle others slot).bind fun after => .pure (before ++ after)

theorem firstBlockRecorded_records : (nodes : List Node) →
    Option.Rel (fun body plainBody => ∀ slot, Records (body slot) (plainBody slot))
      (firstBlockRecorded nodes) (firstBlock nodes)
  | [] => .none
  | .node id kind _ children :: others => by
      rw [firstBlockRecorded, firstBlock]
      cases kind.isBlock with
      | true => exact .some fun slot => (nodesRecorded_records false children slot).during id
      | false => exact firstBlockRecorded_records others

end

end Eval

end TemplateCompiler
