import Mathlib.Tactic.Common

/-!
# How actions run

The lexer, the parser and the evaluator are written as actions on a state.  One
equation for each way of making an action tells what it gives when it is run,
so that no other proof has to open the monad.
-/

namespace TemplateCompiler

/-- What an action gives, apart from the state behind it. -/
def outcome {ε σ α : Type} : EStateM.Result ε σ α → Except ε α
  | .ok result _ => .ok result
  | .error error _ => .error error

/-- The state behind an action, whether it gave something or failed. -/
def endState {ε σ α : Type} : EStateM.Result ε σ α → σ
  | .ok _ state => state
  | .error _ state => state

section Actions

variable {ε σ α β : Type} (state : σ)

theorem run_pure (result : α) : (pure result : EStateM ε σ α) state = .ok result state :=
  rfl

theorem run_bind (action : EStateM ε σ α) (next : α → EStateM ε σ β) :
    (action >>= next) state =
      match action state with
      | .ok result after => next result after
      | .error error after => .error error after :=
  rfl

theorem bind_eq_ok {action : EStateM ε σ α} {next : α → EStateM ε σ β} {result : β} {last : σ}
    (ended : (action >>= next) state = .ok result last) :
    ∃ first after, action state = .ok first after ∧ next first after = .ok result last := by
  rw [run_bind] at ended
  split at ended
  · next first after ran => exact ⟨first, after, ran, ended⟩
  · contradiction

theorem exists_eq_ok {result : Except ε α} (isOk : result.isOk = true) :
    ∃ value, result = .ok value := by
  cases result with
  | ok value => exact ⟨value, rfl⟩
  | error error => contradiction

theorem eq_ok_of_isOk {result : EStateM.Result ε σ α} (isOk : (outcome result).isOk = true) :
    ∃ value after, result = .ok value after := by
  cases result with
  | ok value after => exact ⟨value, after, rfl⟩
  | error error after => contradiction

theorem eq_ok_endState {result : EStateM.Result ε σ α} {value : α}
    (outcomeEq : outcome result = .ok value) : result = .ok value (endState result) := by
  cases result with
  | ok other after =>
      obtain rfl := Except.ok.inj outcomeEq
      rfl
  | error error after => contradiction

theorem eq_error_of_not_isOk {result : EStateM.Result ε σ α}
    (notOk : (outcome result).isOk = false) : ∃ error after, result = .error error after := by
  cases result with
  | ok value after => contradiction
  | error error after => exact ⟨error, after, rfl⟩

theorem run_map (change : α → β) (action : EStateM ε σ α) :
    (change <$> action) state =
      match action state with
      | .ok result after => .ok (change result) after
      | .error error after => .error error after :=
  rfl

theorem run_discard (action : EStateM ε σ α) :
    (discard action) state =
      match action state with
      | .ok _ after => .ok () after
      | .error error after => .error error after :=
  rfl

theorem run_get : (get : EStateM ε σ σ) state = .ok state state :=
  rfl

theorem run_modify (change : σ → σ) :
    (modify change : EStateM ε σ PUnit) state = .ok ⟨⟩ (change state) :=
  rfl

end Actions

/-- From every state of which an invariant holds, an action ends in another one and
gives a result of some kind, or fails with an error of some kind. -/
def Maintains {ε σ α : Type} (invariant : σ → Prop) (action : EStateM ε σ α)
    (gives : α → Prop) (fails : ε → Prop) : Prop :=
  ∀ state, invariant state →
    match action state with
    | .ok result after => gives result ∧ invariant after
    | .error error _ => fails error

namespace Maintains

variable {ε σ α β : Type} {invariant : σ → Prop} {gives : α → Prop} {fails : ε → Prop}

theorem pure {result : α} (holds : gives result) :
    Maintains invariant (Pure.pure result : EStateM ε σ α) gives fails :=
  fun _ known => ⟨holds, known⟩

theorem bind {action : EStateM ε σ α} {next : α → EStateM ε σ β} {last : β → Prop}
    (first : Maintains invariant action gives fails)
    (others : ∀ result, gives result → Maintains invariant (next result) last fails) :
    Maintains invariant (action >>= next) last fails := by
  intro state known
  have firstHolds := first state known
  rw [run_bind]
  cases ran : action state with
  | ok result after =>
      rw [ran] at firstHolds
      exact others result firstHolds.1 after firstHolds.2
  | error error after =>
      rw [ran] at firstHolds
      exact firstHolds

theorem get {next : σ → EStateM ε σ α}
    (maintains : ∀ state, invariant state → Maintains invariant (next state) gives fails) :
    Maintains invariant (MonadState.get >>= next) gives fails :=
  fun state known => maintains state known state known

theorem modify {change : σ → σ} {gives : PUnit → Prop}
    (keeps : ∀ state, invariant state → invariant (change state)) (holds : gives ⟨⟩) :
    Maintains invariant (modify change : EStateM ε σ PUnit) gives fails :=
  fun state known => ⟨holds, keeps state known⟩

theorem discard {action : EStateM ε σ α} (maintains : Maintains invariant action gives fails) :
    Maintains invariant (Functor.discard action) (fun _ => True) fails := by
  intro state known
  have holds := maintains state known
  rw [run_discard]
  cases ran : action state with
  | ok result after =>
      rw [ran] at holds
      exact ⟨trivial, holds.2⟩
  | error error after =>
      rw [ran] at holds
      exact holds

end Maintains

end TemplateCompiler
