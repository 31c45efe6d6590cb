import TemplateCompiler.Proofs.Eval.Environment

/-!
# Scopes as a stack

Every scope that the evaluator makes lies above its parent.  In such a stack a
look-up always goes down, so the scopes above the one it starts from play no
part in it: making a scope changes no variable seen from an older one, and
releasing it brings back the stack as it was.
-/

namespace TemplateCompiler

theorem Environment.bindAll_eq (environment : Environment) (entries : List (String × Json))
    (name : String) :
    environment.bindAll entries name = (entries.reverse.lookup name).or (environment name) := by
  induction entries generalizing environment with
  | nil => rfl
  | cons entry entries ih =>
      obtain ⟨other, value⟩ := entry
      have step : environment.bindAll ((other, value) :: entries) =
          (environment.bind other value).bindAll entries := rfl
      rw [step, ih, List.reverse_cons, List.lookup_append, Option.or_assoc]
      by_cases same : name = other <;> simp [bind, same, List.lookup_cons, beq_false_of_ne]

namespace Context

/-- Every scope lies above its parent. -/
def Stacked (context : Context) : Prop :=
  ∀ slot (scope : Scope) parent, context.scopes[slot]? = some scope → scope.parent = some parent →
    parent < slot

/-- What a scope and its parents hold is the environment. -/
def Shows (context : Context) (slot : Nat) (environment : Environment) : Prop :=
  ∀ name, context.get? slot name = environment name

/-- Where a variable is looked up does not depend on the bound, as long as the
bound exceeds the slot the look-up starts from. -/
theorem ownerWithin_eq_of_lt {context : Context} (stacked : context.Stacked) (name : String)
    {slot first second : Nat} (firstBound : slot < first) (secondBound : slot < second) :
    context.ownerWithin name first slot = context.ownerWithin name second slot := by
  induction slot using Nat.strongRecOn generalizing first second with
  | _ slot ih =>
      obtain ⟨first, rfl⟩ := Nat.exists_eq_succ_of_ne_zero (Nat.ne_zero_of_lt firstBound)
      obtain ⟨second, rfl⟩ := Nat.exists_eq_succ_of_ne_zero (Nat.ne_zero_of_lt secondBound)
      simp only [ownerWithin]
      cases found : context.scopes[slot]? with
      | none => rfl
      | some scope =>
          cases parentEq : scope.parent with
          | none => simp [parentEq]
          | some parent =>
              have below : parent < slot := stacked slot scope parent found parentEq
              have same : context.ownerWithin name first parent =
                  context.ownerWithin name second parent :=
                ih parent below (by omega) (by omega)
              simp [parentEq, same]

theorem get?_eq {context : Context} (stacked : context.Stacked) (slot : Nat) (name : String) :
    context.get? slot name =
      context.scopes[slot]?.bind fun scope =>
        (scope.bindings.lookup name).or (scope.parent.bind (context.get? · name)) := by
  cases found : context.scopes[slot]? with
  | none =>
      have beyond : context.depth ≤ slot := List.getElem?_eq_none_iff.1 found
      have missing : context.ownerWithin name context.depth slot = none := by
        cases depthEq : context.depth with
        | zero => rfl
        | succ depth => simp [ownerWithin, found]
      simp [get?, owner?, missing]
  | some scope =>
      have within : slot < context.depth := (List.getElem?_eq_some_iff.1 found).1
      obtain ⟨bound, depthEq⟩ : ∃ bound, context.depth = bound + 1 :=
        ⟨context.depth - 1, by omega⟩
      simp only [get?, owner?, depthEq, ownerWithin, found, Option.bind_some]
      cases bound? : scope.bindings.lookup name with
      | some value => simp [local?, found, bound?]
      | none =>
          cases parentEq : scope.parent with
          | none => simp
          | some parent =>
              have below : parent < slot := stacked slot scope parent found parentEq
              have same : context.ownerWithin name bound parent =
                  context.ownerWithin name (bound + 1) parent :=
                ownerWithin_eq_of_lt stacked name (by omega) (by omega)
              simp only [Option.bind_some, same, ownerWithin]
              simp

theorem stacked_ofBindings (entries : List (String × Json)) :
    (ofBindings entries).Stacked := by
  intro slot scope parent found parentEq
  obtain ⟨inside, rfl⟩ := List.getElem?_eq_some_iff.1 found
  simp [ofBindings] at parentEq

theorem stacked_child {context : Context} (stacked : context.Stacked) {parent : Nat}
    (live : parent < context.depth) (entries : List (String × Json)) :
    (context.child parent entries).1.Stacked := by
  intro slot scope above found aboveEq
  simp only [child] at found
  rcases Nat.lt_or_ge slot context.scopes.length with old | new
  · rw [List.getElem?_append_left old] at found
    exact stacked slot scope above found aboveEq
  · rw [List.getElem?_append_right new] at found
    obtain ⟨inside, rfl⟩ := List.getElem?_eq_some_iff.1 found
    simp only [List.length_singleton, Nat.lt_one_iff] at inside
    simp only [inside, List.getElem_cons_zero, Option.some.injEq] at aboveEq
    simp only [depth] at live
    omega

/-- A new scope changes no variable seen from an older one. -/
theorem get?_child_of_lt {context : Context} (stacked : context.Stacked) {parent slot : Nat}
    (parentLive : parent < context.depth) (live : slot < context.depth)
    (entries : List (String × Json)) (name : String) :
    (context.child parent entries).1.get? slot name = context.get? slot name := by
  induction slot using Nat.strongRecOn with
  | _ slot ih =>
      have same : (context.child parent entries).1.scopes[slot]? = context.scopes[slot]? :=
        List.getElem?_append_left live
      rw [get?_eq (stacked_child stacked parentLive entries), get?_eq stacked, same]
      cases found : context.scopes[slot]? with
      | none => rfl
      | some scope =>
          cases aboveEq : scope.parent with
          | none => simp [aboveEq]
          | some above =>
              have below : above < slot := stacked slot scope above found aboveEq
              simp [aboveEq, ih above below (by omega)]

theorem get?_child {context : Context} (stacked : context.Stacked) {parent : Nat}
    (live : parent < context.depth) (entries : List (String × Json)) (name : String) :
    (context.child parent entries).1.get? (context.child parent entries).2 name =
      (entries.reverse.lookup name).or (context.get? parent name) := by
  have own : (context.child parent entries).1.scopes[(context.child parent entries).2]? =
      some ⟨.ofList entries, some parent⟩ := by
    simp [child, depth]
  rw [get?_eq (stacked_child stacked live entries), own]
  simp [Bindings.ofList, get?_child_of_lt stacked live live]

/-- Releasing a scope right after it was made undoes making it. -/
theorem release_child {context : Context} (nonempty : 0 < context.depth) (parent : Nat)
    (entries : List (String × Json)) :
    (context.child parent entries).1.release (context.child parent entries).2 = context := by
  have notRoot : context.depth ≠ 0 := by omega
  show (if context.depth = 0 then _ else _) = context
  rw [if_neg notRoot]
  simp [child, depth]

end Context

end TemplateCompiler
