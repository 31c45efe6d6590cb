import Mathlib.Logic.Function.Basic
import Mathlib.Order.Nat
import TemplateCompiler.Proofs.Eval.ScopeStack

/-!
# Runs of scope operations

Scopes are made, assigned to and released in any order, and slots of released
scopes are used again.  Whatever the order, the scopes stay a tree that is
rooted in the first slot, and every parent keeps a smaller slot than its
children.  So a look-up walks down a finite line of slots, and the first scope
on it that holds the variable decides.

An assignment reaches one variable of one scope.  A release is told by age, not
by slot: to speak of it, a run also keeps the time at which the scope in each
slot was made.  Slots are natural numbers, so there is always a next one.
-/

namespace TemplateCompiler

namespace Bindings

theorem lookup_replace (entries : Bindings) (name other : String) (value : Json) :
    (entries.replace name value).lookup other =
      if other = name ∧ (entries.lookup name).isSome then some value
      else entries.lookup other := by
  induction entries with
  | nil => simp [replace]
  | cons entry entries ih =>
      obtain ⟨key, old⟩ := entry
      rw [replace]
      by_cases here : name = key
      · subst here
        by_cases same : other = name <;> simp [same, List.lookup_cons, beq_false_of_ne]
      · have missed : (name == key) = false := beq_false_of_ne here
        by_cases atKey : other = key
        · simp [here, atKey, List.lookup_cons, Ne.symm here]
        · simp only [if_neg here, List.lookup_cons, missed, beq_false_of_ne atKey, ih]

end Bindings

namespace Context

variable {context : Context}

section Operations

variable {slot parent : Nat} {name : String}

theorem parent?_of_getElem? {scope : Scope} (found : context.scopes[slot]? = some scope) :
    context.parent? slot = scope.parent := by
  simp [parent?, found]

theorem local?_of_getElem? {scope : Scope} (found : context.scopes[slot]? = some scope) :
    context.local? slot name = scope.bindings.lookup name := by
  simp [local?, found]

theorem live_of_parent? (above : context.parent? slot = some parent) : slot < context.depth := by
  obtain ⟨scope, found, -⟩ := Option.bind_eq_some_iff.1 above
  exact (List.getElem?_eq_some_iff.1 found).1

variable (context slot name)

@[simp] theorem depth_child (entries : List (String × Json)) :
    (context.child slot entries).1.depth = context.depth + 1 := by
  simp [child, depth]

theorem parent?_child (entries : List (String × Json)) (other : Nat) :
    (context.child slot entries).1.parent? other =
      if other = context.depth then some slot else context.parent? other := by
  simp only [child, parent?, depth, List.getElem?_append, List.getElem?_singleton]
  grind

/-- The context with a new value for a variable of a scope. -/
def write (value : Json) : Context :=
  ⟨context.scopes.modify slot fun scope =>
    { scope with bindings := scope.bindings.replace name value }⟩

theorem set?_eq (value : Json) :
    context.set? slot name value =
      (context.owner? slot name).map fun owner => context.write owner name value :=
  rfl

@[simp] theorem depth_write (value : Json) :
    (context.write slot name value).depth = context.depth := by
  simp [write, depth]

@[simp] theorem parent?_write (value : Json) (other : Nat) :
    (context.write slot name value).parent? other = context.parent? other := by
  simp only [write, parent?, List.getElem?_modify]
  cases context.scopes[other]? with
  | none => rfl
  | some scope => by_cases same : slot = other <;> simp [same]

theorem local?_write (value : Json) (other : Nat) (key : String) :
    (context.write slot name value).local? other key =
      if other = slot ∧ key = name ∧ (context.local? slot name).isSome then some value
      else context.local? other key := by
  by_cases same : slot = other
  · subst same
    cases found : context.scopes[slot]? with
    | none => simp [write, local?, found]
    | some scope =>
        have written : (context.write slot name value).local? slot key =
            (scope.bindings.replace name value).lookup key := by
          simp [write, local?, found]
        simp only [written, Bindings.lookup_replace, local?_of_getElem? found, true_and]
  · simp [write, local?, same, Ne.symm same]

theorem release_zero : context.release 0 = context :=
  if_pos rfl

theorem release_of_ne_zero (notRoot : slot ≠ 0) :
    context.release slot = ⟨context.scopes.take slot⟩ :=
  if_neg notRoot

variable {context slot}

theorem depth_release (notRoot : slot ≠ 0) (live : slot < context.depth) :
    (context.release slot).depth = slot := by
  simp only [release_of_ne_zero _ _ notRoot, depth, List.length_take]
  exact Nat.min_eq_left live.le

theorem depth_release_le (live : slot < context.depth) :
    (context.release slot).depth ≤ context.depth := by
  by_cases isRoot : slot = 0
  · rw [isRoot, release_zero]
  · rw [depth_release isRoot live]
    exact live.le

theorem parent?_release (notRoot : slot ≠ 0) {other : Nat} (older : other < slot) :
    (context.release slot).parent? other = context.parent? other := by
  simp [release_of_ne_zero _ _ notRoot, parent?, List.getElem?_take_of_lt older]

theorem local?_release (notRoot : slot ≠ 0) {other : Nat} (older : other < slot) :
    (context.release slot).local? other name = context.local? other name := by
  simp [release_of_ne_zero _ _ notRoot, local?, List.getElem?_take_of_lt older]

end Operations

section LookUps

variable {slot parent : Nat} {name : String}

theorem ownerWithin_succ (bound : Nat) :
    context.ownerWithin name (bound + 1) slot =
      if (context.local? slot name).isSome then some slot
      else (context.parent? slot).bind (context.ownerWithin name bound) := by
  rw [ownerWithin]
  cases found : context.scopes[slot]? with
  | none => simp [local?, parent?, found]
  | some scope => rw [local?_of_getElem? found, parent?_of_getElem? found]

theorem owner?_eq (stacked : context.Stacked) :
    context.owner? slot name =
      if (context.local? slot name).isSome then some slot
      else (context.parent? slot).bind (context.owner? · name) := by
  cases depthEq : context.depth with
  | zero =>
      have empty : context.scopes = [] := List.eq_nil_of_length_eq_zero depthEq
      simp [owner?, depthEq, ownerWithin, local?, parent?, empty]
  | succ bound =>
      simp only [owner?, depthEq, ownerWithin_succ]
      cases above : context.parent? slot with
      | none => rfl
      | some parent =>
          have live : slot < context.depth := live_of_parent? above
          obtain ⟨scope, found, parentEq⟩ := Option.bind_eq_some_iff.1 above
          have below : parent < slot := stacked slot scope parent found parentEq
          have same : context.ownerWithin name bound parent =
              context.ownerWithin name (bound + 1) parent :=
            ownerWithin_eq_of_lt stacked name (by omega) (by omega)
          simp only [Option.bind_some, same, ownerWithin_succ]

theorem holds_of_ownerWithin {bound owner : Nat}
    (found : context.ownerWithin name bound slot = some owner) :
    (context.local? owner name).isSome := by
  induction bound generalizing slot with
  | zero => contradiction
  | succ bound ih =>
      rw [ownerWithin_succ] at found
      split at found
      · next holds =>
          cases found
          exact holds
      · obtain ⟨parent, -, found⟩ := Option.bind_eq_some_iff.1 found
        exact ih found

theorem isSome_get? : (context.get? slot name).isSome = (context.owner? slot name).isSome := by
  cases found : context.owner? slot name with
  | none => simp [get?, found]
  | some owner => simpa [get?, found] using holds_of_ownerWithin found

/-- Where a variable is found depends only on the parents and on which scopes
hold it. -/
theorem owner?_congr {after : Context} (depthEq : after.depth = context.depth)
    (parents : ∀ slot, after.parent? slot = context.parent? slot)
    (holders : ∀ slot, (after.local? slot name).isSome = (context.local? slot name).isSome) :
    after.owner? slot name = context.owner? slot name := by
  have within : ∀ bound slot,
      after.ownerWithin name bound slot = context.ownerWithin name bound slot := by
    intro bound
    induction bound with
    | zero => exact fun _ => rfl
    | succ bound ih =>
        intro slot
        rw [ownerWithin_succ, ownerWithin_succ, parents, holders, funext ih]
  rw [owner?, owner?, depthEq, within]

/-- The slots that a look-up passes, from the one it starts from to one without a
parent. -/
inductive Lineage (context : Context) : (slot : Nat) → List Nat → Prop
  | root {slot : Nat} (live : slot < context.depth) (parentless : context.parent? slot = none) :
      Lineage context slot [slot]
  | under {slot parent : Nat} {older : List Nat} (above : context.parent? slot = some parent)
      (lineage : Lineage context parent older) : Lineage context slot (slot :: older)

namespace Lineage

variable {line : List Nat}

theorem unique {other : List Nat} (lineage : context.Lineage slot line)
    (otherLineage : context.Lineage slot other) : other = line := by
  induction lineage generalizing other with
  | root live parentless =>
      cases otherLineage with
      | root => rfl
      | under above => simp [above] at parentless
  | under above lineage ih =>
      cases otherLineage with
      | root _ parentless => simp [above] at parentless
      | under otherAbove otherLineage =>
          rw [above] at otherAbove
          cases otherAbove
          rw [ih otherLineage]

theorem owner?_eq_find? (name : String) (stacked : context.Stacked)
    (lineage : context.Lineage slot line) :
    context.owner? slot name = line.find? fun older => (context.local? older name).isSome := by
  induction lineage with
  | @root slot live parentless =>
      rw [owner?_eq stacked, parentless, List.find?_singleton]
      rfl
  | @under slot parent older above lineage ih =>
      rw [owner?_eq stacked, above, Option.bind_some, ih, List.find?_cons]
      cases (context.local? slot name).isSome <;> rfl

theorem get?_eq_findSome? (stacked : context.Stacked) (lineage : context.Lineage slot line) :
    context.get? slot name = line.findSome? fun older => context.local? older name := by
  induction lineage with
  | @root slot live parentless =>
      rw [get?, owner?_eq stacked, parentless]
      cases held : context.local? slot name <;> simp [held]
  | @under slot parent older above lineage ih =>
      rw [List.findSome?_cons, ← ih, get?, owner?_eq stacked, above]
      cases held : context.local? slot name <;> simp [held, get?]

end Lineage

/-- The first slot holds a scope without a parent, and every other scope has its
parent in a smaller slot. -/
structure Rooted (context : Context) : Prop where
  root_live : 0 < context.depth
  root_parentless : context.parent? 0 = none
  parent_below : ∀ slot, 0 < slot → slot < context.depth →
    ∃ parent, parent < slot ∧ context.parent? slot = some parent

namespace Rooted

theorem lt_of_parent? (rooted : context.Rooted) (above : context.parent? slot = some parent) :
    parent < slot := by
  rcases Nat.eq_zero_or_pos slot with atRoot | positive
  · rw [atRoot, rooted.root_parentless] at above
    contradiction
  · obtain ⟨below, isBelow, belowEq⟩ := rooted.parent_below slot positive (live_of_parent? above)
    rw [above] at belowEq
    cases belowEq
    exact isBelow

theorem stacked (rooted : context.Rooted) : context.Stacked := by
  intro slot scope parent found parentEq
  exact rooted.lt_of_parent? (Option.bind_eq_some_iff.2 ⟨scope, found, parentEq⟩)

theorem exists_lineage (rooted : context.Rooted) (live : slot < context.depth) :
    ∃ line, context.Lineage slot line := by
  induction slot using Nat.strongRecOn with
  | _ slot ih =>
      cases above : context.parent? slot with
      | none => exact ⟨[slot], .root live above⟩
      | some parent =>
          have below : parent < slot := rooted.lt_of_parent? above
          obtain ⟨older, lineage⟩ := ih parent below (below.trans live)
          exact ⟨slot :: older, .under above lineage⟩

theorem ofBindings (entries : List (String × Json)) : (Context.ofBindings entries).Rooted where
  root_live := Nat.one_pos
  root_parentless := rfl
  parent_below slot positive live := by
    have isRoot : slot < 1 := live
    omega

theorem child (rooted : context.Rooted) (live : slot < context.depth)
    (entries : List (String × Json)) : (context.child slot entries).1.Rooted where
  root_live := by simp
  root_parentless := by
    have notNew : 0 ≠ context.depth := rooted.root_live.ne
    rw [parent?_child, if_neg notNew, rooted.root_parentless]
  parent_below other positive otherLive := by
    rw [depth_child] at otherLive
    rw [parent?_child]
    by_cases isNew : other = context.depth
    · exact ⟨slot, isNew ▸ live, if_pos isNew⟩
    · rw [if_neg isNew]
      exact rooted.parent_below other positive (by omega)

theorem write (rooted : context.Rooted) (value : Json) :
    (context.write slot name value).Rooted where
  root_live := by simpa using rooted.root_live
  root_parentless := by simpa using rooted.root_parentless
  parent_below := by simpa using rooted.parent_below

theorem release (rooted : context.Rooted) (live : slot < context.depth) :
    (context.release slot).Rooted := by
  by_cases isRoot : slot = 0
  · rw [isRoot, release_zero]
    exact rooted
  · have positive : 0 < slot := Nat.pos_of_ne_zero isRoot
    constructor
    · rwa [depth_release isRoot live]
    · rw [parent?_release isRoot positive, rooted.root_parentless]
    · intro other otherPositive otherLive
      rw [depth_release isRoot live] at otherLive
      rw [parent?_release isRoot otherLive]
      exact rooted.parent_below other otherPositive (otherLive.trans live)

end Rooted

/-- One variable of one scope has a new value, and nothing else has changed. -/
structure Overwrites (context after : Context) (owner : Nat) (name : String) (value : Json) :
    Prop where
  depth_eq : after.depth = context.depth
  parent?_eq : ∀ slot, after.parent? slot = context.parent? slot
  written : after.local? owner name = some value
  others : ∀ slot other, (slot, other) ≠ (owner, name) →
    after.local? slot other = context.local? slot other
  has_eq : ∀ slot other, (after.get? slot other).isSome = (context.get? slot other).isSome

theorem overwrites_write {owner : Nat} (holds : (context.local? owner name).isSome)
    (value : Json) : context.Overwrites (context.write owner name value) owner name value where
  depth_eq := depth_write context owner name value
  parent?_eq := parent?_write context owner name value
  written := by simp [local?_write, holds]
  others slot other different := by
    rw [local?_write, if_neg]
    rintro ⟨rfl, rfl, -⟩
    exact different rfl
  has_eq slot other := by
    rw [isSome_get?, isSome_get?]
    congr 1
    apply owner?_congr (by simp) (by simp)
    intro older
    rw [local?_write]
    split
    · next atOwner =>
        obtain ⟨rfl, rfl, -⟩ := atOwner
        simp [holds]
    · rfl

/-- What an assignment does, given the slots that a look-up passes: without an
owner nothing, and else it overwrites the variable of the first owner. -/
def Assigns (context : Context) (slot : Nat) (line : List Nat) (name : String) (value : Json) :
    Prop :=
  match context.set? slot name value with
  | none => context.get? slot name = none
  | some after =>
      (context.get? slot name).isSome ∧
        ∃ owner, line.find? (fun older => (context.local? older name).isSome) = some owner ∧
          context.Overwrites after owner name value

theorem Rooted.assigns (rooted : context.Rooted) {line : List Nat}
    (lineage : context.Lineage slot line) (value : Json) :
    context.Assigns slot line name value := by
  have ownerEq := lineage.owner?_eq_find? name rooted.stacked
  rw [Assigns, set?_eq]
  cases found : context.owner? slot name with
  | none => simp [get?, found]
  | some owner =>
      have holds : (context.local? owner name).isSome := holds_of_ownerWithin found
      rw [found] at ownerEq
      exact ⟨by simp [isSome_get?, found], owner, ownerEq.symm, overwrites_write holds value⟩

end LookUps

/-- An operation on the scopes, with the slot it is called on. -/
inductive Operation
  | child (parent : Nat) (entries : List (String × Json))
  | set (slot : Nat) (name : String) (value : Json)
  | release (slot : Nat)

def Operation.slot : Operation → Nat
  | .child parent _ => parent
  | .set slot _ _ => slot
  | .release slot => slot

/-- Scopes and the time at which the one in each slot was made. -/
structure Dated where
  context : Context
  born : Nat → Nat
  clock : Nat

namespace Dated

def start (entries : List (String × Json)) : Dated :=
  ⟨ofBindings entries, fun _ => 0, 1⟩

/-- Only making a scope takes time. -/
def apply (dated : Dated) : Operation → Dated
  | .child parent entries =>
      let (larger, slot) := dated.context.child parent entries
      ⟨larger, Function.update dated.born slot dated.clock, dated.clock + 1⟩
  | .set slot name value =>
      { dated with context := (dated.context.set? slot name value).getD dated.context }
  | .release slot => { dated with context := dated.context.release slot }

/-- What operations on live slots lead to. -/
inductive Reached : Dated → Prop
  | start (entries : List (String × Json)) : Reached (start entries)
  | step {dated : Dated} (reached : Reached dated) (operation : Operation)
      (live : dated.context.isLive operation.slot) : Reached (dated.apply operation)

/-- The scopes are rooted, and kept in the order in which they were made. -/
structure Lawful (dated : Dated) : Prop where
  rooted : dated.context.Rooted
  born_lt : ∀ older newer, older < newer → newer < dated.context.depth →
    dated.born older < dated.born newer
  born_lt_clock : ∀ slot, slot < dated.context.depth → dated.born slot < dated.clock

namespace Lawful

variable {dated : Dated} {slot : Nat}

theorem start (entries : List (String × Json)) : (start entries).Lawful where
  rooted := .ofBindings entries
  born_lt older newer before live := by
    have isRoot : newer < 1 := live
    omega
  born_lt_clock _ _ := Nat.one_pos

theorem child (lawful : dated.Lawful) (live : slot < dated.context.depth)
    (entries : List (String × Json)) : (dated.apply (.child slot entries)).Lawful where
  rooted := lawful.rooted.child live entries
  born_lt older newer before newerLive := by
    have within : newer < dated.context.depth + 1 := by
      simpa [apply] using newerLive
    have olderLive : older < dated.context.depth := by omega
    show Function.update dated.born dated.context.depth dated.clock older <
      Function.update dated.born dated.context.depth dated.clock newer
    rw [Function.update_of_ne olderLive.ne]
    by_cases isNew : newer = dated.context.depth
    · rw [isNew, Function.update_self]
      exact lawful.born_lt_clock older olderLive
    · rw [Function.update_of_ne isNew]
      exact lawful.born_lt older newer before (by omega)
  born_lt_clock other otherLive := by
    have within : other < dated.context.depth + 1 := by
      simpa [apply] using otherLive
    show Function.update dated.born dated.context.depth dated.clock other < dated.clock + 1
    by_cases isNew : other = dated.context.depth
    · rw [isNew, Function.update_self]
      exact Nat.lt_succ_self _
    · rw [Function.update_of_ne isNew]
      exact (lawful.born_lt_clock other (by omega)).trans (Nat.lt_succ_self _)

theorem of_depth_le (lawful : dated.Lawful) {context : Context} (rooted : context.Rooted)
    (shorter : context.depth ≤ dated.context.depth) :
    Lawful { dated with context := context } where
  rooted := rooted
  born_lt older newer before live := lawful.born_lt older newer before (live.trans_le shorter)
  born_lt_clock slot live := lawful.born_lt_clock slot (live.trans_le shorter)

theorem apply (lawful : dated.Lawful) {operation : Operation}
    (live : operation.slot < dated.context.depth) : (dated.apply operation).Lawful := by
  cases operation with
  | child parent entries => exact lawful.child live entries
  | set slot name value =>
      cases found : dated.context.owner? slot name with
      | none => simpa [Dated.apply, set?_eq, found] using lawful
      | some owner =>
          simp only [Dated.apply, set?_eq, found, Option.map_some, Option.getD_some]
          exact lawful.of_depth_le (lawful.rooted.write value) (by simp)
  | release slot => exact lawful.of_depth_le (lawful.rooted.release live) (depth_release_le live)

theorem isLive_release_iff (lawful : dated.Lawful) (notRoot : slot ≠ 0)
    (live : slot < dated.context.depth) (other : Nat) :
    (dated.context.release slot).isLive other ↔
      dated.context.isLive other ∧ dated.born other < dated.born slot := by
  simp only [isLive, decide_eq_true_eq, depth_release notRoot live]
  constructor
  · exact fun older => ⟨older.trans live, lawful.born_lt other slot older live⟩
  · rintro ⟨otherLive, earlier⟩
    by_contra newer
    rcases (not_lt.1 newer).eq_or_lt with same | later
    · rw [same] at earlier
      exact lt_irrefl _ earlier
    · exact lt_asymm earlier (lawful.born_lt slot other later otherLive)

end Lawful

theorem Reached.lawful {dated : Dated} (reached : dated.Reached) : dated.Lawful := by
  induction reached with
  | start entries => exact .start entries
  | step reached operation live ih => exact ih.apply (of_decide_eq_true live)

/-- What releasing a scope does: those that were made before it stay as they are,
and all others go. -/
structure Releases (dated : Dated) (slot : Nat) (after : Context) : Prop where
  isLive_iff : ∀ other, after.isLive other ↔
    dated.context.isLive other ∧ dated.born other < dated.born slot
  parent?_eq : ∀ other, after.isLive other → after.parent? other = dated.context.parent? other
  local?_eq : ∀ other name, after.isLive other →
    after.local? other name = dated.context.local? other name

theorem Lawful.releases {dated : Dated} {slot : Nat} (lawful : dated.Lawful) (notRoot : slot ≠ 0)
    (live : slot < dated.context.depth) :
    dated.Releases slot (dated.context.release slot) := by
  have older : ∀ other, (dated.context.release slot).isLive other → other < slot := by
    intro other otherLive
    rw [← depth_release notRoot live]
    exact of_decide_eq_true otherLive
  exact ⟨lawful.isLive_release_iff notRoot live,
    fun other otherLive => parent?_release notRoot (older other otherLive),
    fun other name otherLive => local?_release name notRoot (older other otherLive)⟩

/-- After any operations on live slots, a look-up follows one finite line of
scopes to the first that holds the variable, an assignment overwrites the
variable there, and a release leaves the scopes made before. -/
theorem Reached.scopes_behave {dated : Dated} (reached : dated.Reached) :
    dated.context.Rooted ∧
      (∀ slot, dated.context.isLive slot →
        ∃ line, (∀ other, dated.context.Lineage slot other ↔ other = line) ∧
          ∀ name, dated.context.get? slot name = line.findSome? (dated.context.local? · name) ∧
            ∀ value, dated.context.Assigns slot line name value) ∧
      ∀ slot, slot ≠ 0 → dated.context.isLive slot →
        dated.Releases slot (dated.context.release slot) := by
  have lawful := reached.lawful
  have rooted := lawful.rooted
  refine ⟨rooted, ?_, ?_⟩
  · intro slot live
    obtain ⟨line, lineage⟩ := rooted.exists_lineage (of_decide_eq_true live)
    refine ⟨line, fun other => ⟨lineage.unique, fun same => same ▸ lineage⟩, fun name => ?_⟩
    exact ⟨lineage.get?_eq_findSome? rooted.stacked, rooted.assigns lineage⟩
  · intro slot notRoot live
    exact lawful.releases notRoot (of_decide_eq_true live)

/-- Two nested scopes that are released, and a third in the slot of the first. -/
def reusedSlot : Dated :=
  [Operation.child 0 [("item", .bool true)], .child 1 [], .set 2 "item" (.bool false), .release 1,
    .child 0 [("index", .null)], .set 1 "item" (.bool false)].foldl apply (start [("item", .null)])

/-- The third scope is younger than its slot, and it wrote to the root. -/
theorem Reached.scopes_behave_reusedSlot :
    Reached reusedSlot ∧ reusedSlot.born 1 = 3 ∧
      reusedSlot.context.local? 1 "item" = none ∧
      reusedSlot.context.get? 0 "item" = some (.bool false) ∧
      reusedSlot.Releases 1 (reusedSlot.context.release 1) := by
  have nested := ((Reached.start [("item", .null)]).step
    (.child 0 [("item", .bool true)]) rfl).step (.child 1 []) rfl
  have released := (nested.step (.set 2 "item" (.bool false)) rfl).step (.release 1) rfl
  have reached : Reached reusedSlot := (released.step (.child 0 [("index", .null)]) rfl).step
    (.set 1 "item" (.bool false)) rfl
  exact ⟨reached, rfl, rfl, rfl, reached.scopes_behave.2.2 1 (by decide) rfl⟩

end Dated

end Context

end TemplateCompiler
