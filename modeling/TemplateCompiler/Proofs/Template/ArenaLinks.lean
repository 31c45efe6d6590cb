import TemplateCompiler.Proofs.Template.ArenaTree

/-!
# Links of an arena

An arena keeps every link twice: a node knows its parent, and the parent lists
the node.  The edits of an arena are allocation, pushing, appending, detaching
and changes of kind.  Whatever sequence of them made an arena, both copies of
its links agree, no list repeats a node, and nobody is its own ancestor.

Appending is the only edit that could close a cycle.  It does so exactly when
the new child is an ancestor of the new parent or the parent itself, which a
valid edit rules out.
-/

namespace TemplateCompiler

namespace Arena

open Relation

/-- The link from a node up to its parent. -/
def HasParent (arena : Arena) (child parent : Nat) : Prop :=
  arena.parent? child = some parent

/-- Both copies of the links agree, lists do not repeat nodes, and no node is
above itself. -/
structure Linked (arena : Arena) : Prop where
  agree : ∀ child parent, arena.IsChild child parent ↔ arena.HasParent child parent
  nodup : ∀ parent, (arena.children parent).Nodup
  acyclic : ∀ id, ¬ TransGen arena.HasParent id id

/-- A change that a program makes to an arena. -/
inductive Edit where
  | alloc (kind : NodeKind) (position : Position)
  | pushChild (parent : Nat) (kind : NodeKind) (position : Position)
  | append (parent child : Nat)
  | detach (id : Nat)
  | setKind (id : Nat) (kind : NodeKind)

namespace Edit

def apply (arena : Arena) : Edit → Arena
  | .alloc kind position => (arena.alloc kind position).1
  | .pushChild parent kind position => (arena.pushChild parent kind position).1
  | .append parent child => arena.append parent child
  | .detach id => arena.detach id
  | .setKind id kind => arena.setKind id kind

/-- The numbers of an edit are those of nodes, and a node is not appended to
itself or to a node below it. -/
def Valid (arena : Arena) : Edit → Prop
  | .alloc .. => True
  | .pushChild parent .. => parent < arena.size
  | .append parent child =>
      parent < arena.size ∧ child < arena.size ∧ ¬ ReflTransGen arena.HasParent parent child
  | .detach id => id < arena.size
  | .setKind id _ => id < arena.size

end Edit

/-- The arenas that valid edits make out of a single document. -/
inductive Built : Arena → Prop
  | ofDocument (document : Document) (position : Position) : Built (ofDocument document position)
  | edit {arena : Arena} (edit : Edit) :
      Built arena → edit.Valid arena → Built (edit.apply arena)

variable {arena : Arena} {parent child : Nat}

section Updates

variable (arena)

theorem get?_update (id other : Nat) (change : ArenaNode → ArenaNode) :
    (arena.update id change).get? other =
      if id = other then (arena.get? other).map change else arena.get? other :=
  Array.getElem?_modify

@[simp]
theorem size_update (id : Nat) (change : ArenaNode → ArenaNode) :
    (arena.update id change).size = arena.size :=
  Array.size_modify

theorem parent?_update_of_keeps (id other : Nat) (change : ArenaNode → ArenaNode)
    (keeps : ∀ node, (change node).parent = node.parent) :
    (arena.update id change).parent? other = arena.parent? other := by
  rw [parent?, parent?, get?_update]
  split
  · cases arena.get? other with
    | none => rfl
    | some node => exact keeps node
  · rfl

theorem children_update_of_keeps (id other : Nat) (change : ArenaNode → ArenaNode)
    (keeps : ∀ node, (change node).children = node.children) :
    (arena.update id change).children other = arena.children other := by
  rw [children, children, get?_update]
  split
  · cases arena.get? other with
    | none => rfl
    | some node => exact keeps node
  · rfl

theorem get?_of_lt {id : Nat} (within : id < arena.size) : ∃ node, arena.get? id = some node :=
  ⟨arena.nodes[id], Array.getElem?_eq_getElem within⟩

theorem parent?_setParent {id : Nat} (within : id < arena.size) (value : Option Nat)
    (other : Nat) :
    (arena.update id ({ · with parent := value })).parent? other =
      if id = other then value else arena.parent? other := by
  rw [parent?, get?_update]
  split
  next same =>
    obtain ⟨node, found⟩ := arena.get?_of_lt within
    simp [← same, found]
  next => rfl

@[simp]
theorem children_setParent (id : Nat) (value : Option Nat) (other : Nat) :
    (arena.update id ({ · with parent := value })).children other = arena.children other :=
  arena.children_update_of_keeps id other _ fun _ => rfl

@[simp]
theorem parent?_setChildren (id : Nat) (change : List Nat → List Nat) (other : Nat) :
    (arena.update id fun node => { node with children := change node.children }).parent? other =
      arena.parent? other :=
  arena.parent?_update_of_keeps id other _ fun _ => rfl

theorem children_setChildren {id : Nat} (within : id < arena.size)
    (change : List Nat → List Nat) (other : Nat) :
    (arena.update id fun node => { node with children := change node.children }).children other =
      if id = other then change (arena.children other) else arena.children other := by
  rw [children, children, get?_update]
  split
  next same =>
    obtain ⟨node, found⟩ := arena.get?_of_lt within
    simp [← same, found]
  next => rfl

/-- A new node has no links, and neither has the number it gets. -/
theorem get?_alloc (kind : NodeKind) (position : Position) (id : Nat) :
    (arena.alloc kind position).1.get? id =
      if id = arena.size then some ⟨kind, position, none, []⟩ else arena.get? id :=
  Array.getElem?_push

@[simp]
theorem size_alloc (kind : NodeKind) (position : Position) :
    (arena.alloc kind position).1.size = arena.size + 1 :=
  Array.size_push _

@[simp]
theorem parent?_alloc (kind : NodeKind) (position : Position) (id : Nat) :
    (arena.alloc kind position).1.parent? id = arena.parent? id := by
  rw [parent?, parent?, get?_alloc]
  split
  next new => simp [get?, size, new]
  next => rfl

@[simp]
theorem children_alloc (kind : NodeKind) (position : Position) (id : Nat) :
    (arena.alloc kind position).1.children id = arena.children id := by
  rw [children, children, get?_alloc]
  split
  next new => simp [get?, size, new]
  next => rfl

@[simp]
theorem parent?_setKind (id : Nat) (kind : NodeKind) (other : Nat) :
    (arena.setKind id kind).parent? other = arena.parent? other :=
  arena.parent?_update_of_keeps id other _ fun _ => rfl

@[simp]
theorem children_setKind (id : Nat) (kind : NodeKind) (other : Nat) :
    (arena.setKind id kind).children other = arena.children other :=
  arena.children_update_of_keeps id other _ fun _ => rfl

@[simp]
theorem size_detach (child : Nat) : (arena.detach child).size = arena.size := by
  rw [detach]
  split <;> simp

end Updates

namespace Linked

theorem isChild_eq (linked : arena.Linked) : arena.IsChild = arena.HasParent := by
  funext child parent
  exact propext (linked.agree child parent)

theorem acyclic_isChild (linked : arena.Linked) (id : Nat) : ¬ TransGen arena.IsChild id id := by
  rw [linked.isChild_eq]
  exact linked.acyclic id

/-- A parent lists its children. -/
theorem parent_lt (linked : arena.Linked) (hasParent : arena.HasParent child parent) :
    parent < arena.size :=
  ((linked.agree child parent).2 hasParent).parent_lt

end Linked

theorem HasParent.child_lt (hasParent : arena.HasParent child parent) : child < arena.size := by
  by_contra outside
  have missing : arena.get? child = none :=
    Array.getElem?_eq_none (Nat.le_of_not_lt outside)
  simp [HasParent, parent?, missing] at hasParent

section Detach

/-- Detaching a node clears its link upwards and no other one. -/
theorem parent?_detach (arena : Arena) (child id : Nat) :
    (arena.detach child).parent? id = if child = id then none else arena.parent? id := by
  rw [detach]
  cases above : arena.parent? child with
  | none =>
      dsimp only
      split
      next same => rw [← same, above]
      next => rfl
  | some parent =>
      have within : child < arena.size := HasParent.child_lt above
      dsimp only
      rw [parent?_setChildren _ parent (·.filter (· != child)), parent?_setParent _ within]

/-- Detaching a node takes it out of the one list it is in. -/
theorem children_detach (linked : arena.Linked) (child id : Nat) :
    (arena.detach child).children id = (arena.children id).erase child := by
  have elsewhere : arena.parent? child ≠ some id →
      arena.children id = (arena.children id).erase child := fun other =>
    (List.erase_of_not_mem fun member => other ((linked.agree child id).1 member)).symm
  rw [detach]
  cases above : arena.parent? child with
  | none => exact elsewhere (by simp [above])
  | some parent =>
      have within : parent < arena.size := linked.parent_lt above
      dsimp only
      rw [children_setChildren _ (by simpa using within), children_setParent]
      split
      next => exact ((linked.nodup id).erase_eq_filter child).symm
      next other => exact elsewhere (by simpa [above] using other)

end Detach

section Append

/-- Appending a node sets its link upwards and no other one. -/
theorem parent?_append (within : child < arena.size) (id : Nat) :
    (arena.append parent child).parent? id =
      if child = id then some parent else arena.parent? id := by
  rw [append, parent?_setChildren _ parent (· ++ [child]),
    parent?_setParent _ (by simpa using within), parent?_detach]
  split <;> rfl

/-- Appending a node takes it out of the list it is in and puts it at the end of
the list of its new parent. -/
theorem children_append (linked : arena.Linked) (within : parent < arena.size) (id : Nat) :
    (arena.append parent child).children id =
      if parent = id then (arena.children id).erase child ++ [child]
      else (arena.children id).erase child := by
  rw [append, children_setChildren _ (by simpa using within) (· ++ [child]),
    children_setParent, children_detach linked]

/-- A line of descent after an edit that links `child` to `parent` is an old
line, or leads through the new link once. -/
theorem transGen_of_link {old new : Nat → Nat → Prop}
    (linksOnly : ∀ {id above}, new id above → old id above ∨ id = child ∧ above = parent)
    (notAbove : ¬ ReflTransGen old parent child) {id above : Nat}
    (climbs : TransGen new id above) :
    TransGen old id above ∨ ReflTransGen old id child ∧ ReflTransGen old parent above := by
  induction climbs with
  | single first =>
      rcases linksOnly first with first | ⟨rfl, rfl⟩
      · exact .inl (.single first)
      · exact .inr ⟨.refl, .refl⟩
  | tail _ last ih =>
      rcases linksOnly last with last | ⟨rfl, rfl⟩
      · exact ih.imp (·.tail last) fun ⟨toChild, fromParent⟩ => ⟨toChild, fromParent.tail last⟩
      · rcases ih with before | ⟨_, fromParent⟩
        · exact .inr ⟨before.to_reflTransGen, .refl⟩
        · exact absurd fromParent notAbove

theorem Linked.append (linked : arena.Linked) (valid : (Edit.append parent child).Valid arena) :
    (arena.append parent child).Linked := by
  obtain ⟨parentWithin, childWithin, notAbove⟩ := valid
  refine ⟨fun other above => ?_, fun above => ?_, fun id cycle => ?_⟩
  · rw [IsChild, children_append linked parentWithin, HasParent, parent?_append childWithin]
    have unchanged : other ∈ arena.children above ↔ arena.parent? other = some above :=
      linked.agree other above
    by_cases isChild : child = other
    · subst isChild
      have erased : child ∉ (arena.children above).erase child :=
        (linked.nodup above).not_mem_erase
      split <;> simp_all
    · have kept := List.mem_erase_of_ne (l := arena.children above) (Ne.symm isChild)
      split <;> simp_all [Ne.symm isChild]
  · rw [children_append linked parentWithin]
    have erased : ((arena.children above).erase child).Nodup := (linked.nodup above).erase child
    split
    · refine List.nodup_append.2 ⟨erased, by simp, ?_⟩
      intro other member added isAdded same
      obtain rfl := List.mem_singleton.1 isAdded
      exact (linked.nodup above).not_mem_erase (same ▸ member)
    · exact erased
  · have linksOnly : ∀ {id above}, (arena.append parent child).HasParent id above →
        arena.HasParent id above ∨ id = child ∧ above = parent := by
      intro id above link
      rw [HasParent, parent?_append childWithin] at link
      split at link
      next same => exact .inr ⟨same.symm, (Option.some.inj link).symm⟩
      next => exact .inl link
    rcases transGen_of_link linksOnly notAbove cycle with old | ⟨toChild, fromParent⟩
    · exact linked.acyclic id old
    · exact notAbove (fromParent.trans toChild)

end Append

/-- Links that did not change stay well formed. -/
theorem Linked.congr {other : Arena} (linked : arena.Linked)
    (parents : ∀ id, other.parent? id = arena.parent? id)
    (lists : ∀ id, other.children id = arena.children id) : other.Linked := by
  have sameParent : other.HasParent = arena.HasParent := by
    funext child parent
    simp [HasParent, parents]
  refine ⟨fun child parent => ?_, fun parent => ?_, fun id => ?_⟩
  · rw [IsChild, lists, sameParent]
    exact linked.agree child parent
  · rw [lists]
    exact linked.nodup parent
  · rw [sameParent]
    exact linked.acyclic id

theorem Linked.detach (linked : arena.Linked) (child : Nat) : (arena.detach child).Linked := by
  have fewer : ∀ {id above}, (arena.detach child).HasParent id above →
      arena.HasParent id above := by
    intro id above link
    rw [HasParent, parent?_detach] at link
    split at link
    · cases link
    · exact link
  refine ⟨fun other parent => ?_, fun parent => ?_, fun id cycle => ?_⟩
  · rw [IsChild, children_detach linked, HasParent, parent?_detach]
    by_cases isChild : child = other
    · subst isChild
      simp [(linked.nodup parent).not_mem_erase]
    · rw [List.mem_erase_of_ne (Ne.symm isChild), if_neg isChild]
      exact linked.agree other parent
  · rw [children_detach linked]
    exact (linked.nodup parent).erase child
  · exact linked.acyclic id (TransGen.mono (fun _ _ => fewer) id id cycle)

theorem Linked.alloc (linked : arena.Linked) (kind : NodeKind) (position : Position) :
    (arena.alloc kind position).1.Linked :=
  linked.congr (by simp) (by simp)

/-- A node that has just been made can be appended anywhere: it is nobody's
parent. -/
theorem Linked.pushChild (linked : arena.Linked) (within : parent < arena.size) (kind : NodeKind)
    (position : Position) : (arena.pushChild parent kind position).1.Linked := by
  refine (linked.alloc kind position).append ⟨?_, ?_, fun climbs => ?_⟩
  · rw [size_alloc]
    omega
  · rw [size_alloc]
    exact Nat.lt_succ_self _
  · rcases climbs.cases_tail with same | ⟨id, _, link⟩
    · exact absurd same (Nat.ne_of_gt within)
    · rw [HasParent, parent?_alloc] at link
      exact absurd (linked.parent_lt link) (Nat.lt_irrefl _)

/-- Every valid edit keeps the links well formed. -/
theorem Linked.edit (linked : arena.Linked) {edit : Edit} (valid : edit.Valid arena) :
    (edit.apply arena).Linked := by
  cases edit with
  | alloc kind position => exact linked.alloc kind position
  | pushChild parent kind position => exact linked.pushChild valid kind position
  | append parent child => exact linked.append valid
  | detach id => exact linked.detach id
  | setKind id kind => exact linked.congr (by simp [Edit.apply]) (by simp [Edit.apply])

theorem linked_ofDocument (document : Document) (position : Position) :
    (ofDocument document position).Linked := by
  have noParent : ∀ id, (ofDocument document position).parent? id = none := by
    rintro (_ | id) <;> rfl
  have noChildren : ∀ id, (ofDocument document position).children id = [] := by
    rintro (_ | id) <;> rfl
  refine ⟨fun child parent => ?_, fun parent => ?_, fun id cycle => ?_⟩
  · simp [IsChild, HasParent, noParent, noChildren]
  · simp [noChildren]
  · obtain ⟨above, link, _⟩ := TransGen.head'_iff.1 cycle
    simp [HasParent, noParent] at link

theorem Built.linked (built : Built arena) : arena.Linked := by
  induction built with
  | ofDocument document position => exact linked_ofDocument document position
  | edit edit _ valid ih => exact ih.edit valid

end Arena

end TemplateCompiler
