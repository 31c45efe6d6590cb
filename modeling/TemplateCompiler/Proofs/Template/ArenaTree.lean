import TemplateCompiler.Template.Arena
import Mathlib.Data.List.Chain
import Mathlib.Data.List.Perm.Subperm
import Mathlib.Logic.Relation
import Mathlib.Tactic.Common

/-!
# Arenas that hold a tree

An arena is well formed when its first node is a document, parents and lists of
children agree, and no node lies below itself.  The tree of such an arena is
read off without its bound: every node comes with exactly the trees of its
children.

The bound suffices because a line of descent never meets a node twice, so it is
no longer than the number of nodes.
-/

namespace TemplateCompiler

namespace Arena

open Relation

/-- The entry of a node; a number without a node has an empty block. -/
def entry (arena : Arena) (id : Nat) : ArenaNode :=
  (arena.get? id).getD default

/-- A node is in the list of children of another one. -/
def IsChild (arena : Arena) (child parent : Nat) : Prop :=
  child ∈ arena.children parent

/-- The document is the first node, the links in both directions agree, and
there are no cycles. -/
structure WellFormed (arena : Arena) : Prop where
  root : ∃ head, (arena.entry 0).kind = .document head
  linked : ∀ child parent, arena.parent? child = some parent ↔ arena.IsChild child parent
  acyclic : ∀ id, ¬ TransGen arena.IsChild id id

variable {arena : Arena}

theorem children_eq (arena : Arena) (id : Nat) :
    arena.children id = (arena.entry id).children := by
  cases found : arena.get? id with
  | none => simp [children, entry, found, default]
  | some node => simp [children, entry, found]

theorem IsChild.parent_lt {child parent : Nat} (isChild : arena.IsChild child parent) :
    parent < arena.size := by
  by_contra outside
  have missing : arena.get? parent = none :=
    Array.getElem?_eq_none (Nat.le_of_not_lt outside)
  simp [IsChild, children, missing] at isChild

/-- In a line of descent, the youngest first, no node occurs twice. -/
theorem nodup_of_isChain (acyclic : ∀ id, ¬ TransGen arena.IsChild id id) {line : List Nat}
    (descends : line.IsChain arena.IsChild) : line.Nodup := by
  have pairwise : line.Pairwise (TransGen arena.IsChild) :=
    List.isChain_iff_pairwise.1 (descends.imp fun _ _ => TransGen.single)
  refine pairwise.imp fun {first second} below => ?_
  rintro rfl
  exact acyclic first below

theorem lt_of_isChain {id ancestor : Nat} {ancestors : List Nat}
    (descends : (id :: ancestors).IsChain arena.IsChild) (member : ancestor ∈ ancestors) :
    ancestor < arena.size := by
  induction ancestors generalizing id with
  | nil => simp at member
  | cons parent ancestors ih =>
      obtain ⟨isChild, above⟩ := List.isChain_cons_cons.1 descends
      rcases List.mem_cons.1 member with rfl | member
      · exact isChild.parent_lt
      · exact ih above member

/-- A node has fewer ancestors in a line of descent than there are nodes, unless
it has no children. -/
theorem length_lt_of_isChain (acyclic : ∀ id, ¬ TransGen arena.IsChild id id)
    {child id : Nat} {ancestors : List Nat}
    (descends : (child :: id :: ancestors).IsChain arena.IsChild) :
    ancestors.length < arena.size := by
  have distinct : (id :: ancestors).Nodup :=
    nodup_of_isChain acyclic (List.isChain_cons_cons.1 descends).2
  have within : id :: ancestors ⊆ List.range arena.size := fun ancestor member =>
    List.mem_range.2 (lt_of_isChain descends member)
  have bounded := (distinct.subperm within).length_le
  simp only [List.length_cons, List.length_range] at bounded
  omega

theorem subtree_eq (arena : Arena) (depth id : Nat) :
    arena.subtree (depth + 1) id =
      .node id (arena.entry id).kind (arena.entry id).position
        ((arena.children id).map (arena.subtree depth)) := by
  rw [subtree, children_eq]
  rfl

/-- Levels beyond the number of nodes that can still follow add nothing. -/
theorem subtree_succ_of_isChain (acyclic : ∀ id, ¬ TransGen arena.IsChild id id)
    (depth : Nat) {id : Nat} {ancestors : List Nat}
    (descends : (id :: ancestors).IsChain arena.IsChild)
    (enough : arena.size ≤ ancestors.length + depth) :
    arena.subtree (depth + 1) id = arena.subtree depth id := by
  have descendsTo : ∀ child ∈ arena.children id,
      (child :: id :: ancestors).IsChain arena.IsChild := fun child member =>
    List.isChain_cons_cons.2 ⟨member, descends⟩
  induction depth generalizing id ancestors with
  | zero =>
      have childless : arena.children id = [] := by
        apply List.eq_nil_iff_forall_not_mem.2
        intro child member
        have := length_lt_of_isChain acyclic (descendsTo child member)
        omega
      rw [subtree_eq, childless]
      rfl
  | succ depth ih =>
      rw [subtree_eq, subtree_eq]
      congr 1
      apply List.map_congr_left
      intro child member
      apply ih (descendsTo child member) (by simp only [List.length_cons]; omega)
      exact fun grandchild below =>
        List.isChain_cons_cons.2 ⟨below, descendsTo child member⟩

/-- The tree at a node consists of the node and the trees at its children. -/
theorem tree_eq (acyclic : ∀ id, ¬ TransGen arena.IsChild id id) (id : Nat) :
    arena.tree id =
      .node id (arena.entry id).kind (arena.entry id).position
        ((arena.children id).map arena.tree) := by
  have unfolded := subtree_succ_of_isChain acyclic arena.size (List.isChain_singleton id)
    (Nat.le_add_left _ _)
  rw [tree, ← unfolded, subtree_eq]
  rfl

/-- Below every node the descent ends. -/
theorem wellFounded_isChild (acyclic : ∀ id, ¬ TransGen arena.IsChild id id) :
    WellFounded arena.IsChild := by
  have accessible : ∀ depth {id : Nat} {ancestors : List Nat},
      (id :: ancestors).IsChain arena.IsChild →
        arena.size ≤ ancestors.length + depth → Acc arena.IsChild id := by
    intro depth
    induction depth with
    | zero =>
        intro id ancestors descends enough
        refine ⟨id, fun child isChild => ?_⟩
        have := length_lt_of_isChain acyclic (List.isChain_cons_cons.2 ⟨isChild, descends⟩)
        omega
    | succ depth ih =>
        intro id ancestors descends enough
        refine ⟨id, fun child isChild => ih (List.isChain_cons_cons.2 ⟨isChild, descends⟩) ?_⟩
        simp only [List.length_cons]
        omega
  exact ⟨fun id => accessible arena.size (List.isChain_singleton id) (Nat.le_add_left _ _)⟩

end Arena

end TemplateCompiler
