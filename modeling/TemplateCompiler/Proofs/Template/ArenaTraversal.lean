import TemplateCompiler.Proofs.Template.ArenaLinks
import TemplateCompiler.Template.Dump
import Mathlib.Data.Set.Card

/-!
# Traversals of an arena

A traversal keeps a stack.  It takes the topmost node, visits it, and puts its
children on the stack, the first one on top.  In an arena with well-formed links
this ends, after every node below the start has been visited once.

The dump of an arena is such a traversal, in which every node carries its depth.
The depth counts the ancestors of a node that the traversal itself has met.  A
document that was put below another node is still where the dump starts, so
nothing above it counts.
-/

namespace TemplateCompiler

/-- A traversal with a stack, topmost first: what it visits, in order, until the
stack is empty. -/
inductive Traverses {α : Type} (below : α → List α) : List α → List α → Prop
  | done : Traverses below [] []
  | visit {first : α} {others visited : List α} :
      Traverses below (below first ++ others) visited →
        Traverses below (first :: others) (first :: visited)

namespace Traverses

variable {α : Type} {below : α → List α}

/-- A traversal visits what is below the topmost node before it goes on, and
this ends when descents do. -/
theorem of_wellFounded (descends : WellFounded fun lower upper => lower ∈ below upper)
    {listing : α → List α}
    (listing_eq : ∀ first, listing first = first :: (below first).flatMap listing)
    (first : α) {others visited : List α} (afterwards : Traverses below others visited) :
    Traverses below (first :: others) (listing first ++ visited) := by
  induction first using descends.induction generalizing others visited with
  | _ first ih =>
      have through : ∀ lower : List α, (∀ item ∈ lower, item ∈ below first) →
          Traverses below (lower ++ others) (lower.flatMap listing ++ visited) := by
        intro lower within
        induction lower with
        | nil => exact afterwards
        | cons item lower onward =>
            rw [List.flatMap_cons, List.append_assoc]
            exact ih item (within item List.mem_cons_self)
              (onward fun other member => within other (List.mem_cons_of_mem item member))
      rw [listing_eq first]
      exact visit (through (below first) fun _ member => member)

end Traverses

namespace Node

theorem preorders_eq_flatMap (nodes : List Node) :
    preorders nodes = nodes.flatMap preorder := by
  induction nodes with
  | nil => rfl
  | cons first others ih => rw [preorders, List.flatMap_cons, ih]

theorem childDumpLines_eq_flatMap (depth : Nat) (nodes : List Node) :
    childDumpLines depth nodes = nodes.flatMap (dumpLines depth) := by
  induction nodes with
  | nil => rfl
  | cons first others ih => rw [childDumpLines, List.flatMap_cons, ih]

end Node

namespace Arena

open Relation

variable {arena : Arena} {id other : Nat}

/-- All nodes above a node. -/
def ancestors (arena : Arena) (id : Nat) : Set Nat :=
  {above | TransGen arena.HasParent id above}

/-- The nodes above a node that do not lie outside the subtree at `top`. -/
def ancestorsWithin (arena : Arena) (top id : Nat) : Set Nat :=
  {above | above ∈ arena.ancestors id ∧ ReflTransGen arena.HasParent above top}

/-- The numbers at and below a node in the order of a traversal: each once,
parents before their children, and the children of a node in the order of its
list. -/
structure ListsSubtree (arena : Arena) (id : Nat) (ids : List Nat) : Prop where
  traverses : Traverses arena.children [id] ids
  mem_iff : ∀ other, other ∈ ids ↔ ReflTransGen arena.HasParent other id
  nodup : ids.Nodup
  ordered : ∀ parent ∈ ids, (parent :: arena.children parent).Sublist ids

/-- What a dump shows for a node: its line, indented by two blanks for each
level. -/
def dumpEntry (arena : Arena) (depth id : Nat) : String :=
  String.ofList (List.replicate (2 * depth) ' ') ++ (arena.entry id).kind.dumpLine ++ "\n"

theorem preorder_eq (linked : arena.Linked) (id : Nat) :
    arena.preorder id = id :: (arena.children id).flatMap arena.preorder := by
  rw [preorder, tree_eq linked.acyclic_isChild, Node.preorder, Node.preorders_eq_flatMap,
    List.flatMap_map]
  rfl

theorem traverses_preorder (linked : arena.Linked) (id : Nat) :
    Traverses arena.children [id] (arena.preorder id) := by
  have visited := Traverses.of_wellFounded (wellFounded_isChild linked.acyclic_isChild)
    (preorder_eq linked) id Traverses.done
  rwa [List.append_nil] at visited

theorem mem_preorder (linked : arena.Linked) :
    other ∈ arena.preorder id ↔ ReflTransGen arena.HasParent other id := by
  induction id using (wellFounded_isChild linked.acyclic_isChild).induction with
  | _ id ih =>
      rw [preorder_eq linked, List.mem_cons, List.mem_flatMap, ReflTransGen.cases_tail_iff]
      refine or_congr eq_comm (exists_congr fun child => ?_)
      constructor
      · rintro ⟨isChild, member⟩
        exact ⟨(ih child isChild).1 member, (linked.agree child id).1 isChild⟩
      · rintro ⟨climbs, hasParent⟩
        have isChild := (linked.agree child id).2 hasParent
        exact ⟨isChild, (ih child isChild).2 climbs⟩

theorem hasParent_rightUnique (arena : Arena) : Relator.RightUnique arena.HasParent := by
  intro child first second isFirst isSecond
  exact Option.some.inj (isFirst.symm.trans isSecond)

/-- A node below two children of one node is below one child: they are the
same. -/
theorem child_unique (linked : arena.Linked) {first second : Nat}
    (isFirst : arena.HasParent first id) (isSecond : arena.HasParent second id)
    (belowFirst : ReflTransGen arena.HasParent other first)
    (belowSecond : ReflTransGen arena.HasParent other second) : first = second := by
  have noDetour : ∀ {lower upper}, arena.HasParent lower id → arena.HasParent upper id →
      ReflTransGen arena.HasParent lower upper → lower = upper := by
    intro lower upper isLower isUpper climbs
    rcases climbs.cases_head with same | ⟨above, link, onward⟩
    · exact same
    · obtain rfl := arena.hasParent_rightUnique link isLower
      exact absurd (TransGen.tail' onward isUpper) (linked.acyclic _)
  rcases belowFirst.total_of_right_unique arena.hasParent_rightUnique belowSecond with
    climbs | climbs
  · exact noDetour isFirst isSecond climbs
  · exact (noDetour isSecond isFirst climbs).symm

theorem nodup_preorder (linked : arena.Linked) : (arena.preorder id).Nodup := by
  induction id using (wellFounded_isChild linked.acyclic_isChild).induction with
  | _ id ih =>
      rw [preorder_eq linked, List.nodup_cons, List.nodup_flatMap]
      refine ⟨fun member => ?_, ih, ?_⟩
      · obtain ⟨child, isChild, member⟩ := List.mem_flatMap.1 member
        exact linked.acyclic id
          (TransGen.tail' ((mem_preorder linked).1 member) ((linked.agree child id).1 isChild))
      · apply (linked.nodup id).pairwise_of_forall_ne
        intro first isFirst second isSecond differ other belowFirst belowSecond
        exact differ (child_unique linked ((linked.agree first id).1 isFirst)
          ((linked.agree second id).1 isSecond) ((mem_preorder linked).1 belowFirst)
          ((mem_preorder linked).1 belowSecond))

theorem ordered_preorder (linked : arena.Linked) (parent : Nat)
    (member : parent ∈ arena.preorder id) :
    (parent :: arena.children parent).Sublist (arena.preorder id) := by
  induction id using (wellFounded_isChild linked.acyclic_isChild).induction with
  | _ id ih =>
      rw [preorder_eq linked] at member ⊢
      rcases List.mem_cons.1 member with rfl | member
      · refine List.Sublist.cons_cons parent ?_
        have heads : ∀ ids : List Nat, ids.Sublist (ids.flatMap arena.preorder) := by
          intro ids
          induction ids with
          | nil => exact List.Sublist.slnil
          | cons first others onward =>
              rw [List.flatMap_cons, preorder_eq linked, List.cons_append]
              exact (onward.trans (List.sublist_append_right _ _)).cons_cons first
        exact heads _
      · obtain ⟨child, isChild, member⟩ := List.mem_flatMap.1 member
        have inList :=
          List.sublist_flatten_of_mem (List.mem_map_of_mem (f := arena.preorder) isChild)
        exact ((ih child isChild member).trans inList).cons id

theorem listsSubtree_preorder (linked : arena.Linked) (id : Nat) :
    arena.ListsSubtree id (arena.preorder id) :=
  ⟨traverses_preorder linked id, fun _ => mem_preorder linked, nodup_preorder linked,
    ordered_preorder linked⟩

section Depth

theorem finite_ancestorsWithin (linked : arena.Linked) (top id : Nat) :
    (arena.ancestorsWithin top id).Finite := by
  refine (Set.finite_lt_nat arena.size).subset fun above member => ?_
  obtain ⟨between, _, link⟩ := TransGen.tail'_iff.1 member.1
  exact linked.parent_lt link

theorem ancestorsWithin_self (linked : arena.Linked) (id : Nat) :
    arena.ancestorsWithin id id = ∅ := by
  refine Set.eq_empty_iff_forall_notMem.2 fun above member => ?_
  exact linked.acyclic id (member.1.trans_left member.2)

/-- One level further up there is one more ancestor. -/
theorem ancestorsWithin_parent (linked : arena.Linked) {child : Nat}
    (isChild : arena.HasParent child id) (below : ReflTransGen arena.HasParent other child) :
    arena.ancestorsWithin id other = insert id (arena.ancestorsWithin child other) := by
  ext above
  constructor
  · rintro ⟨aboveOther, belowId⟩
    rcases belowId.cases_tail with same | ⟨second, belowSecond, isSecond⟩
    · exact .inl same.symm
    · have sameChild : second = child :=
        child_unique linked isSecond isChild (aboveOther.to_reflTransGen.trans belowSecond) below
      exact .inr ⟨aboveOther, sameChild ▸ belowSecond⟩
  · rintro (rfl | ⟨aboveOther, belowChild⟩)
    · exact ⟨TransGen.tail' below isChild, .refl⟩
    · exact ⟨aboveOther, belowChild.tail isChild⟩

theorem ncard_ancestorsWithin_parent (linked : arena.Linked) {child : Nat}
    (isChild : arena.HasParent child id) (below : ReflTransGen arena.HasParent other child) :
    (arena.ancestorsWithin id other).ncard = (arena.ancestorsWithin child other).ncard + 1 := by
  rw [ancestorsWithin_parent linked isChild below]
  refine Set.ncard_insert_of_notMem (fun member => ?_) (finite_ancestorsWithin linked child other)
  exact linked.acyclic child (TransGen.head' isChild member.2)

/-- Without a node above the start, all ancestors count. -/
theorem ancestorsWithin_eq_ancestors (noParent : arena.parent? id = none)
    (below : ReflTransGen arena.HasParent other id) :
    arena.ancestorsWithin id other = arena.ancestors other := by
  refine Set.Subset.antisymm (fun _ member => member.1) fun above member => ⟨member, ?_⟩
  rcases member.to_reflTransGen.total_of_right_unique arena.hasParent_rightUnique below with
    climbs | climbs
  · exact climbs
  · rcases climbs.cases_head with rfl | ⟨between, link, _⟩
    · exact .refl
    · rw [HasParent, noParent] at link
      cases link

end Depth

section Dump

/-- The numbers at and below a node, each with its depth. -/
noncomputable def outline (arena : Arena) (start : Nat × Nat) : List (Nat × Nat) :=
  (arena.preorder start.1).map fun id =>
    (id, start.2 + (arena.ancestorsWithin start.1 id).ncard)

/-- The children of a node, one level deeper. -/
def deeper (arena : Arena) (place : Nat × Nat) : List (Nat × Nat) :=
  (arena.children place.1).map (·, place.2 + 1)

theorem outline_eq (linked : arena.Linked) (place : Nat × Nat) :
    arena.outline place = place :: (arena.deeper place).flatMap arena.outline := by
  obtain ⟨id, depth⟩ := place
  rw [outline, preorder_eq linked, List.map_cons, List.map_flatMap, deeper, List.flatMap_map,
    ancestorsWithin_self linked]
  simp only [Set.ncard_empty, Nat.add_zero, List.cons.injEq, true_and]
  refine List.flatMap_congr fun child isChild => List.map_congr_left fun other member => ?_
  rw [ncard_ancestorsWithin_parent linked ((linked.agree child id).1 isChild)
    ((mem_preorder linked).1 member)]
  simp only [Prod.mk.injEq, true_and]
  omega

theorem dumpLines_tree (linked : arena.Linked) (id depth : Nat) :
    Node.dumpLines depth (arena.tree id) =
      (arena.outline (id, depth)).map fun place =>
        (place.2, (arena.entry place.1).kind.dumpLine) := by
  induction id using (wellFounded_isChild linked.acyclic_isChild).induction generalizing depth with
  | _ id ih =>
      rw [tree_eq linked.acyclic_isChild, Node.dumpLines, Node.childDumpLines_eq_flatMap,
        List.flatMap_map, outline_eq linked, List.map_cons, List.map_flatMap, deeper,
        List.flatMap_map]
      exact congrArg _ (List.flatMap_congr fun child isChild => ih child isChild (depth + 1))

theorem traverses_outline (linked : arena.Linked) (place : Nat × Nat) :
    Traverses arena.deeper [place] (arena.outline place) := by
  have descends : WellFounded fun lower upper => lower ∈ arena.deeper upper := by
    refine Subrelation.wf (fun {lower upper} member => ?_)
      (InvImage.wf Prod.fst (wellFounded_isChild linked.acyclic_isChild))
    obtain ⟨child, isChild, rfl⟩ := List.mem_map.1 member
    exact isChild
  have visited := Traverses.of_wellFounded descends (outline_eq linked) place Traverses.done
  rwa [List.append_nil] at visited

theorem dump_tree (linked : arena.Linked) (id : Nat) :
    (arena.tree id).dump =
      String.join ((arena.preorder id).map fun other =>
        arena.dumpEntry (arena.ancestorsWithin id other).ncard other) := by
  rw [Node.dump, dumpLines_tree linked, outline, List.map_map, List.map_map]
  refine congrArg String.join (List.map_congr_left fun other _ => ?_)
  simp [dumpEntry]

end Dump

/-- Whatever valid edits made an arena, its links are well formed, and appending
moves one number to the end of one list.  Every traversal therefore ends and
lists a subtree, and the dump shows the subtree of the document in this order,
every node indented by its ancestors down from the document. -/
theorem Built.isForest (built : Built arena) :
    arena.Linked ∧
      (∀ parent child, (Edit.append parent child).Valid arena → ∀ id,
        (arena.append parent child).children id =
          (arena.children id).erase child ++ if id = parent then [child] else []) ∧
      (∀ id < arena.size, arena.ListsSubtree id (arena.preorder id)) ∧
      Traverses arena.deeper [(0, 0)]
        ((arena.preorder 0).map fun id => (id, (arena.ancestorsWithin 0 id).ncard)) ∧
      (arena.tree 0).dump =
        String.join ((arena.preorder 0).map fun id =>
          arena.dumpEntry (arena.ancestorsWithin 0 id).ncard id) ∧
      (arena.parent? 0 = none → ∀ id ∈ arena.preorder 0,
        arena.ancestorsWithin 0 id = arena.ancestors id) := by
  have linked := built.linked
  refine ⟨linked, fun parent child valid id => ?_, fun id _ => listsSubtree_preorder linked id,
    ?_, dump_tree linked 0, fun noParent id member => ?_⟩
  · rw [children_append linked valid.1]
    by_cases same : id = parent
    · simp [same]
    · simp [same, Ne.symm same]
  · simpa [outline] using traverses_outline linked (0, 0)
  · exact ancestorsWithin_eq_ancestors noParent ((mem_preorder linked).1 member)

/-- Two blocks under a document, and a third that moved from the first to the
second. -/
def movedBlock : Arena :=
  [Edit.pushChild 0 .block .start, .pushChild 0 .block .start, .pushChild 1 .block .start,
    .append 2 3].foldl Edit.apply (ofDocument ⟨"", []⟩ .start)

theorem Built.isForest_movedBlock :
    Built movedBlock ∧
      String.join ((movedBlock.preorder 0).map fun id =>
          movedBlock.dumpEntry (movedBlock.ancestorsWithin 0 id).ncard id) =
        "document\n  block\n  block\n    block\n" := by
  have start := Built.ofDocument ⟨"", []⟩ .start
  have first := start.edit (.pushChild 0 .block .start) (by change _ < _; decide +kernel)
  have second := first.edit (.pushChild 0 .block .start) (by change _ < _; decide +kernel)
  have third := second.edit (.pushChild 1 .block .start) (by change _ < _; decide +kernel)
  have built : Built movedBlock := by
    refine third.edit (.append 2 3) ⟨by decide +kernel, by decide +kernel, fun climbs => ?_⟩
    rcases climbs.cases_head with same | ⟨above, link, onward⟩
    · cases same
    · obtain rfl : 0 = above := Option.some.inj link
      rcases onward.cases_head with same | ⟨_, link, _⟩
      · cases same
      · cases link
  refine ⟨built, ?_⟩
  rw [← built.isForest.2.2.2.2.1]
  decide +kernel

/-- A document that was put below a block. -/
def documentInBlock : Arena :=
  [Edit.alloc .block .start, .append 1 0].foldl Edit.apply (ofDocument ⟨"", []⟩ .start)

theorem built_documentInBlock : Built documentInBlock := by
  have start := Built.ofDocument ⟨"", []⟩ .start
  have larger := start.edit (.alloc .block .start) trivial
  refine larger.edit (.append 1 0) ⟨by decide +kernel, by decide +kernel, fun climbs => ?_⟩
  rcases climbs.cases_head with same | ⟨_, link, _⟩
  · cases same
  · cases link

/-- The dump does not count what lies above the document. -/
theorem not_forall_dump_ancestors :
    ¬ ∀ arena : Arena, Built arena →
      (arena.tree 0).dump =
        String.join ((arena.preorder 0).map fun id =>
          arena.dumpEntry (arena.ancestors id).ncard id) := by
  intro claimed
  have above : documentInBlock.ancestors 0 = {1} := by
    ext id
    refine ⟨fun member => ?_, ?_⟩
    · obtain ⟨between, link, onward⟩ := TransGen.head'_iff.1 member
      obtain rfl : 1 = between := Option.some.inj link
      rcases onward.cases_head with rfl | ⟨_, link, _⟩
      · rfl
      · cases link
    · rintro rfl
      exact TransGen.single rfl
  have visited : documentInBlock.preorder 0 = [0] := by decide +kernel
  have shown := claimed documentInBlock built_documentInBlock
  rw [visited, List.map_singleton, above, Set.ncard_singleton] at shown
  exact absurd shown (by decide +kernel)

end Arena

end TemplateCompiler
