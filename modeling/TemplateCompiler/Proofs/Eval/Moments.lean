import TemplateCompiler.Proofs.Eval.ArenaExpansion
import TemplateCompiler.Proofs.Eval.Recording
import TemplateCompiler.Proofs.Template.ArenaTraversal

/-!
# The scopes during an evaluation

At every moment of an evaluation there are the scopes of the beginning, all in
their slots, and on top of them one for each loop around the node that is
evaluated.  So in the end none is left over and none has changed, wherever an
error may have come from.  What the scopes of the beginning hold, and how they
are linked, does not matter.

The number of loops around a node of a tree is counted on the way down.  In an
arena it is the number of loops among the ancestors.
-/

namespace TemplateCompiler

namespace NodeKind

def isLoop : NodeKind → Bool
  | .loop _ => true
  | _ => false

/-- The number of loops around the children of a node, given how many are around
the node. -/
def loopsBelow (kind : NodeKind) (depth : Nat) : Nat :=
  if kind.isLoop then depth + 1 else depth

end NodeKind

namespace Node

variable (place : Nat → Nat → Prop)

mutual

/-- Whether the number of every node and the number of loops around it belong
together, when `depth` loops are around the whole. -/
def IsPlaced (depth : Nat) : Node → Prop
  | .node id kind _ children => place id depth ∧ AllPlaced (kind.loopsBelow depth) children

def AllPlaced (depth : Nat) : List Node → Prop
  | [] => True
  | first :: others => IsPlaced depth first ∧ AllPlaced depth others

end

variable {place}

theorem allPlaced_iff {depth : Nat} {nodes : List Node} :
    AllPlaced place depth nodes ↔ ∀ node ∈ nodes, node.IsPlaced place depth := by
  induction nodes with
  | nil => simp [AllPlaced]
  | cons first others ih => simp [AllPlaced, ih]

end Node

namespace Eval

/-- The scopes at a moment are those of a context and others on top, one for each
loop around the node that is not among `depth` outer ones. -/
def Moment.StandsOn (place : Nat → Nat → Prop) (depth : Nat) (context : Context)
    (moment : Moment) : Prop :=
  ∃ added, moment.context.scopes = context.scopes ++ added ∧
    place moment.node (depth + added.length)

/-- An evaluation leaves the scopes as it found them, and they stay in place at
each of its moments. -/
def Restores {α : Type} (place : Nat → Nat → Prop) (depth : Nat) (recorded : Recorded α) : Prop :=
  ∀ recording, 0 < recording.context.depth →
    (endState (recorded recording)).context = recording.context ∧
      ∃ moments, (endState (recorded recording)).moments = moments ++ recording.moments ∧
        ∀ moment ∈ moments, moment.StandsOn place depth recording.context

/-- A look-up does not change the scopes. -/
def Keeps {α : Type} (action : Evaluation α) : Prop :=
  ∀ context, endState (action context) = context

namespace Keeps

variable {α β : Type}

theorem bind {action : Evaluation α} {next : α → Evaluation β} (keeps : Keeps action)
    (others : ∀ value, Keeps (next value)) : Keeps (action >>= next) := by
  intro context
  have kept := keeps context
  rw [run_bind]
  cases ran : action context with
  | ok value after =>
      rw [ran] at kept
      exact (others value after).trans kept
  | error error after =>
      rw [ran] at kept
      exact kept

theorem pure (value : α) : Keeps (Pure.pure value : Evaluation α) :=
  fun _ => rfl

theorem resolve (position : Position) (path : Path) (slot : Nat) :
    Keeps (resolve position path slot) := by
  refine bind (fun _ => rfl) fun context => ?_
  split <;> exact fun _ => rfl

theorem loopItems (position : Position) (header : Loop) (slot : Nat) :
    Keeps (loopItems position header slot) := by
  refine (resolve position header.collection slot).bind fun collection => ?_
  split <;> exact fun _ => rfl

theorem interpolate (position : Position) (slot : Nat) (expression : Expr) :
    Keeps (interpolate position slot expression) := by
  cases expression with
  | path path => exact (resolve position path slot).bind fun value => .pure value.text
  | string value | number value | boolean value => exact fun _ => rfl

end Keeps

namespace Restores

variable {α β : Type} {place : Nat → Nat → Prop} {depth : Nat}

theorem pure (value : α) : Restores place depth (Pure.pure value : Recorded α) :=
  fun _ _ => ⟨rfl, [], rfl, List.forall_mem_nil _⟩

theorem throw (error : Error) : Restores place depth (MonadExcept.throw error : Recorded α) :=
  fun _ _ => ⟨rfl, [], rfl, List.forall_mem_nil _⟩

theorem bind {recorded : Recorded α} {next : α → Recorded β}
    (restores : Restores place depth recorded)
    (others : ∀ value, Restores place depth (next value)) :
    Restores place depth (recorded >>= next) := by
  intro recording nonempty
  obtain ⟨contextEq, moments, momentsEq, stand⟩ := restores recording nonempty
  rw [run_bind]
  cases ran : recorded recording with
  | error error after =>
      rw [ran] at contextEq momentsEq
      exact ⟨contextEq, moments, momentsEq, stand⟩
  | ok value after =>
      rw [ran] at contextEq momentsEq
      change after.context = recording.context at contextEq
      change after.moments = moments ++ recording.moments at momentsEq
      obtain ⟨lastEq, later, laterEq, laterStand⟩ :=
        others value after (by rwa [contextEq])
      refine ⟨lastEq.trans contextEq, later ++ moments, ?_, ?_⟩
      · rw [laterEq, momentsEq, List.append_assoc]
      · rw [contextEq] at laterStand
        exact List.forall_mem_append.2 ⟨laterStand, stand⟩

theorem unrecorded {action : Evaluation α} (keeps : Keeps action) :
    Restores place depth (unrecorded action) := by
  intro recording _
  rw [endState_unrecorded, keeps]
  exact ⟨rfl, [], rfl, List.forall_mem_nil _⟩

theorem mark {id : Nat} (placed : place id depth) :
    Restores place depth (modify (·.mark id) : Recorded PUnit) := by
  refine fun recording _ => ⟨rfl, [⟨id, recording.context⟩], rfl, ?_⟩
  exact List.forall_mem_singleton.2 ⟨[], (List.append_nil _).symm, placed⟩

theorem during {recorded : Recorded α} (restores : Restores place depth recorded) {id : Nat}
    (placed : place id depth) : Restores place depth (during id recorded) := by
  intro recording nonempty
  obtain ⟨contextEq, moments, momentsEq, stand⟩ := restores (recording.mark id) nonempty
  have atPlace : Moment.StandsOn place depth recording.context ⟨id, recording.context⟩ :=
    ⟨[], (List.append_nil _).symm, placed⟩
  rw [endState_during]
  refine ⟨contextEq, ⟨id, recording.context⟩ :: (moments ++ [⟨id, recording.context⟩]), ?_, ?_⟩
  · simp [contextEq, momentsEq]
  · exact List.forall_mem_cons.2 ⟨atPlace,
      List.forall_mem_append.2 ⟨stand, List.forall_mem_singleton.2 atPlace⟩⟩

/-- What stands on a new scope stands on the ones below it, one level up. -/
theorem standsOn_of_child {context : Context} {parent : Nat} {entries : List (String × Json)}
    {moment : Moment}
    (stands : moment.StandsOn place (depth + 1) (context.child parent entries).1) :
    moment.StandsOn place depth context := by
  obtain ⟨added, scopesEq, placed⟩ := stands
  refine ⟨⟨.ofList entries, some parent⟩ :: added, ?_, ?_⟩
  · rw [scopesEq]
    simp [Context.child]
  · rwa [List.length_cons, Nat.add_comm added.length, ← Nat.add_assoc]

/-- The scope of a round is on top while the round lasts, and is released with
whatever was left above it. -/
theorem withScope {parent : Nat} {entries : List (String × Json)} {body : Nat → Recorded α}
    (restores : ∀ slot, Restores place (depth + 1) (body slot)) :
    Restores place depth (withScopeRecorded parent entries body) := by
  intro recording nonempty
  have larger : 0 < (recording.context.child parent entries).1.depth := by
    simp [Context.child, Context.depth]
  obtain ⟨contextEq, moments, momentsEq, stand⟩ :=
    restores (recording.context.child parent entries).2
      { recording with context := (recording.context.child parent entries).1 } larger
  rw [endState_withScopeRecorded]
  refine ⟨?_, moments, momentsEq, fun moment member => standsOn_of_child (stand moment member)⟩
  simp only [contextEq, Context.release_child nonempty parent entries]

theorem iterate {id slot : Nat} (placed : place id depth) {header : Loop}
    {body : Nat → Recorded (List Html.Node)}
    (restores : ∀ slot, Restores place (depth + 1) (body slot)) (items : List Json) (index : Nat) :
    Restores place depth (iterateRecorded id header slot body index items) := by
  induction items generalizing index with
  | nil => exact pure []
  | cons item items ih =>
      exact (withScope restores).bind fun before => (mark placed).bind fun _ =>
        (ih (index + 1)).bind fun after => pure (before ++ after)

theorem loop {id slot : Nat} (placed : place id depth) {position : Position} {header : Loop}
    {body? : Option (Nat → Recorded (List Html.Node))}
    (restores : ∀ body, body? = some body → ∀ slot, Restores place (depth + 1) (body slot)) :
    Restores place depth (loopRecorded id position header slot body?) := by
  cases body? with
  | none => exact throw _
  | some body =>
      exact (unrecorded (.loopItems position header slot)).bind fun items =>
        iterate placed (restores body rfl) items 0

end Restores

section Nodes

variable {place : Nat → Nat → Prop}

mutual

theorem nodeRecorded_restores (inStyle : Bool) : (node : Node) → {depth : Nat} →
    node.IsPlaced place depth → (slot : Nat) →
    Restores place depth (nodeRecorded inStyle node slot)
  | .node id kind position children, depth, placed, slot => by
      obtain ⟨atPlace, below⟩ := placed
      have leaf (keeps : Keeps (node inStyle (.node id kind position children) slot)) :
          Restores place depth
            (during id (unrecorded (node inStyle (.node id kind position children) slot))) :=
        (Restores.unrecorded keeps).during atPlace
      cases kind with
      | block => exact (nodesRecorded_restores false children below slot).during atPlace
      | element tag =>
          exact ((nodesRecorded_restores _ children below slot).bind fun content =>
            .pure _).during atPlace
      | loop header =>
          exact (Restores.loop atPlace (firstBlockRecorded_restores children below)).during atPlace
      | interpolation expression =>
          exact leaf ((Keeps.interpolate position slot expression).bind fun text => .pure _)
      | text content | comment content | script code | document head => exact leaf fun _ => rfl

theorem nodesRecorded_restores (inStyle : Bool) : (nodes : List Node) → {depth : Nat} →
    Node.AllPlaced place depth nodes → (slot : Nat) →
    Restores place depth (nodesRecorded inStyle nodes slot)
  | [], _, _, _ => .pure []
  | first :: others, _, placed, slot =>
      (nodeRecorded_restores inStyle first placed.1 slot).bind fun before =>
        (nodesRecorded_restores inStyle others placed.2 slot).bind fun after =>
          .pure (before ++ after)

theorem firstBlockRecorded_restores : (nodes : List Node) → {depth : Nat} →
    Node.AllPlaced place depth nodes → ∀ body, firstBlockRecorded nodes = some body →
    ∀ slot, Restores place depth (body slot)
  | .node id kind position children :: others, depth, placed, body, found, slot => by
      rw [firstBlockRecorded] at found
      split at found
      · next isBlock =>
          cases found
          obtain rfl := eq_block_of_isBlock isBlock
          exact (nodesRecorded_restores false children placed.1.2 slot).during placed.1.1
      · exact firstBlockRecorded_restores others placed.2 body found slot

end

end Nodes

end Eval

namespace Arena

open Relation

variable {arena : Arena}

/-- The loops of the document that are above a node. -/
def loopsAround (arena : Arena) (id : Nat) : Set Nat :=
  {above | above ∈ arena.ancestorsWithin 0 id ∧ (arena.entry above).kind.isLoop = true}

section Loops

theorem WellFormed.isChild_eq (wellFormed : arena.WellFormed) :
    arena.IsChild = arena.HasParent := by
  funext child parent
  exact propext (wellFormed.linked child parent).symm

theorem finite_loopsAround (wellFormed : arena.WellFormed) (id : Nat) :
    (arena.loopsAround id).Finite := by
  refine (Set.finite_lt_nat arena.size).subset fun above member => ?_
  obtain ⟨between, -, link⟩ := TransGen.tail'_iff.1 member.1.1
  exact ((wellFormed.linked between above).1 link).parent_lt

theorem loopsAround_root (wellFormed : arena.WellFormed) : arena.loopsAround 0 = ∅ := by
  apply Set.eq_empty_iff_forall_notMem.2
  rintro above ⟨⟨isAbove, within⟩, -⟩
  have cycle : TransGen arena.HasParent 0 0 := isAbove.trans_left within
  rw [← wellFormed.isChild_eq] at cycle
  exact wellFormed.acyclic 0 cycle

theorem mem_loopsAround_child {child parent above : Nat}
    (hasParent : arena.HasParent child parent) (within : ReflTransGen arena.HasParent parent 0) :
    above ∈ arena.loopsAround child ↔
      (above = parent ∧ (arena.entry parent).kind.isLoop = true) ∨
        above ∈ arena.loopsAround parent := by
  constructor
  · rintro ⟨⟨isAbove, aboveWithin⟩, isLoop⟩
    obtain ⟨next, link, climbs⟩ := TransGen.head'_iff.1 isAbove
    obtain rfl : next = parent := arena.hasParent_rightUnique link hasParent
    rcases reflTransGen_iff_eq_or_transGen.1 climbs with rfl | further
    · exact .inl ⟨rfl, isLoop⟩
    · exact .inr ⟨⟨further, aboveWithin⟩, isLoop⟩
  · rintro (⟨rfl, isLoop⟩ | ⟨⟨isAbove, aboveWithin⟩, isLoop⟩)
    · exact ⟨⟨.single hasParent, within⟩, isLoop⟩
    · exact ⟨⟨.head hasParent isAbove, aboveWithin⟩, isLoop⟩

/-- A node has one loop more around it than its parent if that is a loop, and
else as many. -/
theorem ncard_loopsAround_child (wellFormed : arena.WellFormed) {child parent : Nat}
    (hasParent : arena.HasParent child parent) (within : ReflTransGen arena.HasParent parent 0) :
    (arena.loopsAround child).ncard =
      (arena.entry parent).kind.loopsBelow (arena.loopsAround parent).ncard := by
  rw [NodeKind.loopsBelow]
  by_cases isLoop : (arena.entry parent).kind.isLoop = true
  · have grows : arena.loopsAround child = insert parent (arena.loopsAround parent) := by
      ext above
      simp [mem_loopsAround_child hasParent within, isLoop]
    have fresh : parent ∉ arena.loopsAround parent := by
      intro member
      have cycle : TransGen arena.HasParent parent parent := member.1.1
      rw [← wellFormed.isChild_eq] at cycle
      exact wellFormed.acyclic parent cycle
    rw [if_pos isLoop, grows,
      Set.ncard_insert_of_notMem fresh (finite_loopsAround wellFormed parent)]
  · have same : arena.loopsAround child = arena.loopsAround parent := by
      ext above
      simp [mem_loopsAround_child hasParent within, isLoop]
    rw [if_neg isLoop, same]

/-- The number of a node of the document with the number of loops around it. -/
def Place (arena : Arena) (id depth : Nat) : Prop :=
  ReflTransGen arena.HasParent id 0 ∧ (arena.loopsAround id).ncard = depth

theorem isPlaced_tree (wellFormed : arena.WellFormed) (id : Nat)
    (within : ReflTransGen arena.HasParent id 0) :
    (arena.tree id).IsPlaced arena.Place (arena.loopsAround id).ncard := by
  induction id using (wellFounded_isChild wellFormed.acyclic).induction with
  | _ id ih =>
      rw [tree_eq wellFormed.acyclic id]
      refine ⟨⟨within, rfl⟩, Node.allPlaced_iff.2 fun node member => ?_⟩
      obtain ⟨child, isChild, rfl⟩ := List.mem_map.1 member
      have hasParent : arena.HasParent child id := (wellFormed.linked child id).2 isChild
      rw [← ncard_loopsAround_child wellFormed hasParent within]
      exact ih child isChild (.head hasParent within)

end Loops

/-- The recorded evaluation of the tree of an arena. -/
def evaluateRecorded (arena : Arena) : Eval.Recorded Html.Document :=
  match arena.tree 0 with
  | .node id (.document head) _ children => Eval.documentRecorded id head children
  | .node id _ _ children => Eval.documentRecorded id ⟨"", []⟩ children

/-- The moments of an evaluation that begins with some scopes. -/
def moments (arena : Arena) (context : Context) : List Eval.Moment :=
  (endState (arena.evaluateRecorded ⟨context, []⟩)).moments

theorem evaluateRecorded_records (arena : Arena) :
    Eval.Records arena.evaluateRecorded arena.evaluate := by
  have document : ∀ id head children, Eval.Records (Eval.documentRecorded id head children)
      (Eval.document head children) := fun id head children =>
    ((Eval.nodesRecorded_records false children 0).bind fun content => .pure _).during id
  rw [evaluateRecorded, evaluate]
  obtain ⟨id, kind, position, children⟩ := arena.tree 0
  cases kind <;> exact document _ _ _

theorem evaluateRecorded_restores (wellFormed : arena.WellFormed) :
    Eval.Restores arena.Place 0 arena.evaluateRecorded := by
  obtain ⟨head, rootKind⟩ := wellFormed.root
  have placed := isPlaced_tree wellFormed 0 .refl
  rw [loopsAround_root wellFormed, Set.ncard_empty] at placed
  rw [evaluateRecorded]
  rw [tree_eq wellFormed.acyclic 0, rootKind] at placed ⊢
  exact ((Eval.nodesRecorded_restores false _ placed.2 0).bind fun content =>
    .pure _).during placed.1

/-- An evaluation leaves the scopes as they were, whatever its outcome.  At every
moment there are as many scopes on top of them as there are loops around the node
that is evaluated. -/
theorem evaluate_restores (wellFormed : arena.WellFormed) {context : Context}
    (nonempty : 0 < context.depth) :
    endState (arena.evaluate context) = context ∧
      Eval.forget (arena.evaluateRecorded ⟨context, []⟩) = arena.evaluate context ∧
      ∀ moment ∈ arena.moments context,
        context.scopes <+: moment.context.scopes ∧
          moment.context.depth = context.depth + (arena.loopsAround moment.node).ncard ∧
          (arena.parent? 0 = none → arena.loopsAround moment.node =
            {above ∈ arena.ancestors moment.node | (arena.entry above).kind.isLoop = true}) := by
  have records := arena.evaluateRecorded_records ⟨context, []⟩
  obtain ⟨contextEq, moments, momentsEq, stand⟩ :=
    evaluateRecorded_restores wellFormed ⟨context, []⟩ nonempty
  refine ⟨?_, records, fun moment member => ?_⟩
  · rw [← records, Eval.endState_forget, contextEq]
  · rw [Arena.moments, momentsEq, List.append_nil] at member
    obtain ⟨added, scopesEq, within, placed⟩ := stand moment member
    refine ⟨⟨added, scopesEq.symm⟩, ?_, fun noParent => ?_⟩
    · rw [placed, Context.depth, scopesEq, List.length_append, Context.depth, Nat.zero_add]
    · rw [loopsAround, ancestorsWithin_eq_ancestors noParent within]

/-- The second interpolation of a round fails, with a scope of the caller above the
root. -/
theorem evaluate_restores_failingRound :
    let table := Json.object [("rows", .array [.null])]
    let context := ((Context.ofBindings [("table", table)]).child 0 [("x", .null)]).1
    endState (shadowingLoop.evaluate context) = context ∧
      (outcome (shadowingLoop.evaluate context)).isOk = false ∧
      (shadowingLoop.moments context).reverse.map
          (fun moment => (moment.node, moment.context.depth)) =
        [(0, 2), (1, 2), (2, 3), (3, 3), (3, 3), (4, 3), (4, 3), (2, 3), (1, 2), (0, 2)] := by
  intro table context
  have nonempty : 0 < context.depth := by decide
  exact ⟨(evaluate_restores wellFormed_shadowingLoop nonempty).1, rfl, rfl⟩

end Arena

end TemplateCompiler
