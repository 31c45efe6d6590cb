import TemplateCompiler.Proofs.Eval.Refinement
import TemplateCompiler.Proofs.Template.ArenaTree

/-!
# Evaluating arenas

In an arena a node is a number, and its place is known from its links.  What
the numbers expand to in an environment is given here by one equation, which
reads the entries of the arena and knows neither scopes nor trees.  In a well
formed arena the equation has exactly one solution, and the evaluator computes
it.
-/

namespace TemplateCompiler

namespace Arena

open Relation

/-- What belongs to the document at the root. -/
def document (arena : Arena) : Document :=
  match (arena.entry 0).kind with
  | .document head => head
  | _ => ⟨"", []⟩

/-- Whether a node lies directly in a style element. -/
def inStyle (arena : Arena) (id : Nat) : Bool :=
  (arena.parent? id).any fun parent => Eval.opensStyle (arena.entry parent).kind

/-- The first child of a node that is a block. -/
def body? (arena : Arena) (id : Nat) : Option Nat :=
  (arena.children id).find? fun child => (arena.entry child).kind = .block

/-- What the children of a node expand to in order, given what each number
expands to. -/
def content (arena : Arena) (meaning : Nat → Environment → Eval.Expansion) (id : Nat)
    (environment : Environment) : Eval.Expansion := do
  let parts ← (arena.children id).mapM (meaning · environment)
  return parts.flatten

/-- What numbers expand to, as an equation: every node expands as its kind says,
from the content of itself and of its loop body. -/
def IsExpansion (arena : Arena) (meaning : Nat → Environment → Eval.Expansion) : Prop :=
  ∀ id environment,
    meaning id environment =
      Eval.kindIn (arena.entry id).position (arena.inStyle id) (arena.content meaning id)
        ((arena.body? id).map (arena.content meaning)) environment (arena.entry id).kind

variable {arena : Arena}

theorem mapM_congr {ids : List Nat} {first second : Nat → Eval.Expansion}
    (same : ∀ id ∈ ids, first id = second id) : ids.mapM first = ids.mapM second := by
  induction ids with
  | nil => rfl
  | cons id ids ih =>
      rw [List.mapM_cons, List.mapM_cons, same id List.mem_cons_self,
        ih fun other member => same other (List.mem_cons_of_mem id member)]

theorem expansions_map (inStyle : Bool) (tree : Nat → Node) (ids : List Nat)
    (environment : Environment) :
    Eval.expansions inStyle (ids.map tree) environment = (do
      let parts ← ids.mapM fun id => Eval.expansion inStyle (tree id) environment
      return parts.flatten) := by
  induction ids with
  | nil => rfl
  | cons id ids ih =>
      rw [List.map_cons, Eval.expansions, ih]
      simp

/-- What the trees at all nodes expand to. -/
def treeExpansion (arena : Arena) (id : Nat) : Environment → Eval.Expansion :=
  Eval.expansion (arena.inStyle id) (arena.tree id)

theorem expansions_children (wellFormed : arena.WellFormed) (id : Nat)
    (environment : Environment) :
    Eval.expansions (Eval.opensStyle (arena.entry id).kind) ((arena.children id).map arena.tree)
        environment =
      arena.content arena.treeExpansion id environment := by
  have flagged : ∀ child ∈ arena.children id,
      arena.inStyle child = Eval.opensStyle (arena.entry id).kind := by
    intro child member
    simp [inStyle, (wellFormed.linked child id).2 member]
  rw [expansions_map, content]
  congr 1
  apply mapM_congr
  intro child member
  rw [treeExpansion, flagged child member]

theorem bodyExpansion?_map (wellFormed : arena.WellFormed) (ids : List Nat) :
    Eval.bodyExpansion? (ids.map arena.tree) =
      (ids.find? fun child => (arena.entry child).kind = .block).map
        (arena.content arena.treeExpansion) := by
  induction ids with
  | nil => rfl
  | cons id ids ih =>
      rw [List.map_cons, tree_eq wellFormed.acyclic id, Eval.bodyExpansion?, ih, List.find?_cons]
      cases kindEq : (arena.entry id).kind with
      | block =>
          have content := funext (expansions_children wellFormed id)
          rw [kindEq] at content
          exact congrArg some content
      | _ => rfl

theorem isExpansion_treeExpansion (wellFormed : arena.WellFormed) :
    arena.IsExpansion arena.treeExpansion := by
  intro id environment
  rw [treeExpansion, tree_eq wellFormed.acyclic id, Eval.expansion,
    funext (expansions_children wellFormed id), bodyExpansion?_map wellFormed,
    body?]

/-- The equation determines what every number expands to. -/
theorem isExpansion_unique (wellFormed : arena.WellFormed)
    {first second : Nat → Environment → Eval.Expansion} (firstSolves : arena.IsExpansion first)
    (secondSolves : arena.IsExpansion second) : first = second := by
  funext id
  induction id using (wellFounded_isChild wellFormed.acyclic).transGen.induction with
  | _ id ih =>
      have contentEq : ∀ below, ReflTransGen arena.IsChild below id →
          arena.content first below = arena.content second below := by
        intro below descends
        funext environment
        rw [content, content]
        congr 1
        apply mapM_congr
        intro child member
        rw [ih child (TransGen.head' member descends)]
      funext environment
      rw [firstSolves, secondSolves, contentEq id .refl]
      congr 1
      cases found : arena.body? id with
      | none => rfl
      | some body =>
          have isChild : arena.IsChild body id := List.mem_of_find?_eq_some found
          simp only [Option.map_some]
          rw [contentEq body (.single isChild)]

/-- The evaluation of a template gives what it expands to in the environment of
the data.  In a well formed arena the equation of expansions has exactly one
solution, and the evaluation gives what the children of the root expand to in
the environment of the data, or the error they expand to, and leaves the scopes
as they were. -/
theorem evaluate_eq_expansion :
    (∀ (template : Template) (data : Json),
      template.evaluate data = template.expansion (.ofData data)) ∧
    ∀ arena : Arena, arena.WellFormed →
      (∃! meaning, arena.IsExpansion meaning) ∧
      ∀ meaning, arena.IsExpansion meaning → ∀ data,
        arena.evaluate (.ofData data) =
          match arena.content meaning 0 (.ofData data) with
          | .ok children => .ok ⟨arena.document.declaredType?, children⟩ (.ofData data)
          | .error error => .error error (.ofData data) := by
  refine ⟨fun template data => ?_, fun arena wellFormed =>
    ⟨⟨arena.treeExpansion, isExpansion_treeExpansion wellFormed, fun other solves =>
      isExpansion_unique wellFormed solves (isExpansion_treeExpansion wellFormed)⟩, ?_⟩⟩
  · exact template.evaluate_eq data
  · intro meaning solves data
    rw [isExpansion_unique wellFormed solves (isExpansion_treeExpansion wellFormed)]
    obtain ⟨head, rootKind⟩ := wellFormed.root
    have computed := Eval.document_computes head ((arena.children 0).map arena.tree)
      (Eval.sees_ofData data)
    have contentEq := expansions_children wellFormed 0 (.ofData data)
    rw [rootKind] at contentEq
    rw [show Eval.expansions false _ _ = _ from contentEq] at computed
    have evaluateEq : arena.evaluate =
        Eval.document head ((arena.children 0).map arena.tree) := by
      rw [evaluate, tree_eq wellFormed.acyclic 0, rootKind]
    rw [evaluateEq, computed, document, rootKind]
    cases arena.content arena.treeExpansion 0 (.ofData data) <;> rfl

/-- A loop over `table.rows` that shows its item and its index, both named `x`, and the second
of the words of `y`. -/
def shadowingLoop : Arena :=
  ⟨#[⟨.document ⟨"", []⟩, .start, none, [1]⟩,
    ⟨.loop ⟨"x", "of", ⟨"table", ["rows"]⟩, "x"⟩, .start, some 0, [2]⟩,
    ⟨.block, .start, some 1, [3, 4]⟩,
    ⟨.interpolation (.path ⟨"x", []⟩), .start, some 2, []⟩,
    ⟨.interpolation (.path ⟨"y", ["words", "1"]⟩), .start, some 2, []⟩]⟩

theorem wellFormed_shadowingLoop : shadowingLoop.WellFormed where
  root := ⟨_, rfl⟩
  linked := by
    have up : ∀ child < 5, ∀ parent ∈ shadowingLoop.parent? child,
        child ∈ shadowingLoop.children parent := by decide
    have down : ∀ parent < 5, ∀ child ∈ shadowingLoop.children parent,
        shadowingLoop.parent? child = some parent := by decide
    refine fun child parent => ⟨fun linked => ?_, fun isChild => ?_⟩
    · rcases Nat.lt_or_ge child 5 with inside | outside
      · exact up child inside parent linked
      · simp [parent?, get?, shadowingLoop, outside] at linked
    · exact down parent isChild.parent_lt child isChild
  acyclic := by
    have later : ∀ parent < 5, ∀ child ∈ shadowingLoop.children parent, parent < child := by
      decide
    have descends : ∀ {below above}, TransGen shadowingLoop.IsChild below above →
        above < below := by
      intro below above path
      induction path with
      | single isChild => exact later _ isChild.parent_lt _ isChild
      | tail _ isChild ih => exact (later _ isChild.parent_lt _ isChild).trans ih
    exact fun id cycle => Nat.lt_irrefl id (descends cycle)

/-- Rows for the loop, and words. -/
def rowsAndWords (words : List Json) : Json :=
  .object [("table", .object [("rows", .array [.bool true, .null])]),
    ("y", .object [("words", .array words)])]

/-- The index hides the item, and the other variable is seen through the loop.  Where it has no
second word, the path to that is reported. -/
theorem content_shadowingLoop :
    shadowingLoop.WellFormed ∧
      ∃ meaning, shadowingLoop.IsExpansion meaning ∧
        shadowingLoop.content meaning 0 (.ofData (rowsAndWords [.null, .string "!"])) =
          .ok [.text "0" false, .text "!" false, .text "1" false, .text "!" false] ∧
        shadowingLoop.content meaning 0 (.ofData (rowsAndWords [.null])) =
          .error ⟨.undefinedVariable "y.words.1", .start⟩ := by
  obtain ⟨⟨meaning, solves, -⟩, evaluates⟩ :=
    evaluate_eq_expansion.2 shadowingLoop wellFormed_shadowingLoop
  refine ⟨wellFormed_shadowingLoop, meaning, solves, ?_, ?_⟩
  · have evaluated := evaluates meaning solves (rowsAndWords [.null, .string "!"])
    have computed : shadowingLoop.evaluate (.ofData (rowsAndWords [.null, .string "!"])) =
        .ok ⟨none, [.text "0" false, .text "!" false, .text "1" false, .text "!" false]⟩
          (.ofData (rowsAndWords [.null, .string "!"])) := by
      rfl
    rw [computed] at evaluated
    split at evaluated
    · next children content => simp_all
    · contradiction
  · have evaluated := evaluates meaning solves (rowsAndWords [.null])
    have computed : shadowingLoop.evaluate (.ofData (rowsAndWords [.null])) =
        .error ⟨.undefinedVariable "y.words.1", .start⟩ (.ofData (rowsAndWords [.null])) := by
      rfl
    rw [computed] at evaluated
    split at evaluated
    · contradiction
    · next error content => simp_all

end Arena

end TemplateCompiler
