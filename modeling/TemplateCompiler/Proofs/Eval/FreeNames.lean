import TemplateCompiler.Proofs.Eval.Refinement
import TemplateCompiler.Proofs.Parse.Loops

/-!
# Free variables

An interpolation looks up the first name of its path, and so does the collection
of a loop.  The body of a loop binds two names, the item and the index.  What is
left after taking these away, from the inside out, are the free variables of a
template, and its expansion depends on no others.  So data may differ anywhere
else, also in a variable that some loop hides, and the outcome is the same.
-/

namespace TemplateCompiler

namespace NodeKind

/-- The variables that a node looks up itself. -/
def lookedUp : NodeKind → List String
  | .interpolation (.path path) => [path.root]
  | .loop header => [header.collection.root]
  | _ => []

/-- The variables that a node binds for the nodes below it. -/
def bound : NodeKind → List String
  | .loop header => [header.item, Loop.indexName]
  | _ => []

end NodeKind

namespace Node

mutual

/-- The variables that occur free in a node or below it. -/
def freeNames : Node → List String
  | .node _ kind _ children => kind.lookedUp ++ (freeNamesOf children).removeAll kind.bound

def freeNamesOf : List Node → List String
  | [] => []
  | first :: others => freeNames first ++ freeNamesOf others

end

end Node

/-- The variables that occur free in a template. -/
def Template.freeNames (template : Template) : List String :=
  Node.freeNamesOf template.children

namespace Environment

/-- Whether two environments give the same values to some variables. -/
def AgreeOn (names : List String) (first second : Environment) : Prop :=
  ∀ name ∈ names, first name = second name

variable {names others : List String} {first second : Environment}

theorem agreeOn_append :
    AgreeOn (names ++ others) first second ↔
      AgreeOn names first second ∧ AgreeOn others first second :=
  List.forall_mem_append

end Environment

namespace Eval

open Environment

variable {first second : Environment} {position : Position}

theorem valueIn_congr {path : Path} (agree : first path.root = second path.root) :
    valueIn first position path = valueIn second position path := by
  simp only [valueIn, follow?, agree]

theorem shownIn_congr {expression : Expr}
    (agree : AgreeOn (NodeKind.interpolation expression).lookedUp first second) :
    shownIn first position expression = shownIn second position expression := by
  cases expression with
  | path path =>
      have same : first path.root = second path.root := agree path.root List.mem_cons_self
      simp only [shownIn, valueIn_congr same]
  | string value | number value | boolean value => rfl

theorem itemsIn_congr {header : Loop}
    (agree : AgreeOn (NodeKind.loop header).lookedUp first second) :
    itemsIn first position header = itemsIn second position header := by
  have same : first header.collection.root = second header.collection.root :=
    agree header.collection.root List.mem_cons_self
  simp only [itemsIn, valueIn_congr same]

/-- In a round of a loop the environments also agree on what the loop binds. -/
theorem roundIn_agreeOn {header : Loop} (indexed : header.index = Loop.indexName)
    {names : List String}
    (agree : AgreeOn (names.removeAll (NodeKind.loop header).bound) first second) (item : Json)
    (index : Nat) :
    AgreeOn names (roundIn first header item index) (roundIn second header item index) := by
  intro name member
  simp only [roundIn, Environment.bind]
  by_cases isIndex : name = header.index
  · rw [if_pos isIndex, if_pos isIndex]
  · by_cases isItem : name = header.item
    · simp only [if_neg isIndex, if_pos isItem]
    · have remains : name ∈ names.removeAll (NodeKind.loop header).bound := by
        rw [indexed] at isIndex
        simp [List.removeAll, NodeKind.bound, member, isItem, isIndex]
      simp only [if_neg isIndex, if_neg isItem, agree name remains]

theorem roundsIn_congr {header : Loop} {body : Environment → Expansion}
    (same : ∀ item index,
      body (roundIn first header item index) = body (roundIn second header item index))
    (items : List Json) (index : Nat) :
    roundsIn first header body index items = roundsIn second header body index items := by
  induction items generalizing index with
  | nil => rfl
  | cons item items ih => simp only [roundsIn, same, ih]

mutual

/-- Environments that agree on the free variables of a node give it the same
expansion. -/
theorem expansion_congr (inStyle : Bool) : (node : Node) → {first second : Environment} →
    node.IsIndexed → AgreeOn node.freeNames first second →
    expansion inStyle node first = expansion inStyle node second
  | .node _ kind position children, first, second, indexed, agree => by
      obtain ⟨lookedUp, below⟩ := agreeOn_append.1 agree
      obtain ⟨isIndexed, childrenIndexed⟩ := indexed
      have content (inStyle : Bool) (unbound : kind.bound = []) :
          expansions inStyle children first = expansions inStyle children second := by
        apply expansions_congr inStyle children childrenIndexed
        simpa [unbound, List.removeAll] using below
      cases kind with
      | block => exact content false rfl
      | element tag => simp only [expansion, kindIn, content _ rfl]
      | interpolation expression => simp only [expansion, kindIn, shownIn_congr lookedUp]
      | loop header =>
          have bodyCongr := bodyExpansion?_congr children childrenIndexed
          simp only [expansion, kindIn]
          cases found : bodyExpansion? children with
          | none => rfl
          | some body =>
              have rounds := roundsIn_congr fun item index =>
                bodyCongr body found (roundIn_agreeOn isIndexed below item index)
              simp only [itemsIn_congr lookedUp, rounds]
      | text content | comment content | script code | document head => rfl

theorem expansions_congr (inStyle : Bool) : (nodes : List Node) →
    {first second : Environment} → Node.AllIndexed nodes →
    AgreeOn (Node.freeNamesOf nodes) first second →
    expansions inStyle nodes first = expansions inStyle nodes second
  | [], _, _, _, _ => rfl
  | head :: tail, _, _, indexed, agree => by
      obtain ⟨headAgree, tailAgree⟩ := agreeOn_append.1 agree
      simp only [expansions, expansion_congr inStyle head indexed.1 headAgree,
        expansions_congr inStyle tail indexed.2 tailAgree]

/-- The block that is the body of a loop is one of its children, so its free
variables are among theirs. -/
theorem bodyExpansion?_congr : (nodes : List Node) → Node.AllIndexed nodes →
    ∀ body, bodyExpansion? nodes = some body → ∀ {first second : Environment},
      AgreeOn (Node.freeNamesOf nodes) first second → body first = body second
  | .node id kind position children :: tail, indexed, body, found, first, second, agree => by
      obtain ⟨headAgree, tailAgree⟩ := agreeOn_append.1 agree
      rw [bodyExpansion?_cons] at found
      split at found
      · next isBlock =>
          cases found
          obtain rfl := eq_block_of_isBlock isBlock
          apply expansions_congr false children indexed.1.2
          simpa [Node.freeNames, NodeKind.lookedUp, NodeKind.bound, List.removeAll] using headAgree
      · exact bodyExpansion?_congr tail indexed.2 body found tailAgree

end

end Eval

namespace Template

/-- What a parsed template evaluates to depends only on its free variables. -/
theorem evaluate_congr_of_parse {text : String} {template : Template}
    (parsed : Template.parse text = .ok template) {first second : Json}
    (agree : ∀ name ∈ template.freeNames,
      Environment.ofData first name = Environment.ofData second name) :
    template.evaluate first = template.evaluate second := by
  have indexed := Parser.allIndexed_of_parse parsed
  rw [evaluate_eq, evaluate_eq, expansion, expansion,
    Eval.expansions_congr false template.children indexed agree]

/-- A loop over `rows` that shows its item, its index and the variable `y`. -/
def hiddenName : String :=
  "@for (x of rows) \x7b \x7b\x7bx\x7d\x7d \x7b\x7b$index\x7d\x7d \x7b\x7by\x7d\x7d \x7d"

/-- The data may differ in a variable that the loop hides. -/
theorem evaluate_congr_of_parse_hiddenName :
    ∃ template, Template.parse hiddenName = .ok template ∧ template.freeNames = ["rows", "y"] ∧
      ∀ rows y x : Json,
        template.evaluate (.object [("rows", rows), ("x", x), ("y", y)]) =
          template.evaluate (.object [("$index", x), ("rows", rows), ("y", y)]) := by
  have names : (Template.parse hiddenName).toOption.map freeNames = some ["rows", "y"] := by
    decide +kernel
  cases parsed : Template.parse hiddenName with
  | error error =>
      rw [parsed] at names
      contradiction
  | ok template =>
      rw [parsed] at names
      have freeEq : template.freeNames = ["rows", "y"] := Option.some.inj names
      refine ⟨template, rfl, freeEq, fun rows y x => evaluate_congr_of_parse parsed ?_⟩
      simp only [freeEq, List.forall_mem_cons]
      exact ⟨rfl, rfl, nofun⟩

end Template

end TemplateCompiler
