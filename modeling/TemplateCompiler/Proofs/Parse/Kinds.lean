import TemplateCompiler.Proofs.Parse.Shape

/-!
# What the parser reads into nodes

Some of what a node holds is the same in every template or is limited by what the
lexer finds.  Every loop keeps the position of an item in the one variable for it, the
names in start tags are read as names, and a path is written where the node that holds
it stands.  What every step of parsing keeps up holds at whatever depth a node is.
-/

namespace TemplateCompiler

/-- Whether a node below the document may be of a kind as far as the parser chooses what it
holds: the index of a loop and the names in a start tag. -/
def NodeKind.IsRead : NodeKind → Prop
  | .document _ => False
  | .loop header => header.index = Loop.indexName
  | .element tag => tag.IsNamed
  | _ => True

theorem NodeKind.isRead_of_isChildless {kind : NodeKind} (childless : kind.IsChildless)
    (named : kind.IsNamed) : kind.IsRead := by
  cases kind with
  | document head => exact childless.elim
  | loop header => exact childless.elim
  | element tag => exact named
  | _ => trivial

namespace Node

mutual

/-- Whether the kinds of a node and of all nodes below it have a property. -/
def Holds (property : NodeKind → Prop) : Node → Prop
  | .node _ kind _ children => property kind ∧ AllHold property children

def AllHold (property : NodeKind → Prop) : List Node → Prop
  | [] => True
  | first :: others => Holds property first ∧ AllHold property others

end

section Decidability

variable {property : NodeKind → Prop} [DecidablePred property]

mutual

instance decidableHolds : (node : Node) → Decidable (node.Holds property)
  | .node _ kind _ children =>
      have := decidableAllHold children
      inferInstanceAs (Decidable (property kind ∧ AllHold property children))

instance decidableAllHold : (nodes : List Node) → Decidable (AllHold property nodes)
  | [] => inferInstanceAs (Decidable True)
  | first :: others =>
      have := decidableHolds first
      have := decidableAllHold others
      inferInstanceAs (Decidable (Holds property first ∧ AllHold property others))

end

end Decidability

mutual

/-- Whether the kinds of a node and of all nodes below it have a property at their
positions. -/
def HoldsAt (property : NodeKind → Position → Prop) : Node → Prop
  | .node _ kind position children => property kind position ∧ AllHoldAt property children

def AllHoldAt (property : NodeKind → Position → Prop) : List Node → Prop
  | [] => True
  | first :: others => HoldsAt property first ∧ AllHoldAt property others

end

theorem allHold_iff {property : NodeKind → Prop} {nodes : List Node} :
    AllHold property nodes ↔ ∀ node ∈ nodes, node.Holds property := by
  induction nodes with
  | nil => simp [AllHold]
  | cons first others ih => simp [AllHold, ih]

variable {property other : NodeKind → Position → Prop}

theorem allHoldAt_iff {nodes : List Node} :
    AllHoldAt property nodes ↔ ∀ node ∈ nodes, node.HoldsAt property := by
  induction nodes with
  | nil => simp [AllHoldAt]
  | cons first others ih => simp [AllHoldAt, ih]

theorem AllHoldAt.reverse {nodes : List Node} (hold : AllHoldAt property nodes) :
    AllHoldAt property nodes.reverse := by
  rw [allHoldAt_iff] at hold ⊢
  exact fun node member => hold node (List.mem_reverse.1 member)

mutual

theorem HoldsAt.mono (implies : ∀ kind position, property kind position → other kind position) :
    (node : Node) → node.HoldsAt property → node.HoldsAt other
  | .node _ _ _ children, holds =>
      ⟨implies _ _ holds.1, AllHoldAt.mono implies children holds.2⟩

theorem AllHoldAt.mono
    (implies : ∀ kind position, property kind position → other kind position) :
    (nodes : List Node) → AllHoldAt property nodes → AllHoldAt other nodes
  | [], _ => trivial
  | first :: others, hold =>
      ⟨HoldsAt.mono implies first hold.1, AllHoldAt.mono implies others hold.2⟩

end

mutual

/-- A property that does not mention positions. -/
theorem HoldsAt.holds {property : NodeKind → Prop} :
    (node : Node) → node.HoldsAt (fun kind _ => property kind) → node.Holds property
  | .node _ _ _ children, holds => ⟨holds.1, AllHoldAt.allHold children holds.2⟩

theorem AllHoldAt.allHold {property : NodeKind → Prop} :
    (nodes : List Node) → AllHoldAt (fun kind _ => property kind) nodes → AllHold property nodes
  | [], _ => trivial
  | first :: others, hold => ⟨HoldsAt.holds first hold.1, AllHoldAt.allHold others hold.2⟩

end

end Node

namespace Parse

open Node

/-- What the parser reads into a node of a kind that stands at a position. -/
def IsReadFrom (source : List Char) (kind : NodeKind) (position : Position) : Prop :=
  kind.IsRead ∧ kind.PathStands source position

/-- Whether the kinds of all nodes that were read, closed or not, are as the parser
reads them. -/
structure State.AllRead (source : List Char) (state : State) : Prop where
  enclosing : ∀ construct ∈ state.enclosing,
    IsReadFrom source construct.kind construct.position ∧
      AllHoldAt (IsReadFrom source) construct.children
  top : AllHoldAt (IsReadFrom source) state.top

variable {source : List Char}

namespace State.AllRead

variable {state : State} {kind : NodeKind} {position : Position}

theorem add {node : Node} (known : state.AllRead source)
    (read : node.HoldsAt (IsReadFrom source)) : (state.add node).AllRead source := by
  obtain ⟨lexer, document, enclosing, top, dropped, size⟩ := state
  cases enclosing with
  | nil => exact ⟨nofun, read, known.top⟩
  | cons construct outer =>
      obtain ⟨innermost, others⟩ := List.forall_mem_cons.1 known.enclosing
      exact ⟨List.forall_mem_cons.2 ⟨⟨innermost.1, read, innermost.2⟩, others⟩, known.top⟩

theorem addLeaf (known : state.AllRead source) (read : IsReadFrom source kind position) :
    (state.addLeaf kind position).AllRead source := by
  have larger : State.AllRead source { state with size := state.size + 1 } :=
    ⟨known.enclosing, known.top⟩
  exact larger.add ⟨read, trivial⟩

theorem openNode (known : state.AllRead source) (read : IsReadFrom source kind position) :
    (state.openNode kind position).AllRead source :=
  ⟨List.forall_mem_cons.2 ⟨⟨read, trivial⟩, known.enclosing⟩, known.top⟩

theorem closeNode (known : state.AllRead source) : state.closeNode.AllRead source := by
  obtain ⟨lexer, document, enclosing, top, dropped, size⟩ := state
  cases enclosing with
  | nil => exact known
  | cons construct outer =>
      obtain ⟨innermost, others⟩ := List.forall_mem_cons.1 known.enclosing
      have outside : State.AllRead source ⟨lexer, document, outer, top, dropped, size⟩ :=
        ⟨others, known.top⟩
      exact outside.add ⟨innermost.1, innermost.2.reverse⟩

theorem closeBlock (known : state.AllRead source) : state.closeBlock.AllRead source := by
  unfold State.closeBlock
  split
  · exact known.closeNode.closeNode
  · exact known.closeNode

theorem addCode {code : String} (known : state.AllRead source) :
    (state.addCode code position).AllRead source := by
  unfold State.addCode
  split
  · next enclosingEq =>
      have enclosing := known.enclosing
      rw [enclosingEq] at enclosing
      obtain ⟨⟨read, first, others⟩, outer⟩ := List.forall_mem_cons.1 enclosing
      exact ⟨List.forall_mem_cons.2 ⟨⟨read, ⟨⟨trivial, nofun⟩, first.2⟩, others⟩, outer⟩,
        known.top⟩
  · exact known.addLeaf ⟨trivial, nofun⟩

end State.AllRead

theorem Step.allRead {before after : State} {read : List Char} (step : Step before after)
    (hasRead : before.cursor.HasRead source read) (known : before.AllRead source) :
    after.AllRead source := by
  have moved : ∀ {piece : List Char}, (before.after piece).AllRead source :=
    ⟨known.enclosing, known.top⟩
  have readFrom : ∀ {kind : NodeKind} {piece : List Char}, piece <+: before.rest → kind.IsRead →
      kind.SpellsPath piece → IsReadFrom source kind (before.spanOf piece) := by
    intro kind piece ahead isRead pathed
    refine ⟨isRead, fun _ => ⟨read, piece, ?_, State.marks_spanOf hasRead piece, pathed⟩⟩
    rw [hasRead.sourceEq]
    exact (List.prefix_append_right_inj read).2 ahead
  cases step with
  | leaf ahead written childless accepted named pathed =>
      exact moved.addLeaf
        (readFrom ahead (NodeKind.isRead_of_isChildless childless named) pathed)
  | @opened tag piece ahead written hasContent notVoid inMarkup named =>
      obtain ⟨lexer, intoEq⟩ := State.intoContent_eq tag
        ((before.after piece).openNode (.element tag) (before.spanOf piece))
      have isRead : (NodeKind.element tag).IsRead := named
      have opened :
          ((before.after piece).openNode (.element tag) (before.spanOf piece)).AllRead source :=
        moved.openNode (readFrom ahead isRead trivial)
      rw [intoEq]
      exact ⟨opened.enclosing, opened.top⟩
  | @closed tag piece =>
      obtain ⟨lexer, outEq⟩ := State.exists_outOfContent_eq tag (before.after piece)
      rw [outEq]
      exact State.AllRead.closeNode ⟨known.enclosing, known.top⟩
  | code => exact moved.addCode
  | @loop header head ahead written inMarkup indexed pathed =>
      have isRead : (NodeKind.loop header).IsRead := indexed
      exact (moved.openNode (readFrom ahead isRead pathed)).openNode ⟨trivial, nofun⟩
  | block => exact moved.openNode ⟨trivial, nofun⟩
  | blockClosed => exact moved.closeBlock
  | declared => exact ⟨known.enclosing, trivial⟩

theorem Steps.allRead {before after : State} {read : List Char} (steps : Steps before after)
    (hasRead : before.cursor.HasRead source read) (known : before.AllRead source) :
    after.AllRead source := by
  have both : (∃ read, after.cursor.HasRead source read) ∧ after.AllRead source := by
    induction steps with
    | refl => exact ⟨⟨read, hasRead⟩, known⟩
    | tail _ step ih =>
        obtain ⟨⟨read, hasRead⟩, known⟩ := ih
        exact ⟨step.hasRead hasRead, step.allRead hasRead known⟩
  exact both.2

end Parse

namespace Parser

variable {text : String} {template : Template} (parsed : Template.parse text = .ok template)

include parsed

theorem allRead_of_parse :
    Node.AllHoldAt (Parse.IsReadFrom text.toList) template.children := by
  obtain ⟨content, length, after, scanned, steps, -, -, rfl⟩ := parse_steps parsed
  have hasRead : (behindMatter text.toList content length).cursor.HasRead text.toList _ :=
    hasRead_behindMatter (Lex.length_le_of_scanFrontMatter scanned)
  have start : (behindMatter text.toList content length).AllRead text.toList := ⟨nofun, trivial⟩
  exact (Parse.Steps.allRead steps hasRead start).top.reverse

theorem allHold_of_parse : Node.AllHold NodeKind.IsRead template.children :=
  Node.AllHoldAt.allHold _ (Node.AllHoldAt.mono (fun _ _ => And.left) _ (allRead_of_parse parsed))

/-- Every path in a template is written where its node stands. -/
theorem pathsStand_of_parse :
    Node.AllHoldAt (NodeKind.PathStands text.toList) template.children :=
  Node.AllHoldAt.mono (fun _ _ => And.right) _ (allRead_of_parse parsed)

end Parser

end TemplateCompiler
