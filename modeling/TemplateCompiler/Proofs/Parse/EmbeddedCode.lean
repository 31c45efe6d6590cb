import TemplateCompiler.Proofs.Parse.Shape

/-!
# Where embedded code stands in its source

A script or a style that has content stands in its source as its start tag, the
content, and its closing tag.  The content is divided among the children: code
and the text of a style are taken over character by character, and an
interpolation has its place from its opening to its closing braces.
-/

namespace TemplateCompiler

namespace Node

/-- Whether a piece of a source, behind some other text, was read as a child of a
script or a style. -/
def IsPartOfCode (before piece : List Char) (node : Node) : Prop :=
  match node.kind with
  | .text content | .script content => piece = content.toList
  | .interpolation expression =>
      (NodeKind.interpolation expression).IsWritten piece ∧ node.position.Marks before piece
  | _ => False

/-- Whether a piece of a source was read as children of a script or a style, one
after the other. -/
def DivideCode : List Node → (before inner : List Char) → Prop
  | [], _, inner => inner = []
  | first :: others, before, inner =>
      ∃ piece rest, inner = piece ++ rest ∧ first.IsPartOfCode before piece ∧
        DivideCode others (before ++ piece) rest

/-- A node stands in a source, behind some other text, as a start tag, content
that its children divide, and the closing tag. -/
structure HoldsCode (source : List Char) (tag : Element) (node : Node)
    (before own inner closing : List Char) : Prop where
  ahead : before ++ (own ++ (inner ++ closing)) <+: source
  marks : node.position.Marks before own
  written : (NodeKind.element tag).IsWritten own
  ended : tag.IsEndedBy closing
  divided : DivideCode node.children (before ++ own) inner

mutual

/-- Whether every script or style with content, at or below a node, stands in a
source. -/
def IsSourced (source : List Char) : Node → Prop
  | .node id kind position children =>
      (∀ tag, kind = .element tag → tag.contentMode? ≠ none → children ≠ [] →
        ∃ before own inner closing,
          HoldsCode source tag (.node id kind position children) before own inner closing) ∧
        AllSourced source children

def AllSourced (source : List Char) : List Node → Prop
  | [] => True
  | first :: others => IsSourced source first ∧ AllSourced source others

end

variable {source before inner piece : List Char} {node : Node} {nodes : List Node}

theorem allSourced_iff : AllSourced source nodes ↔ ∀ node ∈ nodes, node.IsSourced source := by
  induction nodes with
  | nil => simp [AllSourced]
  | cons first others ih => simp [AllSourced, ih]

theorem AllSourced.reverse (sourced : AllSourced source nodes) :
    AllSourced source nodes.reverse := by
  rw [allSourced_iff] at sourced ⊢
  exact fun node member => sourced node (List.mem_reverse.1 member)

theorem isSourced_leaf {id : Nat} {kind : NodeKind} {position : Position} :
    (Node.leaf id kind position).IsSourced source := by
  rw [leaf, IsSourced]
  refine ⟨fun tag _ _ nonempty => ?_, trivial⟩
  contradiction

theorem divideCode_append {first second : List Node} :
    DivideCode (first ++ second) before inner ↔
      ∃ front rest, inner = front ++ rest ∧ DivideCode first before front ∧
        DivideCode second (before ++ front) rest := by
  induction first generalizing before inner with
  | nil => simp [DivideCode]
  | cons node first ih =>
      simp only [List.cons_append, DivideCode, ih]
      constructor
      · rintro ⟨piece, _, rfl, part, front, rest, rfl, dividedFirst, dividedSecond⟩
        exact ⟨piece ++ front, rest, (List.append_assoc _ _ _).symm,
          ⟨piece, front, rfl, part, dividedFirst⟩, by rwa [← List.append_assoc]⟩
      · rintro ⟨_, rest, rfl, ⟨piece, front, rfl, part, dividedFirst⟩, dividedSecond⟩
        exact ⟨piece, front ++ rest, List.append_assoc _ _ _, part, front, rest, rfl,
          dividedFirst, by rwa [List.append_assoc]⟩

theorem divideCode_singleton : DivideCode [node] before inner ↔ node.IsPartOfCode before inner := by
  simp [DivideCode]

theorem DivideCode.push (divided : DivideCode nodes.reverse before inner)
    (part : node.IsPartOfCode (before ++ inner) piece) :
    DivideCode (node :: nodes).reverse before (inner ++ piece) := by
  rw [List.reverse_cons]
  exact divideCode_append.2 ⟨inner, piece, rfl, divided, divideCode_singleton.2 part⟩

end Node

namespace Parse

open Node

variable {source read piece closing : List Char} {state before after : State} {top : List Node}
  {enclosing outer : List Open} {construct : Open}

/-- Whether the text read so far ends with a start tag and content, if the
innermost construct is a script or a style. -/
def InCode (read : List Char) : List Open → Prop
  | [] => True
  | construct :: _ =>
      construct.kind.contentMode? ≠ none →
        ∃ before own inner, read = before ++ (own ++ inner) ∧
          construct.position.Marks before own ∧ construct.kind.IsWritten own ∧
          DivideCode construct.children.reverse (before ++ own) inner

/-- Whether the scripts and styles that were built stand in a source of which
some text has been read. -/
structure Sourced (source read : List Char) (enclosing : List Open) (top : List Node) : Prop where
  top : AllSourced source top
  children : ∀ construct ∈ enclosing, AllSourced source construct.children
  inCode : InCode read enclosing

theorem inCode_of_inMarkup (inMarkup : contentModeIn? enclosing = none) :
    InCode read enclosing := by
  cases enclosing with
  | nil => trivial
  | cons construct outer => exact fun embeds => absurd inMarkup embeds

/-- What is around a construct is markup. -/
theorem Sourced.around (sourced : Sourced source read (construct :: outer) top)
    (inMarkup : contentModeIn? outer = none) : Sourced source read outer top where
  top := sourced.top
  children := fun other member => sourced.children other (List.mem_cons_of_mem _ member)
  inCode := inCode_of_inMarkup inMarkup

/-- A construct that opens has no children yet. -/
theorem Sourced.opens {now : List Char} (sourced : Sourced source read enclosing top)
    (noChildren : construct.children = []) (inCode : InCode now (construct :: enclosing)) :
    Sourced source now (construct :: enclosing) top := by
  refine ⟨sourced.top, ?_, inCode⟩
  intro other member
  rcases List.mem_cons.1 member with rfl | member
  · rw [noChildren]
    trivial
  · exact sourced.children other member

theorem Sourced.add (state : State) {node : Node}
    (sourced : Sourced source read state.enclosing state.top) (nodeSourced : node.IsSourced source)
    (part : state.contentMode? ≠ none → node.IsPartOfCode read piece) :
    Sourced source (read ++ piece) (state.add node).enclosing (state.add node).top := by
  obtain ⟨lexer, document, enclosing, top, dropped, size⟩ := state
  cases enclosing with
  | nil => exact ⟨⟨nodeSourced, sourced.top⟩, sourced.children, trivial⟩
  | cons construct outer =>
      refine ⟨sourced.top, ?_, fun embeds => ?_⟩
      · intro other member
        rcases List.mem_cons.1 member with rfl | member
        · exact ⟨nodeSourced, sourced.children construct List.mem_cons_self⟩
        · exact sourced.children other (List.mem_cons_of_mem _ member)
      · obtain ⟨before, own, inner, rfl, marks, written, divided⟩ := sourced.inCode embeds
        refine ⟨before, own, inner ++ piece, by simp, marks, written, divided.push ?_⟩
        rw [List.append_assoc]
        exact part embeds

/-- A construct that is closed becomes a node that stands in the source. -/
theorem Sourced.closed (sourced : Sourced source read (construct :: outer) top)
    (ahead : read ++ closing <+: source)
    (ended : ∀ tag, construct.kind = .element tag → tag.IsEndedBy closing) :
    construct.node.IsSourced source := by
  obtain ⟨id, kind, position, children⟩ := construct
  have below := sourced.children _ List.mem_cons_self
  refine ⟨fun tag kindEq embeds nonempty => ?_, below.reverse⟩
  obtain rfl : kind = .element tag := kindEq
  obtain ⟨before, own, inner, rfl, marks, written, divided⟩ := sourced.inCode embeds
  refine ⟨before, own, inner, closing, ?_, marks, written, ended tag rfl, divided⟩
  simpa using ahead

theorem Sourced.close (state : State) (sourced : Sourced source read (construct :: outer) state.top)
    (enclosingEq : state.enclosing = outer) (inMarkup : contentModeIn? outer = none)
    (ahead : read ++ closing <+: source)
    (ended : ∀ tag, construct.kind = .element tag → tag.IsEndedBy closing) :
    Sourced source (read ++ closing) (state.add construct.node).enclosing
      (state.add construct.node).top := by
  subst enclosingEq
  exact Sourced.add state (sourced.around inMarkup) (sourced.closed ahead ended)
    fun embeds => absurd inMarkup embeds

theorem Sourced.closeElement {tag : Element} (shaped : state.Shaped)
    (sourced : Sourced source read state.enclosing state.top)
    (innermost : state.innermost? = some (.element tag)) (ahead : read ++ closing <+: source)
    (ended : tag.IsEndedBy closing) :
    Sourced source (read ++ closing) state.closeNode.enclosing state.closeNode.top := by
  obtain ⟨lexer, document, enclosing, top, dropped, size⟩ := state
  obtain ⟨open_, -, -⟩ := shaped
  cases open_ with
  | nil => simp [State.innermost?] at innermost
  | @construct construct outer earlier inMarkup isEnclosing fits belowOpen =>
      have kindEq : construct.kind = .element tag := by simpa [State.innermost?] using innermost
      apply Sourced.close ⟨lexer, document, outer, top, dropped, size⟩ sourced rfl inMarkup ahead
      intro other otherEq
      rw [kindEq] at otherEq
      cases otherEq
      exact ended
  | body earlier inMarkup content belowOpen => simp [State.innermost?] at innermost

theorem Sourced.closeBlock (shaped : state.Shaped)
    (sourced : Sourced source read state.enclosing state.top)
    (innermost : state.innermost? = some .block) (ahead : read ++ closing <+: source) :
    Sourced source (read ++ closing) state.closeBlock.enclosing state.closeBlock.top := by
  obtain ⟨lexer, document, enclosing, top, dropped, size⟩ := state
  obtain ⟨open_, -, -⟩ := shaped
  cases open_ with
  | nil => simp [State.innermost?] at innermost
  | @construct construct outer earlier inMarkup isEnclosing fits belowOpen =>
      have kindEq : construct.kind = .block := by simpa [State.innermost?] using innermost
      rw [State.closeBlock_eq_add rfl earlier.head_not_loop]
      apply Sourced.close ⟨lexer, document, outer, top, dropped, size⟩ sourced rfl inMarkup ahead
      intro tag otherEq
      rw [kindEq] at otherEq
      cases otherEq
  | @body id bodyId header position bodyPosition children outer earlier inMarkup content
      belowOpen =>
      have bodySourced := sourced.closed ahead fun tag same => by cases same
      apply Sourced.add ⟨lexer, document, outer, top, dropped, size⟩
        ((sourced.around rfl).around inMarkup)
      · refine ⟨fun tag same => ?_, bodySourced, trivial⟩
        cases same
      · exact fun embeds => absurd inMarkup embeds

/-- Code that goes to the code before it extends the last piece of the content. -/
theorem Sourced.addCode (sourced : Sourced source read state.enclosing state.top)
    (code : String) (position : Position) :
    Sourced source (read ++ code.toList) (state.addCode code position).enclosing
      (state.addCode code position).top := by
  obtain ⟨lexer, document, enclosing, top, dropped, size⟩ := state
  unfold State.addCode
  split
  · next id kind place childId earlierCode childPlace below earlier outer enclosingEq =>
      obtain rfl : enclosing = _ := enclosingEq
      obtain ⟨childSourced, earlierSourced⟩ := sourced.children _ List.mem_cons_self
      refine ⟨sourced.top, ?_, fun embeds => ?_⟩
      · intro other member
        rcases List.mem_cons.1 member with rfl | member
        · rw [IsSourced] at childSourced
          exact ⟨⟨nofun, childSourced.2⟩, earlierSourced⟩
        · exact sourced.children other (List.mem_cons_of_mem _ member)
      · obtain ⟨before, own, inner, rfl, marks, written, divided⟩ := sourced.inCode embeds
        rw [List.reverse_cons, divideCode_append] at divided
        obtain ⟨front, last, rfl, dividedFront, dividedLast⟩ := divided
        obtain rfl : last = earlierCode.toList := divideCode_singleton.1 dividedLast
        refine ⟨before, own, front ++ (earlierCode ++ code).toList, by simp, marks, written, ?_⟩
        exact DivideCode.push dividedFront rfl
  · exact Sourced.add _ sourced isSourced_leaf fun _ => rfl

/-- Whether the scripts and styles that were built stand in a source. -/
def State.Sourced (source : List Char) (state : State) : Prop :=
  ∃ read, state.cursor.HasRead source read ∧
    Parse.Sourced source read state.enclosing state.top

theorem State.Sourced.read_on (hasRead : before.cursor.HasRead source read)
    (ahead : piece <+: before.rest) (cursorEq : after.cursor = (before.after piece).cursor)
    (sourced : Parse.Sourced source (read ++ piece) after.enclosing after.top) :
    after.Sourced source := by
  refine ⟨read ++ piece, ?_, sourced⟩
  rw [cursorEq]
  exact State.hasRead_after hasRead ahead

/-- What is read as a whole in a script or a style is a part of the content. -/
theorem isPartOfCode_leaf {kind : NodeKind} (hasRead : before.cursor.HasRead source read)
    (written : kind.IsWritten piece) (accepted : before.Accepts kind)
    (embeds : before.contentMode? ≠ none) (id : Nat) :
    (Node.leaf id kind (before.spanOf piece)).IsPartOfCode read piece := by
  unfold State.Accepts at accepted
  split at accepted
  · next inMarkup => exact absurd inMarkup embeds
  · cases kind with
    | interpolation expression => exact ⟨written, State.marks_spanOf hasRead piece⟩
    | _ => cases accepted
  · cases kind with
    | text content => exact written.2
    | _ => cases accepted.1

/-- Every step keeps what was read of scripts and styles divided among their
nodes. -/
theorem Step.sourced (step : Step before after) (shaped : before.Shaped)
    (sourced : before.Sourced source) : after.Sourced source := by
  obtain ⟨read, hasRead, sourced⟩ := sourced
  have within : ∀ {piece : List Char}, piece <+: before.rest → read ++ piece <+: source := by
    intro piece ahead
    rw [hasRead.sourceEq]
    exact (List.prefix_append_right_inj read).2 ahead
  cases step with
  | @leaf kind piece ahead written childless accepted =>
      apply State.Sourced.read_on hasRead ahead
      · exact (State.addLeaf_lexerFree _ _).cursor_eq _
      · exact Sourced.add _ sourced isSourced_leaf fun embeds =>
          isPartOfCode_leaf hasRead written accepted embeds _
  | @opened tag piece ahead written hasContent notVoid inMarkup =>
      have opened : Sourced source (read ++ piece)
          (⟨before.size, .element tag, before.spanOf piece, []⟩ :: before.enclosing) before.top :=
        sourced.opens rfl fun _ =>
          ⟨read, piece, [], by simp, State.marks_spanOf hasRead piece, written, rfl⟩
      unfold State.intoContent
      split <;> exact State.Sourced.read_on hasRead ahead rfl opened
  | @closed tag piece ahead innermost ended =>
      obtain ⟨lexer, outEq, takenEq⟩ := State.outOfContent_eq tag (before.after piece)
      rw [outEq]
      apply State.Sourced.read_on hasRead ahead
      · exact (State.closeNode_lexerFree.cursor_eq _).trans takenEq
      · exact Sourced.closeElement ((shaped.withLexer _).withLexer lexer) sourced innermost
          (within ahead) ended
  | @code tag piece ahead nonempty innermost script =>
      apply State.Sourced.read_on hasRead ahead
      · exact (State.addCode_lexerFree _ _).cursor_eq _
      · have sourcedBehind : Sourced source read (before.after piece).enclosing
            (before.after piece).top := sourced
        have added := sourcedBehind.addCode (String.ofList piece) (before.spanOf piece)
        rwa [String.toList_ofList] at added
  | @loop header head ahead written inMarkup =>
      have loopOpens : Sourced source read
          (⟨before.size, .loop header, before.spanOf (head ++ ['{']), []⟩ :: before.enclosing)
          before.top := sourced.opens rfl (inCode_of_inMarkup rfl)
      exact State.Sourced.read_on hasRead ahead rfl
        (loopOpens.opens rfl (inCode_of_inMarkup rfl))
  | @block ahead inMarkup =>
      exact State.Sourced.read_on hasRead ahead rfl
        (sourced.opens rfl (inCode_of_inMarkup rfl))
  | @blockClosed ahead innermost =>
      apply State.Sourced.read_on hasRead ahead
      · exact State.closeBlock_lexerFree.cursor_eq _
      · exact Sourced.closeBlock (shaped.withLexer _) sourced innermost (within ahead)
  | @declared declaration piece ahead written atStart positionEq =>
      refine State.Sourced.read_on hasRead ahead rfl ⟨trivial, sourced.children, ?_⟩
      have enclosingEq := (State.blank_of_atStart atStart).1
      change InCode _ before.enclosing
      rw [enclosingEq]
      trivial

theorem Steps.sourced (steps : Steps before after) (shaped : before.Shaped)
    (sourced : before.Sourced source) : after.Shaped ∧ after.Sourced source := by
  induction steps with
  | refl => exact ⟨shaped, sourced⟩
  | tail _ step ih => exact ⟨step.shaped ih.1, step.sourced ih.1 ih.2⟩

end Parse

namespace Parser

open Parse

/-- The scripts and styles of a template that was parsed stand in its source. -/
theorem sourced_of_parse {text : String} {template : Template}
    (parsed : Template.parse text = .ok template) :
    Node.AllSourced text.toList template.children := by
  obtain ⟨content, length, after, scanned, steps, -, -, rfl⟩ := parse_steps parsed
  have within := Lex.length_le_of_scanFrontMatter scanned
  have sourced : (behindMatter text.toList content length).Sourced text.toList :=
    ⟨_, hasRead_behindMatter within, trivial, nofun, trivial⟩
  obtain ⟨-, read, -, sourced⟩ := steps.sourced ⟨.nil, Node.isMarkup_nil, trivial⟩ sourced
  exact sourced.top.reverse

end Parser

end TemplateCompiler
