import TemplateCompiler.Proofs.Parse.Soundness

/-!
# A parsed template accounts for its source

While a template is read, the text read so far is spelled by what was built: the
nodes at the top, then, from the outside in, the beginning of each open construct
and the children it has.  Every step of parsing keeps this up, so the nodes of a
finished template spell all of its source behind the front matter.

Sources longer than the largest offset are not supported, so the places of such a
source are left out.
-/

namespace TemplateCompiler

namespace Parse

/-- Whether a text is spelled up to some place inside of open constructs: the
nodes at the top behind what is before them, and then each open construct with
its children.  A loop is open together with its body, which begins with the last
character of the header. -/
inductive Spelled (source before : List Char) (top : List Node) :
    List Open → List Char → Prop
  | top {piece : List Char} (spelled : Node.SpellAll source top.reverse before piece) :
      Spelled source before top [] (before ++ piece)
  | construct {construct : Open} {outer : List Open} {read own inner : List Char}
      (earlier : Spelled source before top outer read)
      (enclosing : construct.kind.IsEnclosing)
      (covers : construct.position.Covers source read own)
      (written : construct.kind.IsWritten own)
      (content : Node.SpellAll source construct.children.reverse (read ++ own) inner) :
      Spelled source before top (construct :: outer) (read ++ own ++ inner)
  | body {id bodyId : Nat} {header : Loop} {position bodyPosition : Position}
      {children : List Node} {outer : List Open} {read head inner : List Char}
      (earlier : Spelled source before top outer read)
      (covers : position.Covers source read (head ++ ['{']))
      (written : (NodeKind.loop header).IsWritten (head ++ ['{']))
      (bodyCovers : bodyPosition.Covers source (read ++ head) ['{'])
      (content : Node.SpellAll source children.reverse (read ++ head ++ ['{']) inner) :
      Spelled source before top
        (⟨bodyId, .block, bodyPosition, children⟩ :: ⟨id, .loop header, position, []⟩ :: outer)
        (read ++ head ++ ['{'] ++ inner)

/-- What a state has read is spelled by what it has built: the front matter, the
declarations, and the nodes. -/
def State.Tiles (source matter : List Char) (content : String) (state : State) : Prop :=
  ∃ prologue read, state.cursor.HasRead source read ∧
    (state.document.frontMatter = content ∧
      SpellDeclarations source matter state.document.declarations state.dropped prologue) ∧
    Spelled source (matter ++ prologue) state.top state.enclosing read

namespace State

variable {source read piece : List Char} {state : State}

theorem hasRead_after (hasRead : state.cursor.HasRead source read)
    (ahead : piece <+: state.rest) : (state.after piece).cursor.HasRead source (read ++ piece) :=
  hasRead.advanceBy ahead

theorem marks_spanOf (hasRead : state.cursor.HasRead source read) (piece : List Char) :
    (state.spanOf piece).Marks read piece :=
  ⟨hasRead.offsetEq, rfl⟩

theorem spanOf_covers (hasRead : state.cursor.HasRead source read)
    (short : Text.byteLength source ≤ maxOffset) (ahead : piece <+: state.rest) :
    (state.spanOf piece).Covers source read piece := by
  refine Position.covers_of_prefix short ?_ hasRead.offsetEq rfl
  rw [hasRead.sourceEq]
  exact (List.prefix_append_right_inj read).2 ahead

end State

section Nodes

variable {source before read own inner closing piece : List Char} {top : List Node}

theorem IsEnclosing.shared_eq {kind : NodeKind} (enclosing : kind.IsEnclosing) :
    kind.shared = [] := by
  cases kind <;> first | rfl | exact enclosing.elim

theorem leaf_spells {kind : NodeKind} {position : Position} (id : Nat)
    (childless : kind.IsChildless) (covers : position.Covers source read piece)
    (written : kind.IsWritten piece) : Node.Spells source (.leaf id kind position) read piece := by
  have shared : kind.shared = [] := by
    cases kind <;> first | rfl | exact childless.elim
  refine ⟨piece, [], [], by simp, ?_, ?_, ?_, rfl, ?_⟩
  · rwa [shared, List.append_nil]
  · rwa [shared, List.append_nil]
  · cases kind <;> first | exact fun _ => rfl | exact rfl | exact childless.elim
  · cases kind with
    | element tag =>
        have selfClosing : tag.selfClosing = true := childless
        simp [NodeKind.IsEndedBy, selfClosing]
    | text content | comment content | interpolation value => rfl
    | _ => exact childless.elim

theorem script_spells {code : String} {position : Position} (id : Nat)
    (covers : position.Covers source read piece) (nonempty : piece ≠ [])
    (codeEq : piece = code.toList) :
    Node.Spells source (.leaf id (.script code) position) read piece :=
  ⟨piece, [], [], by simp, by simpa [NodeKind.shared] using covers,
    by simpa [NodeKind.shared] using ⟨nonempty, codeEq⟩, rfl, rfl, rfl⟩

theorem construct_spells {construct : Open} (enclosing : construct.kind.IsEnclosing)
    (covers : construct.position.Covers source read own)
    (written : construct.kind.IsWritten own)
    (content : Node.SpellAll source construct.children.reverse (read ++ own) inner)
    (ended : construct.kind.IsEndedBy closing) :
    Node.Spells source construct.node read (own ++ (inner ++ closing)) := by
  have shared := IsEnclosing.shared_eq enclosing
  refine ⟨own, inner, closing, rfl, ?_, ?_, ?_, content, ended⟩
  · rwa [shared, List.append_nil]
  · rwa [shared, List.append_nil]
  · obtain ⟨id, kind, position, children⟩ := construct
    cases kind with
    | element tag =>
        have hasContent : tag.selfClosing = false := enclosing
        simp [NodeKind.Admits, hasContent]
    | block => trivial
    | _ => exact enclosing.elim

/-- A finished node goes where the text was read up to. -/
theorem Spelled.add (state : State) {node : Node}
    (spelled : Spelled source before state.top state.enclosing read)
    (spelledNode : Node.Spells source node read piece) :
    Spelled source before (state.add node).top (state.add node).enclosing (read ++ piece) := by
  obtain ⟨lexer, document, enclosing, top, dropped, size⟩ := state
  cases spelled with
  | top spelled =>
      rw [List.append_assoc]
      exact .top (spelled.push spelledNode)
  | construct earlier enclosing covers written content =>
      rw [List.append_assoc _ _ piece]
      exact .construct earlier enclosing covers written (content.push spelledNode)
  | body earlier covers written bodyCovers content =>
      rw [List.append_assoc _ _ piece]
      exact .body earlier covers written bodyCovers (content.push spelledNode)

theorem Spelled.openNode {kind : NodeKind} {position : Position} {outer : List Open} (id : Nat)
    (spelled : Spelled source before top outer read) (enclosing : kind.IsEnclosing)
    (covers : position.Covers source read own) (written : kind.IsWritten own) :
    Spelled source before top (⟨id, kind, position, []⟩ :: outer) (read ++ own) := by
  have opened : Spelled source before top (⟨id, kind, position, []⟩ :: outer) (read ++ own ++ []) :=
    .construct spelled enclosing covers written rfl
  rwa [List.append_nil] at opened

/-- A loop is opened together with its body. -/
theorem Spelled.openLoop {header : Loop} {position bodyPosition : Position} {outer : List Open}
    {head : List Char} (id bodyId : Nat) (spelled : Spelled source before top outer read)
    (covers : position.Covers source read (head ++ ['{']))
    (written : (NodeKind.loop header).IsWritten (head ++ ['{']))
    (bodyCovers : bodyPosition.Covers source (read ++ head) ['{']) :
    Spelled source before top
      (⟨bodyId, .block, bodyPosition, []⟩ :: ⟨id, .loop header, position, []⟩ :: outer)
      (read ++ (head ++ ['{'])) := by
  have opened : Spelled source before top
      (⟨bodyId, .block, bodyPosition, []⟩ :: ⟨id, .loop header, position, []⟩ :: outer)
      (read ++ head ++ ['{'] ++ []) := .body spelled covers written bodyCovers rfl
  rwa [List.append_nil, List.append_assoc] at opened

theorem Spelled.closeNode {state : State} {tag : Element}
    (spelled : Spelled source before state.top state.enclosing read)
    (innermost : state.innermost? = some (.element tag)) (ended : tag.IsEndedBy closing) :
    Spelled source before state.closeNode.top state.closeNode.enclosing (read ++ closing) := by
  obtain ⟨lexer, document, enclosing, top, dropped, size⟩ := state
  cases spelled with
  | top spelled => simp [State.innermost?] at innermost
  | @construct construct outer read own inner earlier enclosing covers written content =>
      have kindEq : construct.kind = .element tag := by simpa [State.innermost?] using innermost
      have hasContent : tag.selfClosing = false := by
        rw [kindEq] at enclosing
        exact enclosing
      rw [List.append_assoc, List.append_assoc]
      refine Spelled.add ⟨lexer, document, outer, top, dropped, size⟩ earlier
        (construct_spells enclosing covers written content ?_)
      rw [kindEq]
      simpa [NodeKind.IsEndedBy, hasContent] using ended
  | body earlier covers written bodyCovers content => simp [State.innermost?] at innermost

/-- The innermost construct is never a loop, because its body is open as long as
it is. -/
theorem Spelled.not_loop {construct : Open} {outer : List Open} {header : Loop}
    (spelled : Spelled source before top (construct :: outer) read) :
    construct.kind ≠ .loop header := by
  cases spelled with
  | construct earlier enclosing covers written content =>
      intro kindEq
      rw [kindEq] at enclosing
      exact enclosing
  | body earlier covers written bodyCovers content => simp

/-- A block that is closed becomes the last node of what was open around it; so
does a loop with it, if it is the body of that. -/
theorem Spelled.closeBlock {state : State}
    (spelled : Spelled source before state.top state.enclosing read)
    (innermost : state.innermost? = some .block) :
    Spelled source before state.closeBlock.top state.closeBlock.enclosing (read ++ ['}']) := by
  obtain ⟨lexer, document, enclosing, top, dropped, size⟩ := state
  cases spelled with
  | top spelled => simp [State.innermost?] at innermost
  | @construct construct outer read own inner earlier enclosing covers written content =>
      have kindEq : construct.kind = .block := by simpa [State.innermost?] using innermost
      have notInLoop : ∀ next ∈ outer.head?, ∀ header, next.kind ≠ .loop header := by
        intro next member header
        cases outer with
        | nil => cases member
        | cons first outer =>
            obtain rfl : first = next := Option.some.inj member
            exact earlier.not_loop
      rw [State.closeBlock_eq_add rfl notInLoop, List.append_assoc, List.append_assoc]
      refine Spelled.add ⟨lexer, document, outer, top, dropped, size⟩ earlier
        (construct_spells enclosing covers written content ?_)
      rw [kindEq]
      rfl
  | @body id bodyId header position bodyPosition children outer read head inner earlier covers
      written bodyCovers content =>
      rw [List.append_assoc, List.append_assoc, List.append_assoc]
      apply Spelled.add ⟨lexer, document, outer, top, dropped, size⟩ earlier
      refine ⟨head, ['{'] ++ (inner ++ ['}']), [], by simp, covers, written,
        ⟨_, _, _, rfl⟩, ?_, rfl⟩
      apply Node.spellAll_singleton.2
      exact ⟨['{'], inner, ['}'], rfl, bodyCovers, rfl, trivial, content, rfl⟩

/-- More code of a script goes to the code before it, or becomes a node. -/
theorem Spelled.addCode {state : State} {tag : Element} {position : Position}
    (spelled : Spelled source before state.top state.enclosing read)
    (innermost : state.innermost? = some (.element tag))
    (short : Text.byteLength source ≤ maxOffset) (ahead : read ++ piece <+: source)
    (covers : position.Covers source read piece) (nonempty : piece ≠ []) :
    Spelled source before (state.addCode (String.ofList piece) position).top
      (state.addCode (String.ofList piece) position).enclosing (read ++ piece) := by
  unfold State.addCode
  split
  · next id kind place childId code childPlace below earlier outer enclosingEq =>
      rw [enclosingEq] at spelled
      cases spelled with
      | @construct _ _ read own inner spelledOuter enclosing coversOwn written content =>
          rw [List.reverse_cons, Node.spellAll_append] at content
          obtain ⟨front, _, rfl, spelledFront, spelledCode⟩ := content
          obtain ⟨codeOwn, _, _, rfl, codeCovers, ⟨someCode, codeEq⟩, rfl, rfl, rfl⟩ :=
            Node.spellAll_singleton.1 spelledCode
          simp only [NodeKind.shared, List.append_nil] at codeCovers someCode codeEq ahead covers ⊢
          rw [List.append_assoc _ (front ++ codeOwn), List.append_assoc front]
          refine .construct spelledOuter enclosing coversOwn written ?_
          refine spelledFront.push (script_spells childId ?_ ?_ ?_)
          · have offsetEq : childPlace.offset = Text.byteLength (read ++ own ++ front) :=
              congrArg Span.start codeCovers.span
            have endEq : position.endOffset =
                Text.byteLength (read ++ own ++ (front ++ codeOwn) ++ piece) :=
              congrArg Span.stop covers.span
            refine Position.covers_of_prefix short (by simpa using ahead) offsetEq ?_
            simp only [Position.withLength, offsetEq, endEq, Text.byteLength_append,
              Option.some.injEq]
            omega
          · simp [someCode]
          · simp [codeEq]
      | body earlier covers written bodyCovers content =>
          simp [State.innermost?, enclosingEq] at innermost
  · exact Spelled.add _ spelled (script_spells _ covers nonempty String.toList_ofList.symm)

end Nodes

section Steps

variable {source matter : List Char} {content : String} {before after : State}

theorem State.document_add (state : State) (node : Node) :
    (state.add node).document = state.document ∧ (state.add node).dropped = state.dropped := by
  obtain ⟨lexer, document, enclosing, top, dropped, size⟩ := state
  cases enclosing <;> exact ⟨rfl, rfl⟩

theorem State.document_closeNode (state : State) :
    state.closeNode.document = state.document ∧ state.closeNode.dropped = state.dropped := by
  unfold State.closeNode
  split
  · exact document_add _ _
  · exact ⟨rfl, rfl⟩

theorem State.document_closeBlock (state : State) :
    state.closeBlock.document = state.document ∧ state.closeBlock.dropped = state.dropped := by
  have once := document_closeNode state
  have twice := document_closeNode state.closeNode
  unfold State.closeBlock
  split
  · exact ⟨twice.1.trans once.1, twice.2.trans once.2⟩
  · exact once

theorem State.document_addCode (code : String) (position : Position) (state : State) :
    (state.addCode code position).document = state.document ∧
      (state.addCode code position).dropped = state.dropped := by
  unfold State.addCode
  split
  · exact ⟨rfl, rfl⟩
  · exact document_add _ _

/-- At the start of a template there is only white space. -/
theorem State.blank_of_atStart {state : State} (atStart : state.atStart = true) :
    state.enclosing = [] ∧ ∀ node ∈ state.top, node.IsBlank := by
  simp only [State.atStart, Bool.and_eq_true, List.isEmpty_iff, List.all_eq_true] at atStart
  refine ⟨atStart.1, fun node member => ?_⟩
  have blank := atStart.2 node member
  split at blank
  · next content kindEq => exact ⟨content, kindEq, blank⟩
  · contradiction

theorem State.outOfContent_eq (tag : Element) (state : State) :
    ∃ lexer, state.outOfContent tag = state.withLexer lexer ∧ lexer.taken = state.cursor := by
  unfold outOfContent
  split
  · exact ⟨_, rfl, rfl⟩
  · exact ⟨state.lexer, rfl, rfl⟩

/-- A step takes some of the characters that are ahead. -/
theorem Step.exists_piece (step : Step before after) :
    ∃ piece, piece <+: before.rest ∧ after.cursor = (before.after piece).cursor := by
  cases step with
  | leaf ahead => exact ⟨_, ahead, (State.addLeaf_lexerFree _ _).cursor_eq _⟩
  | opened ahead =>
      refine ⟨_, ahead, ?_⟩
      unfold State.intoContent
      split <;> rfl
  | @closed tag piece ahead =>
      obtain ⟨lexer, outEq, takenEq⟩ := State.outOfContent_eq tag (before.after piece)
      refine ⟨piece, ahead, ?_⟩
      rw [outEq]
      exact (State.closeNode_lexerFree.cursor_eq _).trans takenEq
  | code ahead => exact ⟨_, ahead, (State.addCode_lexerFree _ _).cursor_eq _⟩
  | loop ahead => exact ⟨_, ahead, rfl⟩
  | block ahead => exact ⟨_, ahead, rfl⟩
  | blockClosed ahead => exact ⟨_, ahead, State.closeBlock_lexerFree.cursor_eq _⟩
  | declared ahead => exact ⟨_, ahead, rfl⟩

theorem Step.hasRead {read : List Char} (step : Step before after)
    (hasRead : before.cursor.HasRead source read) : ∃ read, after.cursor.HasRead source read := by
  obtain ⟨piece, ahead, cursorEq⟩ := step.exists_piece
  rw [cursorEq]
  exact ⟨read ++ piece, State.hasRead_after hasRead ahead⟩

/-- What was read tiles with some more text, if the front matter and the
declarations stay. -/
theorem State.Tiles.read_on {prologue read piece : List Char}
    (hasRead : before.cursor.HasRead source read)
    (declared : before.document.frontMatter = content ∧
      SpellDeclarations source matter before.document.declarations before.dropped prologue)
    (ahead : piece <+: before.rest) (cursorEq : after.cursor = (before.after piece).cursor)
    (kept : after.document = before.document ∧ after.dropped = before.dropped)
    (spelled : Spelled source (matter ++ prologue) after.top after.enclosing (read ++ piece)) :
    after.Tiles source matter content := by
  refine ⟨prologue, read ++ piece, ?_, ?_, spelled⟩
  · rw [cursorEq]
    exact State.hasRead_after hasRead ahead
  · rw [kept.1, kept.2]
    exact declared

/-- A step leaves what was read spelled by what was built. -/
theorem Step.tiles (short : Text.byteLength source ≤ maxOffset) (step : Step before after)
    (tiles : before.Tiles source matter content) : after.Tiles source matter content := by
  obtain ⟨prologue, read, hasRead, declared, spelled⟩ := tiles
  cases step with
  | @leaf kind piece ahead written childless accepted =>
      have covers := State.spanOf_covers hasRead short ahead
      apply State.Tiles.read_on hasRead declared ahead
      · exact (State.addLeaf_lexerFree _ _).cursor_eq _
      · exact State.document_add _ _
      · exact Spelled.add _ spelled (leaf_spells _ childless covers written)
  | @opened tag piece ahead written hasContent notVoid inMarkup =>
      have covers := State.spanOf_covers hasRead short ahead
      have enclosing : (NodeKind.element tag).IsEnclosing := hasContent
      have opened := Spelled.openNode before.size spelled enclosing covers written
      unfold State.intoContent
      split <;> exact State.Tiles.read_on hasRead declared ahead rfl ⟨rfl, rfl⟩ opened
  | @closed tag piece ahead innermost ended =>
      obtain ⟨lexer, outEq, takenEq⟩ := State.outOfContent_eq tag (before.after piece)
      rw [outEq]
      apply State.Tiles.read_on hasRead declared ahead
      · exact (State.closeNode_lexerFree.cursor_eq _).trans takenEq
      · exact State.document_closeNode _
      · exact Spelled.closeNode spelled innermost ended
  | @code tag piece ahead nonempty innermost script =>
      have covers := State.spanOf_covers hasRead short ahead
      have within : read ++ piece <+: source := by
        rw [hasRead.sourceEq]
        exact (List.prefix_append_right_inj read).2 ahead
      apply State.Tiles.read_on hasRead declared ahead
      · exact (State.addCode_lexerFree _ _).cursor_eq _
      · exact State.document_addCode _ _ _
      · exact Spelled.addCode spelled innermost short within covers nonempty
  | @loop header head ahead written inMarkup =>
      have covers := State.spanOf_covers hasRead short ahead
      have headAhead := State.prefix_append_iff.1 ahead
      have bodyCovers :=
        State.spanOf_covers (State.hasRead_after hasRead headAhead.1) short headAhead.2
      have loopWritten : (NodeKind.loop header).IsWritten (head ++ ['{']) :=
        ⟨List.prefix_append_of_prefix written, List.suffix_append _ _⟩
      refine State.Tiles.read_on hasRead declared ahead rfl ⟨rfl, rfl⟩ ?_
      exact Spelled.openLoop before.size (before.size + 1) spelled covers loopWritten bodyCovers
  | @block ahead inMarkup =>
      have covers := State.spanOf_covers hasRead short ahead
      refine State.Tiles.read_on hasRead declared ahead rfl ⟨rfl, rfl⟩ ?_
      exact Spelled.openNode before.size spelled trivial covers rfl
  | @blockClosed ahead innermost =>
      apply State.Tiles.read_on hasRead declared ahead
      · exact State.closeBlock_lexerFree.cursor_eq _
      · exact State.document_closeBlock _
      · exact Spelled.closeBlock spelled innermost
  | @declared declaration piece ahead written atStart positionEq =>
      have covers := State.spanOf_covers hasRead short ahead
      rw [← positionEq] at covers
      obtain ⟨enclosingEq, blank⟩ := State.blank_of_atStart atStart
      rw [enclosingEq] at spelled
      cases spelled with
      | @top texts spelled =>
          have white := spelled.white fun node member => blank node (List.mem_reverse.1 member)
          rw [List.append_assoc] at covers
          refine ⟨prologue ++ (texts ++ piece), matter ++ prologue ++ texts ++ piece,
            State.hasRead_after hasRead ahead,
            ⟨declared.1, declared.2.concat spelled white covers written⟩, ?_⟩
          have nothing : Spelled source (matter ++ (prologue ++ (texts ++ piece))) [] []
              (matter ++ (prologue ++ (texts ++ piece)) ++ []) := .top rfl
          have enclosingAfter : (before.after piece).enclosing = [] := enclosingEq
          simpa [State.declare, enclosingAfter] using nothing

theorem Steps.tiles (short : Text.byteLength source ≤ maxOffset) (steps : Steps before after)
    (tiles : before.Tiles source matter content) : after.Tiles source matter content := by
  induction steps with
  | refl => exact tiles
  | tail _ step ih => exact step.tiles short ih

end Steps

end Parse

namespace Parser

open Parse

section Start

variable {text : List Char} {content : String} {length : Nat} (within : length ≤ text.length)

include within

theorem hasRead_behindMatter :
    (behindMatter text content length).cursor.HasRead text (text.take length) := by
  have atStart : (Cursor.ofText text).HasRead text [] := ⟨rfl, rfl⟩
  have hasRead := atStart.advanceBy (List.take_prefix length text)
  rwa [List.length_take_of_le within] at hasRead

theorem tiles_behindMatter :
    (behindMatter text content length).Tiles text (text.take length) content := by
  have nothing : Spelled text (text.take length ++ []) [] [] (text.take length ++ [] ++ []) :=
    .top rfl
  refine ⟨[], _, hasRead_behindMatter within, ⟨rfl, .nil⟩, ?_⟩
  change Spelled text _ [] [] _
  simpa using nothing

end Start

theorem tiled_of_parse {text : String} {template : Template}
    (parsed : Template.parse text = .ok template) (short : text.utf8ByteSize ≤ maxOffset) :
    ∃ matter prologue body, text.toList = matter ++ (prologue ++ body) ∧
      Lex.scanFrontMatter true text.toList =
        .ok (some ⟨.frontMatter template.document.frontMatter, matter.length⟩) ∧
      SpellDeclarations text.toList matter template.document.declarations template.dropped
        prologue ∧
      Node.SpellAll text.toList template.children (matter ++ prologue) body := by
  obtain ⟨content, length, after, scanned, steps, restEq, closed, rfl⟩ := parse_steps parsed
  rw [← Text.byteLength_toList] at short
  have within := Lex.length_le_of_scanFrontMatter scanned
  obtain ⟨prologue, read, hasRead, ⟨contentEq, declared⟩, spelled⟩ :=
    steps.tiles short (tiles_behindMatter within)
  rw [closed] at spelled
  cases spelled with
  | @top body spelled =>
      have sourceEq := hasRead.sourceEq
      rw [show after.rest = after.cursor.rest from rfl] at restEq
      rw [restEq, List.append_nil, List.append_assoc] at sourceEq
      refine ⟨text.toList.take length, prologue, body, sourceEq, ?_, declared, spelled⟩
      rw [List.length_take_of_le within, scanned]
      exact contentEq ▸ rfl

end Parser

/-- A template that was parsed accounts for its source.  Behind the front matter
stand the declarations, with nothing but white space before each, and then the
nodes: the characters at the place of each node, the spellings of its children
and its end, every character once and in order. -/
theorem Template.spelled_of_parse {text : String} {template : Template}
    (parsed : Template.parse text = .ok template) (short : text.utf8ByteSize ≤ maxOffset) :
    ∃ matter prologue body, text.toList = matter ++ (prologue ++ body) ∧
      Lex.scanFrontMatter true text.toList =
        .ok (some ⟨.frontMatter template.document.frontMatter, matter.length⟩) ∧
      SpellDeclarations text.toList matter template.document.declarations template.dropped
        prologue ∧
      Node.SpellAll text.toList template.children (matter ++ prologue) body ∧
      (Node.startsAll template.children).Pairwise (· < ·) := by
  obtain ⟨matter, prologue, body, sourceEq, scanned, declared, spelled⟩ :=
    Parser.tiled_of_parse parsed short
  exact ⟨matter, prologue, body, sourceEq, scanned, declared, spelled,
    spelled.starts_increasing.1⟩

/-- A source with front matter, a declaration, a loop in an element, and a
script. -/
def Template.mixedSource : String :=
  "---\na\n---\n <!a>\n<p>@for (a of b) \x7b\x7b\x7ba\x7d\x7d\x7d</p ><script>x\x7d\x7dy</SCRIPT>"

theorem Template.spelled_of_parse_mixedSource :
    ∃ template, Template.parse mixedSource = .ok template ∧
      ∃ matter prologue body, mixedSource.toList = matter ++ (prologue ++ body) ∧
        Lex.scanFrontMatter true mixedSource.toList =
          .ok (some ⟨.frontMatter template.document.frontMatter, matter.length⟩) ∧
        SpellDeclarations mixedSource.toList matter template.document.declarations
          template.dropped prologue ∧
        Node.SpellAll mixedSource.toList template.children (matter ++ prologue) body ∧
        (Node.startsAll template.children).Pairwise (· < ·) := by
  have accepted : (Template.parse mixedSource).toBool = true := by decide +kernel
  cases parsed : Template.parse mixedSource with
  | error error =>
      rw [parsed] at accepted
      contradiction
  | ok template =>
      exact ⟨template, rfl, Template.spelled_of_parse parsed (by decide +kernel)⟩

end TemplateCompiler
