import TemplateCompiler.Parse.Markup
import TemplateCompiler.Proofs.Lex.Places
import TemplateCompiler.Proofs.Parse.Building

/-!
# Places in templates

Every position in a template, and every position that a parse error is reported at,
comes from a token, from the cursor behind one, or from the beginning of the source,
and is at most extended to a later place.  So all of them count if the places that
the lexer comes to do.
-/

namespace TemplateCompiler

namespace Node

mutual

/-- The positions of a node and of all nodes below it. -/
def positions : Node → List Position
  | .node _ _ position children => position :: allPositions children

def allPositions : List Node → List Position
  | [] => []
  | first :: others => positions first ++ allPositions others

end

theorem mem_allPositions {position : Position} {nodes : List Node} :
    position ∈ allPositions nodes ↔ ∃ node ∈ nodes, position ∈ node.positions := by
  induction nodes with
  | nil => simp [allPositions]
  | cons first others ih => simp [allPositions, ih]

theorem mem_allPositions_reverse {position : Position} {nodes : List Node} :
    position ∈ allPositions nodes.reverse ↔ position ∈ allPositions nodes := by
  simp [mem_allPositions]

end Node

namespace Parse

/-- The position of an open construct and those of the nodes in it. -/
def Open.positions (construct : Open) : List Position :=
  construct.position :: Node.allPositions construct.children

/-- The positions of all nodes that are open or in the tree. -/
def State.positions (state : State) : List Position :=
  state.enclosing.flatMap Open.positions ++ Node.allPositions state.top

namespace State

variable {state : State} {position : Position}

theorem positions_add (node : Node) (state : State) :
    (state.add node).positions ⊆ node.positions ++ state.positions := by
  unfold add
  split
  · next construct outer open? =>
      intro position member
      simp only [positions, Open.positions, Node.allPositions, open?, List.flatMap_cons,
        List.mem_append, List.mem_cons] at member ⊢
      tauto
  · next closed =>
      intro position member
      simp only [positions, Node.allPositions, closed, List.flatMap_nil, List.mem_append,
        List.mem_nil_iff] at member ⊢
      tauto

theorem positions_addLeaf (kind : NodeKind) (position : Position) (state : State) :
    (state.addLeaf kind position).positions ⊆ position :: state.positions :=
  positions_add _ _

theorem positions_openNode (kind : NodeKind) (position : Position) (state : State) :
    (state.openNode kind position).positions ⊆ position :: state.positions :=
  fun _ member => member

theorem positions_closeNode (state : State) : state.closeNode.positions ⊆ state.positions := by
  unfold closeNode
  split
  · next construct outer open? =>
      intro position member
      have known := positions_add construct.node _ member
      simp only [positions, Open.node, Node.positions, Open.positions, open?, List.flatMap_cons,
        List.mem_append, List.mem_cons, Node.mem_allPositions_reverse] at known ⊢
      tauto
  · exact fun _ member => member

theorem positions_declare (declaration : Declaration) (state : State) :
    (state.declare declaration).positions ⊆ state.positions := by
  intro position member
  simp only [declare, positions, Node.allPositions, List.append_nil] at member ⊢
  exact List.mem_append_left _ member

theorem positions_addCode (code : String) (position : Position) (state : State) :
    ∀ other ∈ (state.addCode code position).positions, other ∈ position :: state.positions ∨
      ∃ first ∈ state.positions,
        other = first.withLength (position.endOffset - first.offset) := by
  intro other member
  unfold addCode at member
  split at member
  · next id kind place childId before childPlace below earlier outer open? =>
      simp only [positions, Open.positions, Node.allPositions, Node.positions, open?,
        List.flatMap_cons, List.mem_append, List.mem_cons] at member ⊢
      by_cases extended : other = childPlace.withLength (position.endOffset - childPlace.offset)
      · exact .inr ⟨childPlace, by tauto, extended⟩
      · left
        tauto
  · exact .inl (positions_addLeaf _ _ _ member)

end State

end Parse

namespace Places

open Parse

/-- The parser stands at a place that counts, and the positions of all nodes do. -/
structure OfState (places : Places) (state : State) : Prop where
  lexer : places.OfLexer state.lexer
  positions : ∀ position ∈ state.positions, places.position position

/-- A lexical error may occur, or an error is reported at a place that counts. -/
def OfError (places : Places) : Parse.Error → Prop
  | .lexical error => places.error error
  | .grammatical _ position => places.position position

/-- An action of the parser keeps to places that count. -/
abbrev Safe {α : Type} (places : Places) (action : Parser α) (gives : α → Prop) : Prop :=
  Maintains places.OfState action gives places.OfError

/-- An action of the parser keeps to places that count and gives none. -/
abbrev Keeps {α : Type} (places : Places) (action : Parser α) : Prop :=
  places.Safe action fun _ => True

/-- The position of a token, if there is one, counts. -/
abbrev OfToken? (places : Places) (token? : Option Token) : Prop :=
  ∀ token ∈ token?, places.position token.position

variable {α : Type} {places : Places}

section Changes

variable {position : Position}

theorem change_keeps {change : State → State} (free : State.LexerFree change)
    (counts : ∀ state, places.OfState state →
      ∀ other ∈ (change state).positions, places.position other) :
    places.Keeps (modify change) := by
  refine Maintains.modify (fun state known => ⟨?_, counts state known⟩) trivial
  rw [free.lexer_eq]
  exact known.lexer

theorem addLeaf_keeps (kind : NodeKind) (counts : places.position position) :
    places.Keeps (modify (·.addLeaf kind position)) :=
  change_keeps (State.addLeaf_lexerFree _ _) fun state known other member => by
    rcases List.mem_cons.1 (state.positions_addLeaf kind position member) with rfl | old
    · exact counts
    · exact known.positions other old

theorem openNode_keeps (kind : NodeKind) (counts : places.position position) :
    places.Keeps (modify (·.openNode kind position)) :=
  change_keeps (State.openNode_lexerFree _ _) fun state known other member => by
    rcases List.mem_cons.1 (state.positions_openNode kind position member) with rfl | old
    · exact counts
    · exact known.positions other old

theorem closeNode_keeps : places.Keeps (modify (·.closeNode)) :=
  change_keeps State.closeNode_lexerFree fun state known other member =>
    known.positions other (state.positions_closeNode member)

theorem declare_keeps (declaration : Declaration) :
    places.Keeps (modify (·.declare declaration)) :=
  change_keeps (State.declare_lexerFree _) fun state known other member =>
    known.positions other (state.positions_declare declaration member)

theorem addCode_keeps (closed : places.Closed) (code : String)
    (counts : places.position position) : places.Keeps (modify (·.addCode code position)) :=
  change_keeps (State.addCode_lexerFree _ _) fun state known other member => by
    rcases state.positions_addCode code position other member with plain | ⟨first, old, rfl⟩
    · rcases List.mem_cons.1 plain with rfl | old
      · exact counts
      · exact known.positions other old
    · exact closed.joined first position (known.positions first old) counts

end Changes

section Tokens

theorem lexing_safe {action : Lexing α} {gives : α → Prop}
    (maintains : Maintains places.OfLexer action gives places.error) :
    places.Safe (Parser.lexing action) gives := by
  intro state known
  have holds := maintains state.lexer known.lexer
  rw [Parser.lexing]
  cases ran : action state.lexer with
  | ok result lexer =>
      rw [ran] at holds
      exact ⟨holds.1, holds.2, known.positions⟩
  | error error lexer =>
      rw [ran] at holds
      exact holds

theorem peek_safe (closed : places.Closed) : places.Safe Parser.peek places.OfToken? :=
  lexing_safe (peek_maintains closed 0)

theorem peekKind_keeps (closed : places.Closed) : places.Keeps Parser.peekKind :=
  (peek_safe closed).bind fun _ _ => Maintains.pure trivial

theorem nextIs_keeps (closed : places.Closed) (accepts : TokenKind → Bool) :
    places.Keeps (Parser.nextIs accepts) :=
  (peekKind_keeps closed).bind fun _ _ => Maintains.pure trivial

theorem skip_keeps (closed : places.Closed) : places.Keeps Parser.skip :=
  (lexing_safe (next_maintains closed)).discard

theorem pushMode_keeps (mode : LexMode) : places.Keeps (Parser.pushMode mode) :=
  Maintains.modify (fun _ known => ⟨known.lexer.pushMode mode, known.positions⟩) trivial

theorem popMode_keeps : places.Keeps Parser.popMode :=
  Maintains.modify (fun _ known => ⟨known.lexer.popMode, known.positions⟩) trivial

theorem here_safe : places.Safe Parser.here places.cursor :=
  Maintains.get fun _ known => Maintains.pure known.lexer.taken

theorem spanningFrom_safe (closed : places.Closed) {start : Position}
    (counts : places.position start) : places.Safe (Parser.spanningFrom start) places.position :=
  here_safe.bind fun cursor stop => Maintains.pure (closed.upTo start cursor counts stop)

theorem nextPosition_safe (closed : places.Closed) :
    places.Safe Parser.nextPosition places.position := by
  apply (peek_safe closed).bind
  intro token? counts
  cases token? with
  | some token => exact Maintains.pure (counts token rfl)
  | none =>
      exact Maintains.get fun state known => Maintains.pure (closed.point _ known.lexer.taken)

theorem found_keeps (closed : places.Closed) : places.Keeps Parser.found := by
  apply (peekKind_keeps closed).bind
  intro kind? _
  cases kind? with
  | some kind => exact Maintains.pure trivial
  | none => exact Maintains.pure trivial

theorem failAt_safe {cause : Parse.Cause} {position : Position} {gives : α → Prop}
    (counts : places.position position) : places.Safe (Parser.failAt cause position) gives :=
  fun _ _ => counts

/-- Nothing comes after a failure. -/
theorem failAt_bind {β : Type} {cause : Parse.Cause} {position : Position} {next : α → Parser β}
    {gives : β → Prop} (counts : places.position position) :
    places.Safe (Parser.failAt cause position >>= next) gives :=
  fun _ _ => counts

/-- Failing at the next token. -/
theorem failNext_safe (closed : places.Closed) (cause : String → Parse.Cause)
    {gives : α → Prop} :
    places.Safe (do Parser.failAt (cause (← Parser.found)) (← Parser.nextPosition)) gives :=
  (found_keeps closed).bind fun _ _ => (nextPosition_safe closed).bind fun _ counts =>
    failAt_safe counts

theorem expect_safe (closed : places.Closed) (what : String) (accepts : TokenKind → Bool) :
    places.Safe (Parser.expect what accepts) fun token => places.position token.position := by
  apply (peek_safe closed).bind
  intro token? counts
  cases token? with
  | none => exact failNext_safe closed _
  | some token =>
      simp only
      split
      · exact (skip_keeps closed).bind fun _ _ => Maintains.pure (counts token rfl)
      · exact failNext_safe closed _

theorem expectMark_safe (closed : places.Closed) (what : String) (mark : Punctuation) :
    places.Safe (Parser.expectMark what mark) fun token => places.position token.position :=
  expect_safe closed what _

theorem expectIdentifier_safe (closed : places.Closed) (what : String) :
    places.Safe (Parser.expectIdentifier what) fun named => places.position named.2 := by
  apply (peek_safe closed).bind
  intro token? counts
  split
  · next name position =>
      exact (skip_keeps closed).bind fun _ _ => Maintains.pure (counts _ rfl)
  · exact failNext_safe closed _

theorem skipWhile_keeps (closed : places.Closed) (accepts : TokenKind → Bool) (bound : Nat) :
    places.Keeps (Parser.skipWhile accepts bound) := by
  induction bound with
  | zero => exact Maintains.pure trivial
  | succ bound ih =>
      apply (nextIs_keeps closed accepts).bind
      intro accepted _
      cases accepted with
      | true => exact (skip_keeps closed).bind fun _ _ => ih
      | false => exact Maintains.pure trivial

theorem skipWhitespace_keeps (closed : places.Closed) (bound : Nat) :
    places.Keeps (Parser.skipWhitespace bound) :=
  skipWhile_keeps closed _ bound

end Tokens

section Tags

theorem stringValue_keeps (closed : places.Closed) (bound : Nat) :
    places.Keeps (Parser.stringValue bound) := by
  apply (skipWhitespace_keeps closed bound).bind
  intro _ _
  apply (peekKind_keeps closed).bind
  intro kind? _
  split
  · exact (skip_keeps closed).bind fun _ _ => Maintains.pure trivial
  · exact failNext_safe closed _

theorem optionalValue_keeps (closed : places.Closed) (bound : Nat) :
    places.Keeps (Parser.optionalValue bound) := by
  apply (skipWhitespace_keeps closed bound).bind
  intro _ _
  apply (nextIs_keeps closed _).bind
  intro follows _
  cases follows with
  | true =>
      apply (skip_keeps closed).bind
      intro _ _
      exact (stringValue_keeps closed bound).bind fun _ _ => Maintains.pure trivial
  | false => exact Maintains.pure trivial

theorem bindingValue_keeps (closed : places.Closed) (bound : Nat) (name : String)
    (direction : BindingDirection) : places.Keeps (Parser.bindingValue bound name direction) := by
  apply (skipWhitespace_keeps closed bound).bind
  intro _ _
  apply (expectMark_safe closed _ _).discard.bind
  intro _ _
  exact (stringValue_keeps closed bound).bind fun _ _ => Maintains.pure trivial

theorem roundBinding_keeps (closed : places.Closed) (bound : Nat) :
    places.Keeps (Parser.roundBinding bound) := by
  apply (expectIdentifier_safe closed _).bind
  intro _ _
  apply (expectMark_safe closed _ _).discard.bind
  intro _ _
  exact bindingValue_keeps closed bound _ _

theorem squareBinding_keeps (closed : places.Closed) (bound : Nat) :
    places.Keeps (Parser.squareBinding bound) := by
  apply (nextIs_keeps closed _).bind
  intro follows _
  cases follows with
  | true =>
      apply (skip_keeps closed).bind
      intro _ _
      apply (expectIdentifier_safe closed _).bind
      intro _ _
      apply (expectMark_safe closed _ _).discard.bind
      intro _ _
      apply (expectMark_safe closed _ _).discard.bind
      intro _ _
      exact bindingValue_keeps closed bound _ _
  | false =>
      apply (expectIdentifier_safe closed _).bind
      intro _ _
      apply (expectMark_safe closed _ _).discard.bind
      intro _ _
      exact bindingValue_keeps closed bound _ _

theorem startTagItems_keeps (closed : places.Closed) (bound : Nat) (element : Element) :
    places.Keeps (Parser.startTagItems bound element) := by
  induction bound generalizing element with
  | zero => exact Maintains.pure trivial
  | succ bound ih =>
      apply (skipWhitespace_keeps closed bound).bind
      intro _ _
      apply (peekKind_keeps closed).bind
      intro kind? _
      split
      · exact (skip_keeps closed).bind fun _ _ => Maintains.pure trivial
      · apply (skip_keeps closed).bind
        intro _ _
        exact (expectMark_safe closed _ _).discard.bind fun _ _ => Maintains.pure trivial
      · apply (skip_keeps closed).bind
        intro _ _
        exact (optionalValue_keeps closed bound).bind fun _ _ => ih _
      · apply (skip_keeps closed).bind
        intro _ _
        exact (squareBinding_keeps closed bound).bind fun _ _ => ih _
      · apply (skip_keeps closed).bind
        intro _ _
        exact (roundBinding_keeps closed bound).bind fun _ _ => ih _
      · apply (skip_keeps closed).bind
        intro _ _
        apply (expectIdentifier_safe closed _).bind
        intro _ _
        exact (optionalValue_keeps closed bound).bind fun _ _ => ih _
      · exact failNext_safe closed _
      · exact failNext_safe closed _

theorem startTag_keeps (closed : places.Closed) (bound : Nat) :
    places.Keeps (Parser.startTag bound) := by
  apply (expectIdentifier_safe closed _).bind
  intro _ _
  exact (startTagItems_keeps closed bound _).bind fun _ _ => Maintains.pure trivial

theorem endTag_keeps (closed : places.Closed) (bound : Nat) :
    places.Keeps (Parser.endTag bound) := by
  apply (skip_keeps closed).bind
  intro _ _
  apply (skipWhitespace_keeps closed bound).bind
  intro _ _
  apply (expectIdentifier_safe closed _).bind
  intro _ _
  apply (skipWhitespace_keeps closed bound).bind
  intro _ _
  exact (expectMark_safe closed _ _).discard.bind fun _ _ => Maintains.pure trivial

theorem declarationParameters_keeps (closed : places.Closed) (bound : Nat) :
    places.Keeps (Parser.declarationParameters bound) := by
  induction bound with
  | zero => exact Maintains.pure trivial
  | succ bound ih =>
      apply (skipWhitespace_keeps closed bound).bind
      intro _ _
      apply (peekKind_keeps closed).bind
      intro kind? _
      split
      · apply (skip_keeps closed).bind
        intro _ _
        exact ih.bind fun _ _ => Maintains.pure trivial
      · apply (skip_keeps closed).bind
        intro _ _
        exact ih.bind fun _ _ => Maintains.pure trivial
      · exact (skip_keeps closed).bind fun _ _ => Maintains.pure trivial
      · exact failNext_safe closed _
      · exact failNext_safe closed _

end Tags

section Expressions

theorem nextSpelling_keeps (closed : places.Closed) : places.Keeps Parser.nextSpelling := by
  apply (peek_safe closed).bind
  intro token? _
  cases token? with
  | some token => exact here_safe.bind fun _ _ => Maintains.pure trivial
  | none => exact Maintains.pure trivial

theorem pathSegments_keeps (closed : places.Closed) (bound : Nat) :
    places.Keeps (Parser.pathSegments bound) := by
  induction bound with
  | zero => exact Maintains.pure trivial
  | succ bound ih =>
      apply (nextIs_keeps closed _).bind
      intro follows _
      cases follows with
      | false => exact Maintains.pure trivial
      | true =>
          apply (skip_keeps closed).bind
          intro _ _
          apply (peekKind_keeps closed).bind
          intro kind? _
          split
          · apply (skip_keeps closed).bind
            intro _ _
            exact ih.bind fun _ _ => Maintains.pure trivial
          · apply (nextSpelling_keeps closed).bind
            intro spelling _
            split
            · apply (skip_keeps closed).bind
              intro _ _
              exact ih.bind fun _ _ => Maintains.pure trivial
            · exact failNext_safe closed _
          · exact failNext_safe closed _

theorem path_keeps (closed : places.Closed) (bound : Nat) :
    places.Keeps (Parser.path bound) := by
  apply (expectIdentifier_safe closed _).bind
  intro _ _
  apply (pathSegments_keeps closed bound).bind
  intro segments _
  split
  · exact Maintains.pure trivial
  · exact failNext_safe closed _

theorem expression_keeps (closed : places.Closed) (bound : Nat) :
    places.Keeps (Parser.expression bound) := by
  apply (peekKind_keeps closed).bind
  intro kind? _
  split
  · exact (path_keeps closed bound).bind fun _ _ => Maintains.pure trivial
  · exact (skip_keeps closed).bind fun _ _ => Maintains.pure trivial
  · exact (skip_keeps closed).bind fun _ _ => Maintains.pure trivial
  · exact (skip_keeps closed).bind fun _ _ => Maintains.pure trivial
  · exact (skip_keeps closed).bind fun _ _ => Maintains.pure trivial
  · exact failNext_safe closed _

end Expressions

section Content

theorem interpolation_keeps (closed : places.Closed) (bound : Nat) :
    places.Keeps (Parser.interpolation bound) := by
  apply (nextPosition_safe closed).bind
  intro start counts
  apply (skip_keeps closed).bind
  intro _ _
  apply (pushMode_keeps _).bind
  intro _ _
  apply (skipWhitespace_keeps closed bound).bind
  intro _ _
  apply (expression_keeps closed bound).bind
  intro value _
  apply (skipWhitespace_keeps closed bound).bind
  intro _ _
  apply (expect_safe closed _ _).discard.bind
  intro _ _
  apply popMode_keeps.bind
  intro _ _
  exact (spanningFrom_safe closed counts).bind fun _ => addLeaf_keeps _

theorem failUnclosedElement_safe (closed : places.Closed) {α : Type} {gives : α → Prop} :
    places.Safe Parser.failUnclosedElement gives := by
  refine Maintains.get fun state known => ?_
  split
  · next open? =>
      apply failAt_safe
      apply known.positions
      simp [State.positions, Open.positions, open?]
  · exact failAt_safe closed.start

theorem scriptContent_keeps (closed : places.Closed) (bound : Nat) :
    places.Keeps (Parser.scriptContent bound) := by
  induction bound with
  | zero => exact Maintains.pure trivial
  | succ bound ih =>
      apply (peek_safe closed).bind
      intro token? counts
      split
      · exact failUnclosedElement_safe closed
      · apply (skip_keeps closed).bind
        intro _ _
        exact (addCode_keeps closed _ (counts _ rfl)).bind fun _ _ => ih
      · apply (skip_keeps closed).bind
        intro _ _
        exact (addCode_keeps closed _ (counts _ rfl)).bind fun _ _ => ih
      · exact (interpolation_keeps closed bound).bind fun _ _ => ih
      · apply (skip_keeps closed).bind
        intro _ _
        exact popMode_keeps.bind fun _ _ => closeNode_keeps
      · exact failNext_safe closed _

theorem skipStyle_keeps (closed : places.Closed) (bound : Nat) :
    places.Keeps (Parser.skipStyle bound) := by
  induction bound with
  | zero => exact Maintains.pure trivial
  | succ bound ih =>
      apply (peekKind_keeps closed).bind
      intro kind? _
      split
      · exact Maintains.pure trivial
      · exact (skip_keeps closed).bind fun _ _ => ih
      · exact failUnclosedElement_safe closed

theorem styleContent_keeps (closed : places.Closed) (bound : Nat) :
    places.Keeps (Parser.styleContent bound) := by
  have ending : places.Keeps (do
      Parser.skip
      Parser.popMode
      modify (·.closeNode)) :=
    (skip_keeps closed).bind fun _ _ => popMode_keeps.bind fun _ _ => closeNode_keeps
  apply here_safe.bind
  intro start counts
  apply (skipStyle_keeps closed bound).bind
  intro _ _
  apply here_safe.bind
  intro stop _
  simp only
  split
  · apply (spanningFrom_safe closed (closed.point start counts)).bind
    intro position counts
    exact (addLeaf_keeps _ counts).bind fun _ _ => ending
  · exact ending

theorem textRun_keeps (closed : places.Closed) (bound : Nat) :
    places.Keeps (Parser.textRun bound) := by
  apply here_safe.bind
  intro start counts
  apply (skipWhile_keeps closed _ bound).bind
  intro _ _
  apply here_safe.bind
  intro stop _
  exact (spanningFrom_safe closed (closed.point start counts)).bind fun _ => addLeaf_keeps _

end Content

section Constructs

variable {start : Position}

theorem element_keeps (closed : places.Closed) (bound : Nat) (counts : places.position start) :
    places.Keeps (Parser.element bound start) := by
  apply (startTag_keeps closed bound).bind
  intro tag _
  apply popMode_keeps.bind
  intro _ _
  apply (spanningFrom_safe closed counts).bind
  intro position spans
  split
  · exact addLeaf_keeps _ spans
  · apply (openNode_keeps _ spans).bind
    intro _ _
    split
    · exact (pushMode_keeps _).bind fun _ _ => scriptContent_keeps closed bound
    · split
      · exact (pushMode_keeps _).bind fun _ _ => styleContent_keeps closed bound
      · exact Maintains.pure trivial

theorem elementEnd_keeps (closed : places.Closed) (bound : Nat)
    (counts : places.position start) : places.Keeps (Parser.elementEnd bound start) := by
  apply (endTag_keeps closed bound).bind
  intro name _
  apply popMode_keeps.bind
  intro _ _
  apply (spanningFrom_safe closed counts).bind
  intro position spans
  refine Maintains.get fun state known => ?_
  split
  · split
    · exact closeNode_keeps
    · exact failAt_safe spans
  · exact failAt_safe spans

theorem declaration_keeps (closed : places.Closed) (bound : Nat)
    (counts : places.position start) : places.Keeps (Parser.declaration bound start) := by
  refine Maintains.get fun state known => ?_
  simp only
  split
  · exact failAt_bind counts
  · apply (skip_keeps closed).bind
    intro _ _
    apply (expectIdentifier_safe closed _).bind
    intro named _
    apply (declarationParameters_keeps closed bound).bind
    intro parameters _
    apply popMode_keeps.bind
    intro _ _
    exact (spanningFrom_safe closed counts).bind fun _ _ => declare_keeps _

theorem tag_keeps (closed : places.Closed) (bound : Nat) : places.Keeps (Parser.tag bound) := by
  apply (nextPosition_safe closed).bind
  intro start counts
  apply (skip_keeps closed).bind
  intro _ _
  apply (pushMode_keeps _).bind
  intro _ _
  apply (peekKind_keeps closed).bind
  intro kind? _
  split
  · exact elementEnd_keeps closed bound counts
  · exact declaration_keeps closed bound counts
  · exact element_keeps closed bound counts
  · exact failNext_safe closed _

theorem loopHeader_keeps (closed : places.Closed) (bound : Nat) :
    places.Keeps (Parser.loopHeader bound) := by
  apply (skipWhitespace_keeps closed bound).bind
  intro _ _
  apply (expectMark_safe closed _ _).discard.bind
  intro _ _
  apply (skipWhitespace_keeps closed bound).bind
  intro _ _
  apply (expectIdentifier_safe closed _).bind
  intro _ _
  apply (skipWhitespace_keeps closed bound).bind
  intro _ _
  apply (expectIdentifier_safe closed _).bind
  intro _ _
  apply (skipWhitespace_keeps closed bound).bind
  intro _ _
  apply (path_keeps closed bound).bind
  intro _ _
  apply (skipWhitespace_keeps closed bound).bind
  intro _ _
  apply (expectMark_safe closed _ _).discard.bind
  intro _ _
  exact (skipWhitespace_keeps closed bound).bind fun _ _ => Maintains.pure trivial

theorem statement_keeps (closed : places.Closed) (bound : Nat) :
    places.Keeps (Parser.statement bound) := by
  apply (nextPosition_safe closed).bind
  intro start counts
  apply (skip_keeps closed).bind
  intro _ _
  apply (pushMode_keeps _).bind
  intro _ _
  apply (skipWhitespace_keeps closed bound).bind
  intro _ _
  apply (expectIdentifier_safe closed _).bind
  intro keyword keywordCounts
  simp only
  split
  · exact failAt_bind keywordCounts
  · apply (loopHeader_keeps closed bound).bind
    intro header _
    apply (expectMark_safe closed _ _).bind
    intro brace braceCounts
    apply popMode_keeps.bind
    intro _ _
    apply (spanningFrom_safe closed counts).bind
    intro position spans
    exact (openNode_keeps _ spans).bind fun _ _ => openNode_keeps _ braceCounts

theorem blockStart_keeps (closed : places.Closed) : places.Keeps Parser.blockStart := by
  apply (nextPosition_safe closed).bind
  intro position counts
  exact (skip_keeps closed).bind fun _ _ => openNode_keeps _ counts

theorem blockEnd_keeps (closed : places.Closed) : places.Keeps Parser.blockEnd := by
  apply (nextPosition_safe closed).bind
  intro position counts
  apply (skip_keeps closed).bind
  intro _ _
  refine Maintains.get fun state known => ?_
  split
  · apply closeNode_keeps.bind
    intro _ _
    refine Maintains.get fun state known => ?_
    split
    · exact closeNode_keeps
    · exact Maintains.pure trivial
  · exact failAt_safe counts

theorem construct_keeps (closed : places.Closed) (bound : Nat) {token : Token}
    (counts : places.position token.position) : places.Keeps (Parser.construct bound token) := by
  unfold Parser.construct
  split
  · exact textRun_keeps closed bound
  · exact textRun_keeps closed bound
  · exact textRun_keeps closed bound
  · exact textRun_keeps closed bound
  · exact (skip_keeps closed).bind fun _ _ => addLeaf_keeps _ counts
  · exact tag_keeps closed bound
  · exact interpolation_keeps closed bound
  · exact statement_keeps closed bound
  · exact blockStart_keeps closed
  · exact blockEnd_keeps closed
  · exact failNext_safe closed _

theorem markup_keeps (closed : places.Closed) (bound : Nat) :
    places.Keeps (Parser.markup bound) := by
  induction bound with
  | zero => exact Maintains.pure trivial
  | succ bound ih =>
      apply (peek_safe closed).bind
      intro token? counts
      cases token? with
      | none => exact Maintains.pure trivial
      | some token => exact (construct_keeps closed bound (counts token rfl)).bind fun _ _ => ih

end Constructs

section Templates

theorem frontMatter_keeps (closed : places.Closed) : places.Keeps Parser.frontMatter := by
  apply (pushMode_keeps _).bind
  intro _ _
  apply (lexing_safe (next_maintains closed)).bind
  intro token? _
  apply popMode_keeps.bind
  intro _ _
  split
  · exact Maintains.modify (fun _ known => ⟨known.lexer, known.positions⟩) trivial
  · exact Maintains.pure trivial

theorem mem_positions_of_unclosed? {state : State} {construct : Open}
    (unclosed : state.unclosed? = some construct) : construct.position ∈ state.positions := by
  unfold State.unclosed? at unclosed
  split at unclosed
  · next open? =>
      split at unclosed
      all_goals
        obtain rfl := Option.some.inj unclosed
        simp [State.positions, Open.positions, open?]
  · next open? =>
      obtain rfl := Option.some.inj unclosed
      simp [State.positions, Open.positions, open?]
  · contradiction

theorem expectNothingOpen_keeps : places.Keeps Parser.expectNothingOpen := by
  refine Maintains.get fun state known => ?_
  split
  · next construct unclosed =>
      exact failAt_safe (known.positions _ (mem_positions_of_unclosed? unclosed))
  · exact Maintains.pure trivial

theorem template_keeps (closed : places.Closed) (bound : Nat) :
    places.Keeps (Parser.template bound) :=
  (frontMatter_keeps closed).bind fun _ _ => (markup_keeps closed bound).bind fun _ _ =>
    expectNothingOpen_keeps

/-- If the beginning of a source counts, then so do the positions of all nodes of its
template, or else the position of the error. -/
theorem of_parse (closed : places.Closed) (text : String)
    (first : places.cursor (.ofText text.toList)) :
    match Template.parse text with
    | .ok template => ∀ position ∈ Node.allPositions template.children, places.position position
    | .error error => places.OfError error := by
  have initial : places.OfState (.ofText text.toList) :=
    ⟨⟨first, first, List.forall_mem_nil _⟩, List.forall_mem_nil _⟩
  have kept := template_keeps closed (text.toList.length + 1) _ initial
  cases ran : Parser.template (text.toList.length + 1) (.ofText text.toList) with
  | ok result state =>
      rw [ran] at kept
      rw [Parser.parse_of_ok ran]
      intro position member
      apply kept.2.positions
      exact List.mem_append_right _ (Node.mem_allPositions_reverse.1 member)
  | error error state =>
      rw [ran] at kept
      rw [Parser.parse_of_error ran]
      exact kept

end Templates

end Places

end TemplateCompiler
