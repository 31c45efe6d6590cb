import TemplateCompiler.Proofs.Parse.Declarations
import TemplateCompiler.Proofs.Parse.Kinds
import TemplateCompiler.Proofs.Source.Boundaries

/-!
# Declarations come first

Nothing stands before a declaration but the front matter, other declarations and white
space.  The white space is passed over: it was read as texts, which are no part of the tree.
Behind the last declaration every character belongs to the tree.

The parser looks for this when it comes to a declaration, and it looks at what it has built
at the top only.  That this is enough is shown for every state it comes to between two
constructs.
-/

namespace TemplateCompiler

open Parse Text

section Places

/-- Whether a byte of a source belongs to none of some declarations. -/
def Declaration.noneAt (declarations : List Declaration) (place : Nat) : Bool :=
  declarations.all fun declaration =>
    place < declaration.position.span.start || declaration.position.span.stop ≤ place

variable {source before piece : List Char} {dropped : List Node}
  {declarations : List Declaration}

namespace SpellDeclarations

variable (declared : SpellDeclarations source before declarations dropped piece)

include declared

theorem within : ∀ declaration ∈ declarations,
    byteLength before ≤ declaration.position.span.start ∧
      declaration.position.span.stop ≤ byteLength (before ++ piece) := by
  induction declared with
  | nil => exact nofun
  | @concat declarations dropped piece texts blank own declaration earlier spelled white covers
      written ih =>
      simp only [byteLength_append] at ih ⊢
      intro other member
      rcases List.mem_append.1 member with member | member
      · have := ih other member
        omega
      · obtain rfl := List.mem_singleton.1 member
        rw [covers.span]
        simp only [byteLength_append]
        omega

/-- Declarations are in the order of the source, and each is a stretch of its own. -/
theorem ordered : declarations.Pairwise fun first second =>
    first.position.span.stop ≤ second.position.span.start := by
  induction declared with
  | nil => exact List.Pairwise.nil
  | @concat declarations dropped piece texts blank own declaration earlier spelled white covers
      written ih =>
      refine List.pairwise_append.2 ⟨ih, List.pairwise_singleton _ _, fun first member => ?_⟩
      have within := (earlier.within first member).2
      simp only [List.mem_singleton, forall_eq, covers.span]
      simp only [byteLength_append] at within ⊢
      omega

theorem written : ∀ declaration ∈ declarations, declaration.IsWritten
    (slice declaration.position.span.start declaration.position.span.stop source) := by
  induction declared with
  | nil => exact nofun
  | concat earlier spelled white covers written ih =>
      refine List.forall_mem_append.2 ⟨ih, List.forall_mem_singleton.2 ?_⟩
      rw [covers.slice]
      exact written

theorem ended : byteLength (before ++ piece) =
    (declarations.getLast?.map (·.position.span.stop)).getD (byteLength before) := by
  cases declared with
  | nil => simp
  | concat earlier spelled white covers written => simp [covers.span]

/-- What stands between declarations is the text of the nodes that were dropped. -/
theorem between (allBlank : ∀ node ∈ dropped, node.IsBlank) :
    charactersAt (Declaration.noneAt declarations) (byteLength before) piece =
        dropped.flatMap Node.ownText ∧
      ∀ node ∈ dropped,
        slice node.position.span.start node.position.span.stop source = node.ownText := by
  induction declared with
  | nil => exact ⟨rfl, nofun⟩
  | @concat declarations dropped piece texts blank own declaration earlier spelled white covers
      written ih =>
      obtain ⟨blankEarlier, blankTexts⟩ := List.forall_mem_append.1 allBlank
      obtain ⟨earlierEq, slicesEarlier⟩ := ih blankEarlier
      obtain ⟨textsEq, slicesTexts⟩ := spelled.of_isBlank blankTexts
      refine ⟨?_, List.forall_mem_append.2 ⟨slicesEarlier, slicesTexts⟩⟩
      have startEq := congrArg Span.start covers.span
      have stopEq := congrArg Span.stop covers.span
      simp only [byteLength_append] at startEq stopEq
      -- the earlier declarations end where the white space begins, the new one begins where it ends
      have noneEarlier : ∀ place, byteLength (before ++ piece) ≤ place →
          Declaration.noneAt declarations place = true := by
        intro place low
        refine List.all_eq_true.2 fun other member => ?_
        have := (earlier.within other member).2
        simp only [Bool.or_eq_true, decide_eq_true_eq]
        omega
      have noneBefore : charactersAt (Declaration.noneAt (declarations ++ [declaration]))
          (byteLength before) piece = dropped.flatMap Node.ownText := by
        rw [← earlierEq]
        apply charactersAt_congr
        intro place _ high
        have outside : place < declaration.position.span.start := by omega
        simp [Declaration.noneAt, outside]
      have allBetween : charactersAt (Declaration.noneAt (declarations ++ [declaration]))
          (byteLength before + byteLength piece) blank = blank := by
        apply charactersAt_all
        intro place low high
        have outside : place < declaration.position.span.start := by omega
        have := noneEarlier place (by rw [byteLength_append]; exact low)
        rw [Declaration.noneAt] at this ⊢
        simp [this, outside]
      have noneInside : charactersAt (Declaration.noneAt (declarations ++ [declaration]))
          (byteLength before + byteLength piece + byteLength blank) own = [] := by
        apply charactersAt_none
        intro place low high
        simp only [Declaration.noneAt, List.all_append, List.all_cons, List.all_nil,
          Bool.and_true, Bool.and_eq_false_iff, Bool.or_eq_false_iff, decide_eq_false_iff_not]
        omega
      rw [charactersAt_append, charactersAt_append, noneBefore, allBetween, noneInside,
        List.append_nil, textsEq, List.flatMap_append]

end SpellDeclarations

end Places

section Trees

/-- Whether the declarations of a template stand before all of its nodes, with nothing but
white space between them. -/
structure Template.DeclaresFirst (source : List Char) (template : Template) : Prop where
  ordered : template.document.declarations.Pairwise fun first second =>
    first.position.span.stop ≤ second.position.span.start
  written : ∀ declaration ∈ template.document.declarations, declaration.IsWritten
    (slice declaration.position.span.start declaration.position.span.stop source)
  before : ∀ declaration ∈ template.document.declarations,
    ∀ start ∈ Node.startsAll template.children, declaration.position.span.stop ≤ start
  /-- The nodes that cannot be reached are those that were dropped. -/
  unreachable : ∀ id < template.size,
    id ∉ template.root.preorder ↔ id ∈ template.dropped.map Node.id
  dropped : ∀ node ∈ template.dropped, node.IsDropped template.document.declarations ∧
    slice node.position.span.start node.position.span.stop source = node.ownText
  /-- The source consists of the front matter, the declarations with what was dropped, and
  what the nodes stand for. -/
  divided : ∃ matter prologue body, source = matter ++ (prologue ++ body) ∧
    Lex.scanFrontMatter true source =
      .ok (some ⟨.frontMatter template.document.frontMatter, matter.length⟩) ∧
    byteLength (matter ++ prologue) =
      (template.document.declarations.getLast?.map (·.position.span.stop)).getD
        (byteLength matter) ∧
    charactersAt (Declaration.noneAt template.document.declarations) (byteLength matter)
      prologue = template.dropped.flatMap Node.ownText ∧
    (∀ c ∈ template.dropped.flatMap Node.ownText, Text.isWhiteSpace c = true) ∧
    Node.SpellAll source template.children (matter ++ prologue) body

theorem Node.preorders_of_childless {nodes : List Node}
    (childless : ∀ node ∈ nodes, node.children = []) :
    Node.preorders nodes = nodes.map Node.id := by
  induction nodes with
  | nil => rfl
  | cons first others ih =>
      obtain ⟨id, kind, position, children⟩ := first
      obtain ⟨childlessFirst, childlessOthers⟩ := List.forall_mem_cons.1 childless
      obtain rfl : children = [] := childlessFirst
      rw [preorders, ih childlessOthers]
      rfl

/-- A node was made for each number, and it is in the tree or was dropped. -/
theorem Template.Shaped.unreachable {template : Template} (shaped : template.Shaped) {id : Nat}
    (made : id < template.size) :
    id ∉ template.root.preorder ↔ id ∈ template.dropped.map Node.id := by
  rw [← Node.preorders_of_childless fun node member => (shaped.dropped node member).childless]
  have somewhere := shaped.numbers.mem_iff.2 (List.mem_range.2 made)
  have once := shaped.numbers.nodup_iff.2 List.nodup_range
  obtain ⟨-, -, apart⟩ := List.nodup_append.1 once
  constructor
  · exact fun outside => (List.mem_append.1 somewhere).resolve_left outside
  · exact fun droppedNow inside => apart id inside id droppedNow rfl

theorem Parser.declaresFirst_of_parse {text : String} {template : Template}
    (parsed : Template.parse text = .ok template) (short : text.utf8ByteSize ≤ maxOffset) :
    template.DeclaresFirst text.toList := by
  have shaped := shaped_of_parse parsed
  obtain ⟨matter, prologue, body, sourceEq, scanned, declared, spelled⟩ :=
    tiled_of_parse parsed short
  have isBlank : ∀ node ∈ template.dropped, node.IsBlank :=
    fun node member => (shaped.dropped node member).blank
  obtain ⟨betweenEq, slices⟩ := declared.between isBlank
  have within := declared.within
  refine ⟨declared.ordered, declared.written, fun declaration member start startMember => ?_,
    fun id made => shaped.unreachable made,
    fun node member => ⟨shaped.dropped node member, slices node member⟩,
    matter, prologue, body, sourceEq, scanned, declared.ended, betweenEq,
    Node.white_of_isBlank isBlank, spelled⟩
  exact (within declaration member).2.trans (spelled.starts_increasing.2 start startMember).1

end Trees

section Visits

/-- The states that the parser comes to between two constructs of a text, each with the bound
that is left. -/
inductive Parser.Visits (text : String) : (bound : Nat) → State → Prop
  | start {state : State} (read : frontMatter (.ofText text.toList) = .ok () state) :
      Visits text (text.toList.length + 1) state
  | construct {bound : Nat} {before middle after : State} {token : Token}
      (earlier : Visits text (bound + 1) before)
      (looked : peek before = .ok (some token) middle)
      (read : Parser.construct bound token middle = .ok () after) : Visits text bound after

/-- The state behind the front matter, with the bound for all constructs. -/
def Parser.started? (text : String) : Option (Nat × State) :=
  match frontMatter (.ofText text.toList) with
  | .ok _ state => some (text.toList.length + 1, state)
  | .error _ _ => none

/-- The state behind one more construct, with the bound that is left. -/
def Parser.following? : Nat × State → Option (Nat × State)
  | (0, _) => none
  | (bound + 1, before) =>
      match peek before with
      | .ok (some token) middle =>
          match Parser.construct bound token middle with
          | .ok _ after => some (bound, after)
          | .error _ _ => none
      | _ => none

/-- The state after a number of constructs, with the bound that is left. -/
def Parser.visited? (text : String) (constructs : Nat) : Option (Nat × State) :=
  ((Option.bind · following?)^[constructs]) (started? text)

/-- Whether a construct is open, or a node other than white space was read. -/
def Parse.State.IsPastStart (state : State) : Prop :=
  state.enclosing ≠ [] ∨
    ¬Node.AllHold (fun kind => ∃ content, kind = .text content ∧ Text.isBlank content = true)
      (state.dropped ++ state.top)

variable {text : String} {state before after : State} {bound : Nat}

theorem Parser.visits_of_started? (started : started? text = some (bound, state)) :
    Visits text bound state := by
  unfold started? at started
  split at started
  · next read =>
      cases started
      exact .start read
  · contradiction

theorem Parser.Visits.following {earlier : Nat × State} (visits : Visits text earlier.1 earlier.2)
    (follows : following? earlier = some (bound, state)) : Visits text bound state := by
  unfold following? at follows
  split at follows
  · contradiction
  · split at follows
    · next looked =>
        split at follows
        · next read =>
            cases follows
            exact .construct visits looked read
        · contradiction
    · contradiction

theorem Parser.visits_of_visited? {constructs : Nat}
    (visited : visited? text constructs = some (bound, state)) : Visits text bound state := by
  induction constructs generalizing bound state with
  | zero => exact visits_of_started? visited
  | succ constructs ih =>
      rw [visited?, Function.iterate_succ_apply'] at visited
      obtain ⟨earlier, visitedEarlier, follows⟩ := Option.bind_eq_some_iff.1 visited
      exact (ih visitedEarlier).following follows

theorem Parse.Steps.exists_cursor_eq (steps : Steps before after) :
    ∃ count, after.cursor = before.cursor.advanceBy count := by
  induction steps with
  | refl => exact ⟨0, rfl⟩
  | tail _ step ih =>
      obtain ⟨count, middleEq⟩ := ih
      obtain ⟨piece, -, afterEq⟩ := step.exists_piece
      exact ⟨count + piece.length, by
        rw [afterEq, State.cursor_after, middleEq, Cursor.advanceBy_add]⟩

namespace Parser

/-- What holds between two constructs: what the parser still does is what it does in all, and
it has come there in steps. -/
structure IsBetween (text : String) (bound : Nat) (state : State) : Prop where
  template : Parser.template (text.toList.length + 1) (.ofText text.toList) =
    (do markup bound; expectNothingOpen : Parser Unit) state
  ready : state.lexer.Ready
  steps : ∃ content length, Steps (behindMatter text.toList content length) state.settled
  ordinary : IsOrdinary state.settled.frames
  separated : IsSeparated state.settled
  modes : state.settled.modes = []
  enough : state.settled.rest.length < bound

theorem IsBetween.start (read : frontMatter (.ofText text.toList) = .ok () state) :
    IsBetween text (text.toList.length + 1) state := by
  cases scanned : Lex.scanFrontMatter true text.toList with
  | error fault =>
      obtain ⟨error, after, failed⟩ := frontMatter_error scanned
      rw [failed] at read
      cases read
  | ok lexeme? =>
      obtain ⟨content, length, rfl⟩ := Lex.exists_of_scanFrontMatter scanned
      obtain ⟨after, readNow, ready, settledEq⟩ := frontMatter_ok scanned
      obtain rfl : after = state := by
        rw [readNow] at read
        cases read
        rfl
      refine ⟨?_, ready, ⟨content, length, settledEq ▸ .refl⟩, ?_, ?_, ?_, ?_⟩
      · rw [Parser.template, run_bind, readNow]
      · rw [settledEq]
        exact isOrdinary_behindMatter text.toList content length
      · rw [settledEq]
        exact isSeparated_of_empty rfl
      · rw [settledEq]
        rfl
      · rw [settledEq]
        exact length_rest_behindMatter_lt text.toList content length

theorem IsBetween.construct {middle : State} {token : Token}
    (between : IsBetween text (bound + 1) before)
    (looked : peek before = .ok (some token) middle)
    (read : Parser.construct bound token middle = .ok () after) : IsBetween text bound after := by
  have looks : Meets (peek >>= pure) before.settled
      (fun token? state => state = before.settled ∧ ∀ token ∈ token?, ∃ kind piece,
        before.settled.Next kind piece ∧ piece ≠ [] ∧ kind.IsSpelled piece ∧
          token = ⟨kind, before.settled.spanOf piece⟩)
      fun _ => True :=
    Meets.peek
      (fun kind piece known nonempty spelled => Meets.pure
        ⟨rfl, fun _ member =>
          ⟨kind, piece, known, nonempty, spelled, (Option.some.inj member).symm⟩⟩)
      (fun _ => Meets.pure ⟨rfl, fun _ member => by cases member⟩) fun _ _ => trivial
  have found := looks before between.ready rfl
  rw [run_bind, looked] at found
  obtain ⟨readyMiddle, settledEq, known⟩ := found
  obtain ⟨kind, piece, next, nonempty, spelled, rfl⟩ := known token rfl
  have advances := construct_meets between.ordinary between.separated next nonempty spelled
    (Nat.lt_succ_iff.1 between.enough) middle readyMiddle settledEq
  rw [read] at advances
  obtain ⟨readyAfter, advances⟩ := advances
  obtain ⟨content, length, steps⟩ := between.steps
  refine ⟨?_, readyAfter, ⟨content, length, steps.trans advances.steps⟩, advances.ordinary,
    advances.separated, advances.modes.trans between.modes, ?_⟩
  · rw [between.template, markup]
    simp only [run_bind, looked, read]
  · have := advances.shorter
    have := between.enough
    omega

theorem Visits.isBetween (visits : Visits text bound state) : IsBetween text bound state := by
  induction visits with
  | start read => exact .start read
  | construct earlier looked read ih => exact ih.construct looked read

/-- The parser has read up to a character of its source. -/
theorem IsBetween.exists_front (between : IsBetween text bound state) (more : state.rest ≠ []) :
    ∃ front, text.toList = front ++ state.rest ∧
      state.cursor = (Cursor.ofText text.toList).advanceBy front.length := by
  obtain ⟨content, length, steps⟩ := between.steps
  obtain ⟨count, cursorEq⟩ := steps.exists_cursor_eq
  have fromStart : state.cursor = (Cursor.ofText text.toList).advanceBy (length + count) := by
    rw [Cursor.advanceBy_add]
    exact cursorEq
  have restEq : state.rest = text.toList.drop (length + count) := by
    rw [State.rest, fromStart, Cursor.advanceBy_rest]
    rfl
  have inside : length + count ≤ text.toList.length := by
    by_contra outside
    exact more (restEq.trans (List.drop_eq_nil_of_le (by omega)))
  refine ⟨text.toList.take (length + count), ?_, ?_⟩
  · rw [restEq, List.take_append_drop]
  · rw [List.length_take_of_le inside, fromStart]

/-- At the start nothing is open and all that was read is white space. -/
theorem IsBetween.atStart_eq_false (between : IsBetween text bound state)
    (past : state.IsPastStart) : state.atStart = false := by
  obtain ⟨content, length, steps⟩ := between.steps
  obtain ⟨shaped, -, drops⟩ := steps.shaped ⟨.nil, Node.isMarkup_nil, trivial⟩
    (List.Perm.refl _) ⟨nofun, nofun⟩
  rw [← Bool.not_eq_true]
  intro atStart
  obtain ⟨closed, topEq⟩ := shaped.top_of_atStart atStart
  rcases past with someOpen | notBlank
  · exact someOpen closed
  refine notBlank (Node.allHold_iff.2 fun node member => ?_)
  have holds : ∀ {node : Node}, node.IsBlank → node.children = [] → node.Holds
      fun kind => ∃ content, kind = .text content ∧ Text.isBlank content = true := by
    rintro ⟨id, kind, position, children⟩ blank rfl
    exact ⟨blank, trivial⟩
  rcases List.mem_append.1 member with member | member
  · have dropped := drops.dropped node member
    exact holds dropped.blank dropped.childless
  · rcases topEq with empty | ⟨only, topEq, blank, childless⟩
    · rw [show state.top = [] from empty] at member
      cases member
    · rw [show state.top = [only] from topEq] at member
      obtain rfl := List.mem_singleton.1 member
      exact holds blank childless

/-- A declaration that does not stand at the start is an error at its bracket. -/
theorem rejects_declaration {behind : List Char} (modes : before.modes = [])
    (restEq : before.rest = ['<', '!'] ++ behind) (noComment : ¬['-', '-'] <+: behind)
    (past : before.atStart = false) :
    Rejects before (.grammatical .misplacedDeclaration (before.spanOf ['<'])) := by
  have modeEq : before.mode = .markup := congrArg (·.headD .markup) modes
  have restSplit : before.rest = ['<'] ++ (['!'] ++ behind) := restEq
  have known : before.Next (.punctuation .less) ['<'] :=
    next_of_rest modeEq restSplit (Lex.scanMarkup_bang noComment)
  apply Rejects.of_construct known
  intro bound
  have restThen : (inTag before).rest = ['!'] ++ behind := by
    change (before.after ['<']).rest = _
    rw [State.rest_after, restSplit]
    rfl
  have bang : (inTag before).Next (.punctuation .bang) ['!'] := next_of_rest rfl restThen rfl
  have pastThen : (inTag before).atStart = false := past
  apply Meets.enter known (by decide)
  apply Meets.bind_runs (peekKind_runs bang.scanned)
  apply Meets.get (fun _ => rfl)
  simp only [pastThen, Bool.not_false, if_true]
  have fails : Meets (failAt .misplacedDeclaration (before.spanOf ['<']) : Parser PUnit)
      (inTag before) (fun _ _ => False) fun found => found =
        .grammatical .misplacedDeclaration (before.spanOf ['<']) := Meets.failAt rfl
  exact fails.bind fun _ _ impossible => impossible.elim

theorem Visits.parse_eq_error {behind : List Char} (visits : Visits text bound state)
    (restEq : state.rest = ['<', '!'] ++ behind) (noComment : ¬['-', '-'] <+: behind)
    (past : state.IsPastStart) :
    Template.parse text =
      .error (.grammatical .misplacedDeclaration (state.cursor.mark.position.withLength 1)) := by
  have between := visits.isBetween
  have rejects := rejects_declaration between.modes restEq noComment
    (between.atStart_eq_false past)
  have meets : Meets (do markup bound; expectNothingOpen) state.settled (fun _ _ => False)
      fun found => found = _ :=
    Meets.bind (rejects bound between.enough) fun _ _ impossible => impossible.elim
  have ran := meets state between.ready rfl
  cases ended : (do markup bound; expectNothingOpen : Parser Unit) state with
  | ok result after =>
      rw [ended] at ran
      exact ran.2.elim
  | error error after =>
      rw [ended] at ran
      rw [ran] at ended
      exact parse_of_error (between.template.trans ended)

end Parser

end Visits

/-- Declarations come before all nodes of a template, and nothing but white space is passed
over.  A declaration that is opened inside of a construct, or after anything but white space
and declarations, is an error at its bracket. -/
theorem Template.declarations_lead (text : String) :
    (∀ template, Template.parse text = .ok template → text.utf8ByteSize ≤ maxOffset →
      template.DeclaresFirst text.toList) ∧
    ∀ bound state behind, Parser.Visits text bound state →
      state.rest = ['<', '!'] ++ behind → ¬['-', '-'] <+: behind → state.IsPastStart →
        ∃ front error, text.toList = front ++ (['<', '!'] ++ behind) ∧
          Template.parse text = .error error ∧ error.diagnostic.code.text = "E1005" ∧
          error.diagnostic.position =
            some (((Cursor.ofText text.toList).advanceBy front.length).mark.position.withLength
              1) := by
  refine ⟨fun template parsed short => Parser.declaresFirst_of_parse parsed short, ?_⟩
  intro bound state behind visits restEq noComment past
  have more : state.rest ≠ [] := restEq ▸ List.cons_ne_nil _ _
  obtain ⟨front, sourceEq, cursorEq⟩ := visits.isBetween.exists_front more
  refine ⟨front, _, restEq ▸ sourceEq, visits.parse_eq_error restEq noComment past, rfl, ?_⟩
  rw [← cursorEq]
  rfl

/-- A source with two declarations, each behind white space, and an element. -/
def Template.declaringSource : String :=
  "---\na\n---\n <!a>\n\u00a0<!b c>\n<p></p>"

/-- A source with a declaration in an element. -/
def Template.misdeclaringSource : String :=
  "<!a>\n<p><!b></p>"

theorem Template.declarations_lead_sources :
    (∃ template, Template.parse declaringSource = .ok template ∧
      template.DeclaresFirst declaringSource.toList) ∧
    ∃ error, Template.parse misdeclaringSource = .error error ∧
      error.diagnostic.code.text = "E1005" ∧
      error.diagnostic.position = some ⟨2, 4, 8, some 1⟩ := by
  constructor
  · have accepted : (Template.parse declaringSource).isOk = true := by decide +kernel
    obtain ⟨template, parsed⟩ := exists_eq_ok accepted
    exact ⟨template, parsed,
      (Template.declarations_lead declaringSource).1 template parsed (by decide +kernel)⟩
  · have reaches : (Parser.visited? misdeclaringSource 3).any (fun (_, state) =>
        state.rest = "<!b></p>".toList ∧ !state.enclosing.isEmpty) = true := by decide +kernel
    obtain ⟨⟨bound, state⟩, visited, reached⟩ := (Option.any_eq_true _ _).1 reaches
    obtain ⟨restEq, someOpen⟩ := of_decide_eq_true reached
    have past : state.IsPastStart := .inl (by simpa using someOpen)
    obtain ⟨front, error, sourceEq, failed, codeEq, positionEq⟩ :=
      (Template.declarations_lead misdeclaringSource).2 bound state "b></p>".toList
        (Parser.visits_of_visited? visited) restEq (by decide) past
    obtain rfl : front = "<!a>\n<p>".toList :=
      List.append_cancel_right (sourceEq.symm.trans (by decide +kernel))
    exact ⟨error, failed, codeEq, positionEq.trans (by decide +kernel)⟩

end TemplateCompiler
