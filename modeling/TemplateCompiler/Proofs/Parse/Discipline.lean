import TemplateCompiler.Proofs.Lex.Ledger
import TemplateCompiler.Proofs.Parse.Building
import TemplateCompiler.Proofs.Parse.Tokens

/-!
# Tokens held between parser actions

The parser never looks further than one token ahead.  The rules here follow an
action through the states it really goes through, the tokens that are held
included: in which modes the parser stands, how much is left to read, and
whether a token is held.  Every action keeps the log of the lexer in order, also
when it fails, and it fails with no error that cannot occur.
-/

namespace TemplateCompiler

namespace Parse

/-- Whether an error can occur.  Every token of markup begins a construct, and
every token of a script is part of its content. -/
def Error.CanOccur : Error → Prop
  | .grammatical (.unexpected _ .markup) _ => False
  | .grammatical (.unexpected _ .script) _ => False
  | _ => True

namespace State

/-- Where the parser stands: in which modes, with how much left to read at most,
and with how many tokens held at most. -/
structure Stands (modes : List LexMode) (left held : Nat) (state : State) : Prop where
  ready : state.lexer.Ready
  ledger : state.lexer.Ledger
  modesEq : state.lexer.modes = modes
  restLe : state.lexer.taken.rest.length ≤ left
  heldLe : state.lexer.lookahead.length ≤ held

/-- The next token is the only one held; if there is none, none is held. -/
def Faces (token? : Option Token) (state : State) : Prop :=
  state.lexer.lookahead.map (·.token) = token?.toList

variable {state : State} {modes : List LexMode} {left held : Nat}

theorem Stands.holdsNone (stands : state.Stands modes left 0) : state.lexer.lookahead = [] :=
  List.length_eq_zero_iff.1 (Nat.le_zero.1 stands.heldLe)

theorem Stands.mono {more : Nat} (stands : state.Stands modes left 0) (le : left ≤ more) :
    state.Stands modes more 1 :=
  { stands with
    restLe := stands.restLe.trans le
    heldLe := stands.heldLe.trans (Nat.zero_le 1) }

theorem Stands.of_lexer {other : State} (stands : state.Stands modes left held)
    (same : other.lexer = state.lexer) : other.Stands modes left held := by
  obtain ⟨ready, ledger, modesEq, restLe, heldLe⟩ := stands
  exact ⟨same ▸ ready, same ▸ ledger, same ▸ modesEq, same ▸ restLe, same ▸ heldLe⟩

theorem Stands.mode_eq {mode : LexMode} {outer : List LexMode}
    (stands : state.Stands (mode :: outer) left held) : state.lexer.mode = mode := by
  rw [Lexer.mode, stands.modesEq]
  rfl

/-- A token that is held was read in the mode in force, from the place behind the
last token taken. -/
theorem Faces.scannedAt {token : Token} (faces : state.Faces (some token))
    (ready : state.lexer.Ready) :
    ∃ scanned, state.lexer.lookahead = [scanned] ∧ scanned.token = token ∧
      Lexer.scannedAt state.lexer.mode state.lexer.taken = .ok (some scanned) := by
  cases held : state.lexer.lookahead with
  | nil => simp [Faces, held] at faces
  | cons scanned later =>
      have follows := ready.follows
      rw [held] at follows
      simp only [Faces, held, List.map_cons, Option.toList_some, List.cons.injEq,
        List.map_eq_nil_iff] at faces
      exact ⟨scanned, by rw [faces.2], faces.1, follows.1⟩

/-- The kind of a token that is held is one that the scanner found. -/
theorem Faces.scanIn {token : Token} (faces : state.Faces (some token))
    (ready : state.lexer.Ready) :
    ∃ length, Lex.scanIn state.lexer.mode state.lexer.taken.rest =
      .ok (some ⟨token.kind, length⟩) := by
  obtain ⟨scanned, -, rfl, found⟩ := faces.scannedAt ready
  unfold Lexer.scannedAt at found
  split at found
  · next lexeme? scannedIn =>
      obtain ⟨lexeme, rfl, rfl⟩ := Option.map_eq_some_iff.1 (Except.ok.inj found)
      exact ⟨lexeme.length, scannedIn⟩
  · contradiction

end State

end Parse

namespace Lexer

/-- A token takes some of the characters that are left. -/
theorem shorter_of_scannedAt {mode : LexMode} {cursor : Cursor} {scanned : Scanned}
    (notMatter : mode ≠ .frontMatter) (found : scannedAt mode cursor = .ok (some scanned)) :
    scanned.stop.rest.length < cursor.rest.length := by
  unfold scannedAt at found
  split at found
  · next lexeme? scannedIn =>
      obtain ⟨lexeme, rfl, rfl⟩ := Option.map_eq_some_iff.1 (Except.ok.inj found)
      have fits := Lex.fits_scanIn notMatter scannedIn
      have positive := fits.positive
      have within := fits.within
      rw [scannedOf, Cursor.advanceBy_rest, List.length_drop]
      omega
  · contradiction

/-- What is scanned is the token at the place of scanning. -/
theorem scannedAt_of_scan {lexer after : Lexer} {scanned : Scanned}
    (notMatter : lexer.mode ≠ .frontMatter) (found : scan lexer = .ok (some scanned) after) :
    scannedAt lexer.mode lexer.ahead = .ok (some scanned) := by
  have ran := scan_eq notMatter
  cases same : scannedAt lexer.mode lexer.ahead with
  | error error =>
      rw [same] at ran
      obtain ⟨other, failed⟩ := ran
      simp [failed] at found
  | ok scanned? =>
      rw [same] at ran
      cases scanned? with
      | none =>
          simp only at ran
          simp [ran] at found
      | some other =>
          simp only at ran
          rw [ran] at found
          rw [(EStateM.Result.ok.inj found).1]

theorem Ready.hold {lexer after : Lexer} {scanned : Scanned} (ready : lexer.Ready)
    (empty : lexer.lookahead = []) (found : scan lexer = .ok (some scanned) after) :
    (lexer.hold scanned).Ready where
  unmattered := ready.unmattered
  follows := by
    have start := ready.follows
    have scannedAt := scannedAt_of_scan ready.mode_ne found
    rw [empty] at start
    rw [show lexer.ahead = lexer.taken from start] at scannedAt
    simp only [Lexer.hold, empty, List.nil_append]
    exact ⟨scannedAt, rfl⟩

theorem Ready.giveOut {lexer : Lexer} {scanned : Scanned} {later : List Scanned}
    (ready : lexer.Ready) (held : lexer.lookahead = scanned :: later) :
    (lexer.giveOut scanned later).Ready where
  unmattered := ready.unmattered
  follows := by
    have follows := ready.follows
    rw [held] at follows
    exact follows.2

end Lexer

namespace Parser

open Parse State

variable {α β : Type}

/-- From some states an action ends in some states, and when it fails, the log of
the lexer is in order and the error is one that can occur. -/
def Keeps (action : Parser α) (pre : State → Prop) (post : α → State → Prop) : Prop :=
  ∀ state, pre state →
    match action state with
    | .ok result after => post result after
    | .error error after => after.lexer.Ledger ∧ error.CanOccur

namespace Keeps

variable {pre : State → Prop} {post : α → State → Prop}

theorem pure {result : α} (holds : ∀ state, pre state → post result state) :
    Keeps (Pure.pure result) pre post :=
  holds

theorem bind {action : Parser α} {next : α → Parser β} {middle : α → State → Prop}
    {post : β → State → Prop} (first : Keeps action pre middle)
    (second : ∀ result, Keeps (next result) (middle result) post) :
    Keeps (action >>= next) pre post := by
  intro state holds
  have firstHolds := first state holds
  rw [run_bind]
  cases ran : action state with
  | ok result after =>
      rw [ran] at firstHolds
      exact second result after firstHolds
  | error error after =>
      rw [ran] at firstHolds
      exact firstHolds

theorem mono {action : Parser α} {weaker : State → Prop} {stronger : α → State → Prop}
    (keeps : Keeps action weaker stronger) (weaken : ∀ state, pre state → weaker state)
    (strengthen : ∀ result state, stronger result state → post result state) :
    Keeps action pre post := by
  intro state holds
  have kept := keeps state (weaken state holds)
  split at kept
  · exact strengthen _ _ kept
  · exact kept

theorem weaken {action : Parser α} {weaker : State → Prop} (keeps : Keeps action weaker post)
    (weaken : ∀ state, pre state → weaker state) : Keeps action pre post :=
  keeps.mono weaken fun _ _ => id

theorem strengthen {action : Parser α} {stronger : α → State → Prop}
    (keeps : Keeps action pre stronger)
    (strengthen : ∀ result state, stronger result state → post result state) :
    Keeps action pre post :=
  keeps.mono (fun _ => id) strengthen

theorem of_ok {action : Parser α} {state after : State} {result : α}
    (keeps : Keeps action pre post) (holds : pre state) (ran : action state = .ok result after) :
    post result after := by
  have kept := keeps state holds
  rwa [ran] at kept

/-- What holds apart from the state may be used for an action. -/
theorem assume {action : Parser α} (keeps : ∀ known, pre known → Keeps action pre post) :
    Keeps action pre post :=
  fun state holds => keeps state holds state holds

/-- An action that follows one that left less to read. -/
theorem ofFewer {action : Parser α} {modes : List LexMode} {left held : Nat}
    (keeps : ∀ fewer, fewer < left → Keeps action (Stands modes fewer held) post) :
    Keeps action (fun state => ∃ fewer, fewer < left ∧ state.Stands modes fewer held) post :=
  fun state ⟨fewer, less, stands⟩ => keeps fewer less state stands

/-- An action that does not care which token was looked at. -/
theorem looked {action : Parser α} {modes : List LexMode} {left : Nat} {token? : Option Token}
    (keeps : Keeps action (Stands modes left 1) post) :
    Keeps action (fun state => state.Stands modes left 1 ∧ state.Faces token?) post :=
  keeps.weaken fun _ => And.left

theorem get {next : State → Parser α} (keeps : ∀ known, Keeps (next known) pre post) :
    Keeps (MonadState.get >>= next) pre post :=
  fun state holds => keeps state state holds

theorem discard {post : State → Prop} {action : Parser α} (keeps : Keeps action pre fun _ => post) :
    Keeps (Functor.discard action) pre fun _ => post := by
  intro state holds
  have kept := keeps state holds
  rw [run_discard]
  split at kept
  · next ran =>
      rw [ran]
      exact kept
  · next ran =>
      rw [ran]
      exact kept

end Keeps

section Primitives

variable {modes : List LexMode} {left held : Nat} {post : α → State → Prop}

theorem modify_keeps {change : State → State} (free : LexerFree change) :
    Keeps (modify change) (Stands modes left held) fun _ => Stands modes left held :=
  fun state stands => stands.of_lexer (free.lexer_eq state)

theorem failAt_keeps {cause : Cause} {position : Position}
    (canOccur : Error.CanOccur (.grammatical cause position)) :
    Keeps (failAt cause position : Parser α) (Stands modes left held) post :=
  fun _ stands => ⟨stands.ledger, canOccur⟩

theorem peek_keeps :
    Keeps Parser.peek (Stands modes left 1) fun token? state =>
      state.Stands modes left 1 ∧ state.Faces token? := by
  intro state stands
  simp only [Parser.peek, lexing]
  cases held : state.lexer.lookahead with
  | cons scanned later =>
      rw [Lexer.peek_of_held held]
      refine ⟨stands, ?_⟩
      have single := stands.heldLe
      rw [held, List.length_cons] at single
      have noMore : later = [] := List.length_eq_zero_iff.1 (by omega)
      simp [Faces, held, noMore]
  | nil =>
      rw [Lexer.peek_of_empty held]
      cases found : Lexer.scan state.lexer with
      | error error after => exact ⟨stands.ledger.scan_failed found, trivial⟩
      | ok scanned? after =>
          cases scanned? with
          | none =>
              obtain rfl := Lexer.scan_ended found
              exact ⟨stands, by simp [Faces, held]⟩
          | some scanned =>
              refine ⟨⟨stands.ready.hold held found, stands.ledger.hold scanned, stands.modesEq,
                stands.restLe, ?_⟩, ?_⟩
              · simp [Lexer.hold, held]
              · simp [Faces, Lexer.hold, held]

/-- Taking the token that is held. -/
theorem skip_of_held {state : State} {scanned : Scanned}
    (held : state.lexer.lookahead = [scanned]) :
    Parser.skip state = .ok () (state.withLexer (state.lexer.giveOut scanned [])) := by
  simp only [Parser.skip, run_discard, lexing, Lexer.next_of_held held]
  rfl

/-- Behind the token that is faced less is left to read, and none is held. -/
theorem skip_facing (token : Token) :
    Keeps Parser.skip (fun state => state.Stands modes left 1 ∧ state.Faces (some token))
      fun _ state => ∃ fewer, fewer < left ∧ state.Stands modes fewer 0 := by
  rintro state ⟨stands, faces⟩
  obtain ⟨scanned, held, -, scannedAt⟩ := faces.scannedAt stands.ready
  have shorter := Lexer.shorter_of_scannedAt stands.ready.mode_ne scannedAt
  rw [skip_of_held held]
  exact ⟨_, Nat.lt_of_lt_of_le shorter stands.restLe, stands.ready.giveOut held,
    stands.ledger.giveOut held, stands.modesEq, Nat.le_refl _, Nat.le_refl 0⟩

theorem stands_of_fewer {state : State}
    (skipped : ∃ fewer, fewer < left ∧ state.Stands modes fewer 0) :
    state.Stands modes left 0 := by
  obtain ⟨fewer, less, stands⟩ := skipped
  exact { stands with restLe := stands.restLe.trans (Nat.le_of_lt less) }

/-- Behind the next token none is held. -/
theorem skip_keeps :
    Keeps Parser.skip (Stands modes left 1) fun _ => Stands modes left 0 := by
  intro state stands
  have looked := peek_keeps state stands
  simp only [Parser.peek, lexing] at looked
  cases held : state.lexer.lookahead with
  | cons scanned later =>
      rw [Lexer.peek_of_held held] at looked
      have skipped := skip_facing scanned.token state looked
      obtain ⟨only, onlyHeld, -, -⟩ := looked.2.scannedAt stands.ready
      rw [skip_of_held onlyHeld] at skipped ⊢
      exact stands_of_fewer skipped
  | nil =>
      rw [Lexer.peek_of_empty held] at looked
      cases found : Lexer.scan state.lexer with
      | error error after =>
          simp only [Parser.skip, run_discard, lexing, Lexer.next_of_failed held found]
          exact ⟨stands.ledger.scan_failed found, trivial⟩
      | ok scanned? after =>
          rw [found] at looked
          cases scanned? with
          | none =>
              obtain rfl := Lexer.scan_ended found
              simp only [Parser.skip, run_discard, lexing, Lexer.next_of_ended held found]
              exact { stands with heldLe := by rw [held]; exact Nat.le_refl 0 }
          | some scanned =>
              have holds : (state.lexer.hold scanned).lookahead = [scanned] := by
                rw [Lexer.hold, held]
                rfl
              have skipped := skip_facing scanned.token _ looked
              rw [skip_of_held holds] at skipped
              simp only [Parser.skip, run_discard, lexing, Lexer.next_of_found held found]
              exact stands_of_fewer skipped

theorem pushMode_keeps {mode : LexMode} (notMatter : mode ≠ .frontMatter) :
    Keeps (Parser.pushMode mode) (Stands modes left 0) fun _ => Stands (mode :: modes) left 0 := by
  intro state stands
  refine ⟨⟨?_, rfl⟩, stands.ledger.pushMode stands.holdsNone mode,
    congrArg (mode :: ·) stands.modesEq, stands.restLe, Nat.le_refl 0⟩
  rintro (_ | ⟨_, member⟩)
  · exact notMatter rfl
  · exact stands.ready.unmattered member

theorem popMode_keeps {mode : LexMode} :
    Keeps Parser.popMode (Stands (mode :: modes) left 0) fun _ => Stands modes left 0 :=
  fun _ stands =>
    ⟨⟨fun member => stands.ready.unmattered (List.mem_of_mem_tail member), rfl⟩,
      stands.ledger.popMode stands.holdsNone, congrArg List.tail stands.modesEq, stands.restLe,
      Nat.le_refl 0⟩

theorem here_keeps : Keeps here (Stands modes left held) fun _ => Stands modes left held :=
  Keeps.get fun _ => Keeps.pure fun _ => id

theorem spanningFrom_keeps (start : Position) :
    Keeps (spanningFrom start) (Stands modes left held) fun _ => Stands modes left held :=
  here_keeps.bind fun _ => Keeps.pure fun _ => id

/-- An action that looks at the next token goes on from there. -/
theorem Keeps.peek {next : Option Token → Parser α}
    (keeps : ∀ token?, Keeps (next token?)
      (fun state => state.Stands modes left 1 ∧ state.Faces token?) post) :
    Keeps (Parser.peek >>= next) (Stands modes left 1) post :=
  peek_keeps.bind keeps

theorem Keeps.peekKind {next : Option TokenKind → Parser α}
    (keeps : ∀ token? : Option Token, Keeps (next (token?.map (·.kind)))
      (fun state => state.Stands modes left 1 ∧ state.Faces token?) post) :
    Keeps (Parser.peekKind >>= next) (Stands modes left 1) post := by
  rw [peekKind_bind]
  exact Keeps.peek keeps

theorem nextPosition_keeps :
    Keeps nextPosition (Stands modes left 1) fun _ => Stands modes left 1 := by
  refine Keeps.peek fun token? => ?_
  cases token? with
  | some token => exact Keeps.pure fun _ => And.left
  | none => exact Keeps.get fun _ => Keeps.pure fun _ => And.left

theorem found_keeps : Keeps found (Stands modes left 1) fun _ => Stands modes left 1 := by
  refine Keeps.peekKind fun token? => ?_
  cases token? with
  | some token => exact Keeps.pure fun _ => And.left
  | none => exact Keeps.pure fun _ => And.left

/-- Failing at the next token. -/
theorem failNext_keeps (cause : String → Cause)
    (canOccur : ∀ found position, Error.CanOccur (.grammatical (cause found) position)) :
    Keeps (do failAt (cause (← found)) (← nextPosition) : Parser α) (Stands modes left 1) post :=
  found_keeps.bind fun found => nextPosition_keeps.bind fun position =>
    failAt_keeps (canOccur found position)

theorem failExpected_keeps {what : String} :
    Keeps (failExpected what : Parser α) (Stands modes left 1) post :=
  failNext_keeps (.expected what) fun _ _ => trivial

end Primitives

end Parser

end TemplateCompiler
