import TemplateCompiler.Proofs.Lex.Faults
import TemplateCompiler.Proofs.Lex.Progress

/-!
# Where lexers fail

An operation of a lexer fails only when a scan does, and what it did before were steps of
reading on.  The tokens given out and the tokens held tile the source up to the place where
the failing scan started, so the error is reported right behind the last token scanned.
Only a wrong escape is reported further on, inside the literal that starts there.

By then the cursor may have moved anywhere: to the end of the source when a construct is
not closed.  What is left in the state to tell the place is the last token held, or the
last one taken.
-/

namespace TemplateCompiler

namespace Lexer

open Reader

variable {source : List Char} {lexer after : Lexer} {error : Lex.Error} {α β : Type}

section Failures

/-- An action that fails has read on to a scan that does. -/
def FailsInScan (action : Lexing α) : Prop :=
  ∀ lexer error after, action lexer = .error error after →
    ∃ middle, Steps lexer middle ∧ scan middle = .error error after

namespace FailsInScan

theorem pure (result : α) : FailsInScan (Pure.pure result) := by
  intro lexer error after failed
  contradiction

theorem get : FailsInScan (MonadState.get : Lexing Lexer) := by
  intro lexer error after failed
  contradiction

theorem bind {action : Lexing α} {following : α → Lexing β} (fails : FailsInScan action)
    (proceeds : Proceeds action) (failsThen : ∀ result, FailsInScan (following result)) :
    FailsInScan (action >>= following) := by
  intro lexer error after failed
  rw [run_bind] at failed
  cases ran : action lexer with
  | error first middle =>
      rw [ran] at failed
      obtain ⟨rfl, rfl⟩ := EStateM.Result.error.inj failed
      exact fails _ _ _ ran
  | ok result middle =>
      rw [ran] at failed
      obtain ⟨last, steps, scanned⟩ := failsThen result _ _ _ failed
      exact ⟨last, (proceeds _ _ _ ran).trans steps, scanned⟩

end FailsInScan

theorem next_failsInScan : FailsInScan next :=
  fun lexer _ _ failed => ⟨lexer, .refl, (next_eq_error failed).2⟩

theorem consume_failsInScan (count : Nat) : FailsInScan (consume count) := by
  induction count with
  | zero => exact .pure ()
  | succ count ih =>
      refine next_failsInScan.bind next_proceeds fun token? => ?_
      cases token? with
      | none => exact .pure ()
      | some token => exact ih

theorem collectAtMost_failsInScan (bound : Nat) : FailsInScan (collectAtMost bound) := by
  induction bound with
  | zero => exact .pure []
  | succ bound ih =>
      refine next_failsInScan.bind next_proceeds fun token? => ?_
      cases token? with
      | none => exact .pure []
      | some token =>
          exact ih.bind (collectAtMost_proceeds bound) fun later => .pure (token :: later)

theorem lookFurther_failsInScan (count : Nat) : FailsInScan (lookFurther count) := by
  induction count with
  | zero => exact .pure ()
  | succ count ih =>
      intro lexer error after failed
      rw [lookFurther, run_bind] at failed
      cases found : scan lexer with
      | error scanError reached =>
          rw [found] at failed
          obtain ⟨rfl, rfl⟩ := EStateM.Result.error.inj failed
          exact ⟨lexer, .refl, found⟩
      | ok scanned? middle =>
          rw [found] at failed
          cases scanned? with
          | none => contradiction
          | some scanned =>
              obtain ⟨-, -, rfl⟩ := scan_found found
              obtain ⟨last, steps, scannedThen⟩ := ih (lexer.hold scanned) _ _ failed
              exact ⟨last, .head (.held found) steps, scannedThen⟩

theorem peek_failsInScan (places : Nat) : FailsInScan (peek places) :=
  FailsInScan.get.bind .get fun _ =>
    (lookFurther_failsInScan _).bind (lookFurther_proceeds _) fun _ =>
      FailsInScan.get.bind .get fun _ => .pure _

/-- Every operation fails in a scan, if it fails. -/
theorem perform_failsInScan (operation : LexOperation) : FailsInScan (perform operation) := by
  cases operation with
  | pushMode mode =>
      intro lexer error after failed
      contradiction
  | popMode =>
      intro lexer error after failed
      contradiction
  | peek places => exact (peek_failsInScan places).bind (peek_proceeds places) fun _ => .pure _
  | next => exact next_failsInScan.bind next_proceeds fun _ => .pure _
  | consume count =>
      exact (consume_failsInScan count).bind (consume_proceeds count) fun _ => .pure _
  | collect =>
      refine FailsInScan.bind (FailsInScan.get.bind .get fun lexer => ?_)
        (Proceeds.get.bind fun _ => collectAtMost_proceeds _) fun _ => .pure _
      exact collectAtMost_failsInScan _
  | last => exact FailsInScan.get.bind .get fun _ => .pure _
  | position => exact FailsInScan.get.bind .get fun _ => .pure _

/-- A scan fails with a fault at the place of scanning, in the mode in force. -/
theorem scan_faults (failed : scan lexer = .error error after) :
    ∃ fault, scanAt lexer.mode lexer.ahead = .error fault ∧
      error = .atMark fault.cause (lexer.ahead.advanceBy fault.anchor).mark ∧
      after = { lexer with ahead := lexer.ahead.advanceBy fault.reached } := by
  unfold scan at failed
  split at failed
  · contradiction
  · simp only at failed
    split at failed
    · contradiction
    · contradiction
    · next fault scanned =>
        obtain ⟨rfl, rfl⟩ := EStateM.Result.error.inj failed
        exact ⟨fault, scanned, rfl, rfl⟩

end Failures

section Frontiers

/-- The cursor behind the last token that was scanned, whether it is held or was taken. -/
def frontier (lexer : Lexer) : Cursor :=
  (lexer.lookahead.getLast?.map (·.stop)).getD lexer.taken

theorem frontier_giveOut {scanned : Scanned} {later : List Scanned}
    (held : lexer.lookahead = scanned :: later) :
    (lexer.giveOut scanned later).frontier = lexer.frontier := by
  rw [frontier, frontier, held, giveOut, List.getLast?_cons]
  cases later.getLast? <;> rfl

/-- The tokens that are held can all be given out. -/
theorem exists_givenOut (lexer : Lexer) :
    ∃ after, Steps lexer after ∧ after.lookahead = [] ∧
      after.tokens = lexer.tokens ++ lexer.lookahead.map (·.token) ∧
      after.taken = lexer.frontier ∧ after.ahead = lexer.ahead := by
  generalize heldEq : lexer.lookahead = held
  induction held generalizing lexer with
  | nil =>
      refine ⟨lexer, .refl, heldEq, (List.append_nil _).symm, ?_, rfl⟩
      rw [frontier, heldEq]
      rfl
  | cons scanned later ih =>
      obtain ⟨after, steps, empty, tokensEq, takenEq, aheadEq⟩ :=
        ih (lexer.giveOut scanned later) rfl
      refine ⟨after, .head (.took heldEq) steps, empty, ?_, ?_, aheadEq⟩
      · rw [tokensEq, tokens_giveOut, List.append_assoc]
        rfl
      · rw [takenEq, frontier_giveOut heldEq]

/-- The tokens scanned tile the source up to the place where the next scan starts. -/
theorem Accounts.frontier (accounts : Accounts source lexer) :
    lexer.frontier = lexer.ahead ∧
      Token.Tile 0 (lexer.tokens ++ lexer.lookahead.map (·.token)) source lexer.frontier.rest ∧
      ∃ read, lexer.frontier.HasRead source read := by
  obtain ⟨after, steps, empty, tokensEq, takenEq, aheadEq⟩ := exists_givenOut lexer
  obtain ⟨⟨reader, shadows⟩, tile⟩ := accounts.steps steps
  rw [tokensEq, takenEq] at tile
  have atPlace := shadows.aheadEq
  rw [empty] at atPlace
  refine ⟨?_, tile, ?_⟩
  · rw [← takenEq, ← aheadEq, shadows.takenEq]
    exact atPlace.symm
  · rw [← takenEq, shadows.takenEq]
    exact shadows.within.hasRead

end Frontiers

end Lexer

namespace Places

variable {places : Places} {lexer after : Lexer}

theorem OfLexer.step (closed : places.Closed) (known : places.OfLexer lexer)
    (step : Lexer.Step lexer after) : places.OfLexer after := by
  cases step with
  | held found =>
      have scanned := scan_maintains closed lexer known
      rw [found] at scanned
      obtain ⟨admits, -⟩ := scanned
      have admitted := admits _ rfl
      exact ⟨admitted.stop, known.taken,
        List.forall_mem_append.2 ⟨known.held, List.forall_mem_singleton.2 admitted⟩⟩
  | took held =>
      obtain ⟨admitted, others⟩ := List.forall_mem_cons.1 (held ▸ known.held)
      exact ⟨known.ahead, admitted.stop, others⟩

theorem OfLexer.steps (closed : places.Closed) (known : places.OfLexer lexer)
    (steps : Lexer.Steps lexer after) : places.OfLexer after := by
  induction steps with
  | refl => exact known
  | tail _ step ih => exact ih.step closed step

theorem OfLexer.perform {operation : LexOperation} {answer : LexAnswer} (closed : places.Closed)
    (known : places.OfLexer lexer) (ran : Lexer.perform operation lexer = .ok answer after) :
    places.OfLexer after := by
  have reading (stays : operation.changesMode = false) : places.OfLexer after :=
    known.steps closed (Lexer.perform_proceeds stays lexer answer after ran)
  cases operation with
  | pushMode mode =>
      obtain ⟨-, rfl⟩ := EStateM.Result.ok.inj ran
      exact known.pushMode mode
  | popMode =>
      obtain ⟨-, rfl⟩ := EStateM.Result.ok.inj ran
      exact known.popMode
  | peek places => exact reading rfl
  | next => exact reading rfl
  | consume count => exact reading rfl
  | collect => exact reading rfl
  | last => exact reading rfl
  | position => exact reading rfl

theorem OfLexer.transcript {operations : List LexOperation}
    {entries : List (LexOperation × LexAnswer)} (closed : places.Closed)
    (known : places.OfLexer lexer)
    (ran : TemplateCompiler.transcript Lexer.perform operations lexer = .ok entries after) :
    places.OfLexer after := by
  induction operations generalizing lexer entries with
  | nil =>
      obtain ⟨-, rfl⟩ := EStateM.Result.ok.inj ran
      exact known
  | cons operation later ih =>
      obtain ⟨answer, middle, first, rest⟩ := bind_eq_ok lexer ran
      obtain ⟨answers, last, second, ended⟩ := bind_eq_ok middle rest
      obtain ⟨-, rfl⟩ := EStateM.Result.ok.inj ended
      exact ih (known.perform closed first) second

theorem ofLexer_trueTo (source : List Char) : (trueTo source).OfLexer (.ofText source) :=
  ⟨Cursor.located_ofText source, Cursor.located_ofText source, List.forall_mem_nil _⟩

end Places

namespace Lexer

variable {source : List Char} {lexer after : Lexer} {error : Lex.Error}

/-- Whatever was asked of a lexer before, and as long as nothing failed: when an operation
fails, the tokens that were given out and those that are held tile the source up to some
place.  The error is reported at that place, or, when it is a wrong escape, at the backslash
in the literal that starts there, and everything in front of the backslash can be read.  The
line and the column are true to the source. -/
theorem error_behind_tokens {operations : List LexOperation}
    {entries : List (LexOperation × LexAnswer)} {operation : LexOperation}
    (ran : transcript perform operations (ofText source) = .ok entries lexer)
    (failed : perform operation lexer = .error error after) :
    Token.Tile 0 (after.tokens ++ after.lookahead.map (·.token)) source after.frontier.rest ∧
    (∃ read, after.frontier.HasRead source read) ∧
    after.mode = lexer.mode ∧
    ∃ before, Lex.BreaksAt lexer.mode after.frontier.rest error.cause before ∧
      error.position = (after.frontier.advanceBy before.length).mark.position.withLength 1 ∧
      error.position.IsTrue source := by
  have closed := Places.closed_trueTo source
  obtain ⟨accounts, -⟩ := (accounts_ofText source).transcript ran
  have known := (Places.ofLexer_trueTo source).transcript closed ran
  obtain ⟨middle, steps, scanned⟩ := perform_failsInScan operation _ _ _ failed
  obtain ⟨atPlace, tile, within⟩ := (accounts.steps steps).frontier
  have modeEq : middle.mode = lexer.mode := congrArg (·.headD .markup) steps.modes_eq
  have isTrue := Places.scan_maintains closed middle (known.steps closed steps)
  rw [scanned] at isTrue
  obtain ⟨fault, scannedAt, rfl, rfl⟩ := scan_faults scanned
  have anchors := anchors_scanAt middle.mode middle.ahead
  rw [scannedAt] at anchors
  obtain ⟨before, breaks, anchorEq⟩ := anchors
  rw [modeEq, ← atPlace] at breaks
  refine ⟨tile, within, modeEq, before, breaks, ?_, isTrue⟩
  rw [← anchorEq]
  exact atPlace ▸ rfl

/-- The mode in force after a session, and the error that the next operation fails with. -/
def failureAfter? (session : List LexOperation) (operation : LexOperation) (source : List Char) :
    Option (LexMode × Lex.Error) :=
  match transcript perform session (ofText source) with
  | .ok _ lexer =>
      match perform operation lexer with
      | .ok _ _ => none
      | .error error _ => some (lexer.mode, error)
  | .error _ _ => none

theorem exists_of_failureAfter? {session : List LexOperation} {operation : LexOperation}
    {mode : LexMode} (fails : failureAfter? session operation source = some (mode, error)) :
    ∃ entries lexer after, transcript perform session (ofText source) = .ok entries lexer ∧
      perform operation lexer = .error error after ∧ lexer.mode = mode := by
  unfold failureAfter? at fails
  split at fails
  · next entries lexer ran =>
      split at fails
      · contradiction
      · next other after failed =>
          obtain ⟨rfl, rfl⟩ := Prod.mk.inj (Option.some.inj fails)
          exact ⟨entries, lexer, after, ran, failed, rfl⟩
  · contradiction

/-- The source of a tag on two lines, with a wrong escape behind a right one. -/
def wrongEscapeInTag : List Char :=
  "<a\nb='it\\'s \\q'>".toList

/-- Reads the bracket in markup and the name in the tag, and looks at what comes then. -/
def wrongEscapeInTagSession : List LexOperation :=
  [.next, .pushMode .tag, .peek 2, .next]

theorem error_behind_tokens_wrongEscapeInTag :
    ∃ entries lexer after before,
      transcript perform wrongEscapeInTagSession (ofText wrongEscapeInTag) = .ok entries lexer ∧
      perform (.peek 4) lexer = .error ⟨.invalidEscape 'q', ⟨2, 10, 12, some 1⟩⟩ after ∧
      Token.Tile 0 (after.tokens ++ after.lookahead.map (·.token)) wrongEscapeInTag
        after.frontier.rest ∧
      Lex.BreaksAt .tag after.frontier.rest (.invalidEscape 'q') before := by
  have fails : failureAfter? wrongEscapeInTagSession (.peek 4) wrongEscapeInTag =
      some (.tag, ⟨.invalidEscape 'q', ⟨2, 10, 12, some 1⟩⟩) := by decide +kernel
  obtain ⟨entries, lexer, after, ran, failed, modeEq⟩ := exists_of_failureAfter? fails
  obtain ⟨tile, -, -, before, breaks, -⟩ := error_behind_tokens ran failed
  exact ⟨entries, lexer, after, before, ran, failed, tile, modeEq ▸ breaks⟩

end Lexer

end TemplateCompiler
