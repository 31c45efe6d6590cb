import TemplateCompiler.Proofs.Parse.Logic

/-!
# Taking tokens

How the actions that every part of the parser is made of look at the next token
and take it, in both directions: what they do when the next token is known, and
what must have been there when they succeed.
-/

namespace TemplateCompiler

namespace Parser

open Parse

variable {α β : Type} {before : State}

/-- An action looks at the next token, at the end of what there is to read, or
fails as the lexer does. -/
theorem Meets.peek {next : Option Token → Parser α} {post : α → State → Prop}
    {fail : Parse.Error → Prop}
    (taken : ∀ kind piece, before.Next kind piece → piece ≠ [] → kind.IsSpelled piece →
      Meets (next (some ⟨kind, before.spanOf piece⟩)) before post fail)
    (ended : Lex.scanIn before.mode before.rest = .ok none → Meets (next none) before post fail)
    (failed : ∀ error, Lexer.scannedAt before.mode before.cursor = .error error →
      fail (.lexical error)) :
    Meets (Parser.peek >>= next) before post fail := by
  rintro state ready rfl
  have looked := Lexer.peek_of_ready ready
  have notMatter : state.settled.mode ≠ .frontMatter := ready.mode_ne
  simp only [run_bind, Parser.peek, lexing]
  cases scanned : Lex.scanIn state.settled.mode state.settled.rest with
  | error fault =>
      have scannedAt : Lexer.scannedAt state.lexer.mode state.lexer.taken = .error _ :=
        Lexer.scannedAt_of_error scanned
      rw [scannedAt] at looked
      obtain ⟨after, lookedEq⟩ := looked
      rw [lookedEq]
      exact failed _ scannedAt
  | ok lexeme? =>
      cases lexeme? with
      | none =>
          have scannedAt : Lexer.scannedAt state.lexer.mode state.lexer.taken = .ok none :=
            Lexer.scannedAt_of_none scanned
          rw [scannedAt] at looked
          obtain ⟨after, lookedEq, readyAfter, settledEq⟩ := looked
          rw [lookedEq]
          exact ended scanned (state.withLexer after) readyAfter
            (congrArg (State.withLexer · state) settledEq)
      | some lexeme =>
          have known := State.next_of_scanIn notMatter scanned
          obtain ⟨nonempty, spelled⟩ := known.fits notMatter
          obtain ⟨found, scannedAt, tokenEq, -⟩ := known.scannedAt
          have scannedAt : Lexer.scannedAt state.lexer.mode state.lexer.taken = _ := scannedAt
          rw [scannedAt] at looked
          obtain ⟨after, lookedEq, readyAfter, settledEq⟩ := looked
          rw [lookedEq]
          simp only [Option.map_some, tokenEq]
          exact taken _ _ known nonempty spelled (state.withLexer after) readyAfter
            (congrArg (State.withLexer · state) settledEq)

section Known

variable {kind : TokenKind} {piece : List Char}

theorem peek_runs (known : before.Next kind piece) :
    Runs Parser.peek before (some ⟨kind, before.spanOf piece⟩) before := by
  rintro state ready rfl
  obtain ⟨found, scannedAt, tokenEq, -⟩ := known.scannedAt
  have looked := Lexer.peek_of_ready ready
  rw [show Lexer.scannedAt state.lexer.mode state.lexer.taken = _ from scannedAt] at looked
  obtain ⟨after, lookedEq, readyAfter, settledEq⟩ := looked
  simp only [Parser.peek, lexing, lookedEq]
  exact ⟨readyAfter, congrArg some tokenEq, congrArg (State.withLexer · state) settledEq⟩

theorem peek_runs_none (ended : Lex.scanIn before.mode before.rest = .ok none) :
    Runs Parser.peek before none before := by
  rintro state ready rfl
  have looked := Lexer.peek_of_ready ready
  rw [show Lexer.scannedAt state.lexer.mode state.lexer.taken = _ from
    Lexer.scannedAt_of_none ended] at looked
  obtain ⟨after, lookedEq, readyAfter, settledEq⟩ := looked
  simp only [Parser.peek, lexing, lookedEq]
  exact ⟨readyAfter, rfl, congrArg (State.withLexer · state) settledEq⟩

theorem skip_runs (known : before.Next kind piece) :
    Runs Parser.skip before () (before.after piece) := by
  rintro state ready rfl
  obtain ⟨found, scannedAt, -, stopEq⟩ := known.scannedAt
  have took := Lexer.next_of_ready ready
  rw [show Lexer.scannedAt state.lexer.mode state.lexer.taken = _ from scannedAt] at took
  obtain ⟨after, tookEq, readyAfter, settledEq⟩ := took
  have skipEq : Parser.skip state = .ok () (state.withLexer after) := by
    simp only [Parser.skip, run_discard, lexing, tookEq, State.withLexer]
  rw [skipEq]
  refine ⟨readyAfter, rfl, ?_⟩
  rw [stopEq] at settledEq
  exact congrArg (State.withLexer · state) settledEq

theorem nextPosition_runs (known : before.Next kind piece) :
    Runs nextPosition before (before.spanOf piece) before :=
  Meets.bind_runs (peek_runs known) (Meets.pure ⟨rfl, rfl⟩)

end Known

section Rearranged

/-! What follows a look at the next token, written with `peek` alone. -/

theorem peekKind_bind (next : Option TokenKind → Parser β) :
    (peekKind >>= next) = Parser.peek >>= fun token => next (token.map (·.kind)) := by
  simp [peekKind]

theorem nextIs_bind (accepts : TokenKind → Bool) (next : Bool → Parser β) :
    (nextIs accepts >>= next) =
      Parser.peek >>= fun token => next ((token.map (·.kind)).any accepts) := by
  simp [nextIs, peekKind_bind]

theorem discard_bind (action : Parser α) (next : Unit → Parser β) :
    (discard action >>= next) = action >>= fun _ => next () := by
  funext state
  simp only [run_bind, run_discard]
  cases action state <;> rfl

end Rearranged

theorem peekKind_runs {lexeme? : Option Lex.Lexeme}
    (scanned : Lex.scanIn before.mode before.rest = .ok lexeme?) :
    Runs peekKind before (lexeme?.map (·.kind)) before := by
  apply Meets.of_mode_ne
  intro notMatter
  cases lexeme? with
  | none => exact Meets.bind_runs (peek_runs_none scanned) (Meets.pure ⟨rfl, rfl⟩)
  | some lexeme =>
      have known := State.next_of_scanIn notMatter scanned
      exact Meets.bind_runs (peek_runs known) (Meets.pure ⟨rfl, rfl⟩)

theorem nextIs_runs {lexeme? : Option Lex.Lexeme}
    (scanned : Lex.scanIn before.mode before.rest = .ok lexeme?) (accepts : TokenKind → Bool) :
    Runs (nextIs accepts) before ((lexeme?.map (·.kind)).any accepts) before :=
  Meets.bind_runs (peekKind_runs scanned) (Meets.pure ⟨rfl, rfl⟩)

theorem expect_runs {what : String} {accepts : TokenKind → Bool} {kind : TokenKind}
    {piece : List Char} (known : before.Next kind piece) (accepted : accepts kind = true) :
    Runs (expect what accepts) before ⟨kind, before.spanOf piece⟩ (before.after piece) := by
  apply Meets.bind_runs (peek_runs known)
  simp only [accepted, if_true]
  exact Meets.bind_runs (skip_runs known) (Meets.pure ⟨rfl, rfl⟩)

theorem here_runs : Runs here before before.cursor before :=
  Meets.get (fun _ => rfl) (Meets.pure ⟨rfl, rfl⟩)

/-- The spelling of the next token is what will be taken for it. -/
theorem nextSpelling_runs {kind : TokenKind} {piece : List Char}
    (known : before.Next kind piece) : Runs nextSpelling before piece before := by
  apply Meets.bind_runs (peek_runs known)
  refine Meets.bind_runs here_runs (Meets.pure ⟨?_, rfl⟩)
  obtain ⟨tail, restEq⟩ := known.ahead
  change (Text.takeBytes? (Text.byteLength piece) before.cursor.rest).getD [] = piece
  rw [show before.cursor.rest = piece ++ tail from restEq.symm, Text.takeBytes?_byteLength]
  rfl

/-- The place from a position to where the parser has come to covers what was
read since. -/
theorem spanningFrom_runs {start : State} {place : Position} {piece : List Char}
    (placeEq : ∀ length,
      place.withLength length = start.cursor.mark.position.withLength length)
    (ahead : piece <+: start.rest) (cursorEq : before.cursor = (start.after piece).cursor) :
    Runs (spanningFrom place) before (start.spanOf piece) before := by
  refine Meets.bind_runs here_runs (Meets.pure ⟨?_, rfl⟩)
  have offsetEq : place.offset = start.cursor.mark.offset :=
    congrArg Position.offset (placeEq 0)
  obtain ⟨tail, restEq⟩ := ahead
  have taken : start.cursor.rest.take piece.length = piece := by
    rw [show start.cursor.rest = piece ++ tail from restEq.symm, List.take_left]
  rw [placeEq, offsetEq, cursorEq, State.cursor_after, Cursor.advanceBy_offset, taken,
    Nat.add_sub_cancel_left]
  rfl

section Excursions

/-! A production in a mode of its own remembers where it starts, enters the mode
behind its first token, and leaves it for the place of all it has read. -/

variable {next : Position → Parser β} {post : β → State → Prop} {fail : Parse.Error → Prop}
  {mode : LexMode}

theorem Meets.enter {kind : TokenKind} {opening : List Char} (known : before.Next kind opening)
    (notMatter : mode ≠ .frontMatter)
    (meets : Meets (next (before.spanOf opening)) ((before.after opening).entered mode) post fail) :
    Meets (do
      let start ← nextPosition
      skip
      Parser.pushMode mode
      next start) before post fail := by
  apply Meets.bind_runs (nextPosition_runs known)
  apply Meets.bind_runs (skip_runs known)
  exact Meets.bind_runs (pushMode_runs notMatter) meets

theorem Meets.leave {opening piece : List Char} (ahead : opening ++ piece <+: before.rest)
    (meets : Meets (next (before.spanOf (opening ++ piece))) (before.after (opening ++ piece))
      post fail) :
    Meets (do
      Parser.popMode
      let position ← spanningFrom (before.spanOf opening)
      next position) (((before.after opening).entered mode).after piece) post fail := by
  apply Meets.bind_runs popMode_runs
  rw [State.left_after_entered, State.after_after]
  exact Meets.bind_runs (spanningFrom_runs (fun _ => rfl) ahead rfl) meets

end Excursions

end Parser

end TemplateCompiler
