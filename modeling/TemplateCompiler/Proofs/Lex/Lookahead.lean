import TemplateCompiler.Proofs.Actions
import TemplateCompiler.Proofs.Lex.Fitting
import TemplateCompiler.Proofs.Source.Advance

/-!
# Reading without looking ahead

A lexer may hold tokens that it has scanned but not given out.  They are the
tokens that stand, one after the other, behind the last one taken, so what the
lexer gives out next depends only on its mode and on the place it has come to.
Here a lexer is compared with the one at rest at that place, which holds no
tokens: looking ahead changes nothing, and taking a token moves the resting
lexer behind it.

Front matter is left out, because in its mode a second token is never read.  It
is the first token of a source and read by itself.
-/

namespace TemplateCompiler

namespace Lex

/-- The scan of a text in a mode, inside a source for front matter. -/
def scanIn (mode : LexMode) (text : List Char) : Scan :=
  match mode with
  | .frontMatter => scanFrontMatter false text
  | .markup => scanMarkup text
  | .tag => scanTag text
  | .style => scanStyle text
  | .script => scanScript text
  | .expression => scanExpression text

theorem fits_scanIn {mode : LexMode} (notMatter : mode ≠ .frontMatter) {text : List Char}
    {lexeme : Lexeme} (found : scanIn mode text = .ok (some lexeme)) : lexeme.Fits text := by
  cases mode with
  | frontMatter => contradiction
  | markup => exact fits_scanMarkup found
  | tag => exact fits_scanTag found
  | style => exact fits_scanStyle found
  | script => exact fits_scanScript found
  | expression => exact fits_scanExpression found

end Lex

namespace Lexer

theorem scanAt_eq {mode : LexMode} (notMatter : mode ≠ .frontMatter) (cursor : Cursor) :
    scanAt mode cursor = Lex.scanIn mode cursor.rest := by
  cases mode <;> first | contradiction | rfl

/-- The token at a cursor, if there is one, or the error of reading it. -/
def scannedAt (mode : LexMode) (cursor : Cursor) : Except Lex.Error (Option Scanned) :=
  match Lex.scanIn mode cursor.rest with
  | .ok lexeme? => .ok (lexeme?.map (scannedOf cursor))
  | .error fault => .error (.atMark fault.cause (cursor.advanceBy fault.anchor).mark)

theorem scannedAt_of_none {mode : LexMode} {cursor : Cursor}
    (ended : Lex.scanIn mode cursor.rest = .ok none) : scannedAt mode cursor = .ok none := by
  simp [scannedAt, ended]

theorem scannedAt_of_error {mode : LexMode} {cursor : Cursor} {fault : Lex.Fault}
    (failed : Lex.scanIn mode cursor.rest = .error fault) :
    scannedAt mode cursor =
      .error (.atMark fault.cause (cursor.advanceBy fault.anchor).mark) := by
  simp [scannedAt, failed]

theorem scannedAt_of_found {mode : LexMode} {cursor : Cursor} {kind : TokenKind} {length : Nat}
    (found : Lex.scanIn mode cursor.rest = .found kind length) :
    scannedAt mode cursor = .ok (some (scannedOf cursor ⟨kind, length⟩)) := by
  rw [scannedAt, found]
  rfl

/-- The lexer that has come to a cursor, holds no tokens and remembers none. -/
def resting (modes : List LexMode) (cursor : Cursor) : Lexer :=
  ⟨cursor, modes, [], cursor, none, []⟩

/-- A lexer without the tokens it holds. -/
def settled (lexer : Lexer) : Lexer :=
  resting lexer.modes lexer.taken

/-- The tokens from a cursor on, one after the other, up to another cursor. -/
def Follows (mode : LexMode) : Cursor → List Scanned → Cursor → Prop
  | start, [], stop => stop = start
  | start, scanned :: later, stop =>
      scannedAt mode start = .ok (some scanned) ∧ Follows mode scanned.stop later stop

/-- The lexer holds the tokens that follow the last one it gave out. -/
structure Ready (lexer : Lexer) : Prop where
  unmattered : LexMode.frontMatter ∉ lexer.modes
  follows : Follows lexer.mode lexer.taken lexer.lookahead lexer.ahead

variable {lexer : Lexer}

theorem Ready.mode_ne (ready : lexer.Ready) : lexer.mode ≠ .frontMatter := by
  have unmattered := ready.unmattered
  cases modesEq : lexer.modes with
  | nil => simp [mode, modesEq]
  | cons mode outer =>
      rw [modesEq] at unmattered
      simp only [Lexer.mode, modesEq, List.headD_cons]
      exact fun same => unmattered (same ▸ List.mem_cons_self)

theorem scan_eq (notMatter : lexer.mode ≠ .frontMatter) :
    match scannedAt lexer.mode lexer.ahead with
    | .ok none => scan lexer = .ok none lexer
    | .ok (some scanned) => scan lexer = .ok (some scanned)
      { lexer with
        ahead := scanned.stop
        history := .scanned lexer.mode scanned.token :: lexer.history }
    | .error error => ∃ after, scan lexer = .error error after := by
  simp only [scan, notMatter, false_and, if_false, scanAt_eq notMatter, scannedAt]
  cases Lex.scanIn lexer.mode lexer.ahead.rest with
  | ok lexeme? => cases lexeme? <;> rfl
  | error fault => exact ⟨_, rfl⟩

/-- Looking at the next token gives the one at the place the lexer has come
to, and leaves that place. -/
theorem peek_of_ready (ready : lexer.Ready) :
    match scannedAt lexer.mode lexer.taken with
    | .ok scanned? => ∃ after, peek 0 lexer = .ok (scanned?.map (·.token)) after ∧
        after.Ready ∧ after.settled = lexer.settled
    | .error error => ∃ after, peek 0 lexer = .error error after := by
  obtain ⟨ahead, modes, lookahead, taken, last, history⟩ := lexer
  have notMatter := ready.mode_ne
  have follows := ready.follows
  cases lookahead with
  | cons scanned later =>
      rw [follows.1]
      refine ⟨⟨ahead, modes, scanned :: later, taken, last, history⟩, ?_, ready, rfl⟩
      have enough : 0 + 1 - (scanned :: later).length = 0 := by simp
      simp only [peek, run_bind, run_get, enough]
      rfl
  | nil =>
      obtain rfl : ahead = taken := follows
      have scanned := scan_eq notMatter
      simp only at scanned ⊢
      cases found : scannedAt (mode ⟨ahead, modes, [], ahead, last, history⟩) ahead with
      | error error =>
          rw [found] at scanned
          obtain ⟨after, failed⟩ := scanned
          refine ⟨after, ?_⟩
          simp [peek, lookFurther, run_bind, run_get, failed]
      | ok scanned? =>
          rw [found] at scanned
          cases scanned? with
          | none =>
              refine ⟨⟨ahead, modes, [], ahead, last, history⟩, ?_, ready, rfl⟩
              simp only at scanned
              simp [peek, lookFurther, run_bind, run_map, run_get, run_pure, scanned]
          | some token =>
              refine ⟨⟨token.stop, modes, [token], ahead, last,
                .scanned (mode ⟨ahead, modes, [], ahead, last, history⟩) token.token :: history⟩,
                ?_, ⟨ready.unmattered, found, rfl⟩, rfl⟩
              simp only at scanned
              simp [peek, lookFurther, run_bind, run_map, run_get, run_modify, scanned]

/-- Taking the next token gives the one at the place the lexer has come to, and
moves behind it. -/
theorem next_of_ready (ready : lexer.Ready) :
    match scannedAt lexer.mode lexer.taken with
    | .ok none => ∃ after, next lexer = .ok none after ∧ after.Ready ∧
        after.settled = lexer.settled
    | .ok (some scanned) => ∃ after, next lexer = .ok (some scanned.token) after ∧
        after.Ready ∧ after.settled = resting lexer.modes scanned.stop
    | .error error => ∃ after, next lexer = .error error after := by
  obtain ⟨ahead, modes, lookahead, taken, last, history⟩ := lexer
  have notMatter := ready.mode_ne
  have follows := ready.follows
  cases lookahead with
  | cons scanned later =>
      rw [follows.1]
      exact ⟨_, rfl, ⟨ready.unmattered, follows.2⟩, rfl⟩
  | nil =>
      obtain rfl : ahead = taken := follows
      have scanned := scan_eq notMatter
      simp only at scanned ⊢
      cases found : scannedAt (mode ⟨ahead, modes, [], ahead, last, history⟩) ahead with
      | error error =>
          rw [found] at scanned
          obtain ⟨after, failed⟩ := scanned
          refine ⟨after, ?_⟩
          simp [next, run_bind, run_get, failed]
      | ok scanned? =>
          rw [found] at scanned
          cases scanned? with
          | none =>
              refine ⟨⟨ahead, modes, [], ahead, last, history⟩, ?_, ready, rfl⟩
              simp only at scanned
              simp [next, run_bind, run_get, run_pure, scanned]
          | some token =>
              simp only at scanned
              simp only [next, take, run_bind, run_get, run_modify, run_pure, scanned]
              exact ⟨_, rfl, ⟨ready.unmattered, rfl⟩, rfl⟩

/-- The lexer before the front matter of a source. -/
def beforeMatter (text : List Char) : Lexer :=
  (ofText text).pushMode .frontMatter

theorem next_beforeMatter {text : List Char} {lexeme : Lex.Lexeme}
    (scanned : Lex.scanFrontMatter true text = .ok (some lexeme)) :
    next (beforeMatter text) =
      .ok (some (scannedOf (.ofText text) lexeme).token)
        ⟨(scannedOf (.ofText text) lexeme).stop, [.frontMatter], [],
          (scannedOf (.ofText text) lexeme).stop,
          some (scannedOf (.ofText text) lexeme).token,
          [.taken .frontMatter (scannedOf (.ofText text) lexeme).token,
            .scanned .frontMatter (scannedOf (.ofText text) lexeme).token, .changed []]⟩ := by
  have scannedAt : scanAt .frontMatter (.ofText text) = .ok (some lexeme) := scanned
  simp [next, beforeMatter, pushMode, rewind, ofText, scan, mode, followsFrontMatter, scannedAt,
    take, run_bind, run_map, run_get, run_modify]

theorem next_beforeMatter_error {text : List Char} {fault : Lex.Fault}
    (scanned : Lex.scanFrontMatter true text = .error fault) :
    ∃ after, next (beforeMatter text) =
      .error (.atMark fault.cause ((Cursor.ofText text).advanceBy fault.anchor).mark) after := by
  have scannedAt : scanAt .frontMatter (.ofText text) = .error fault := scanned
  simp [next, beforeMatter, pushMode, rewind, ofText, scan, mode, followsFrontMatter, scannedAt,
    run_bind, run_get]

end Lexer

end TemplateCompiler
