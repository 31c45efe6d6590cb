import TemplateCompiler.Parse.Markup
import TemplateCompiler.Proofs.Lex.Lookahead

/-!
# Reasoning about parser actions

What a parser action does is stated for settled states, in which the lexer
holds no tokens.  An action meets a specification at a settled state when from
every ready state that settles to it the action either ends in a ready state
that settles to one of those allowed, or fails with one of the errors allowed.
The rules below follow the structure of actions, so a specification of an
action is assembled from those of its parts, and lookahead is never mentioned
again.
-/

namespace TemplateCompiler

namespace Parse

namespace State

/-- The same state with another lexer. -/
def withLexer (lexer : Lexer) (state : State) : State :=
  { state with lexer := lexer }

/-- The state without the tokens its lexer holds. -/
def settled (state : State) : State :=
  state.withLexer state.lexer.settled

/-- The cursor behind the last token taken. -/
def cursor (state : State) : Cursor :=
  state.lexer.taken

def mode (state : State) : LexMode :=
  state.lexer.mode

/-- The modes in force, the innermost first. -/
def modes (state : State) : List LexMode :=
  state.lexer.modes

/-- The characters behind the last token taken. -/
def rest (state : State) : List Char :=
  state.cursor.rest

/-- The state when the lexer has come to a cursor. -/
def moved (state : State) (cursor : Cursor) : State :=
  state.withLexer (.resting state.lexer.modes cursor)

/-- The state after some more characters. -/
def after (state : State) (piece : List Char) : State :=
  state.moved (state.cursor.advanceBy piece.length)

def entered (state : State) (mode : LexMode) : State :=
  state.withLexer (.resting (mode :: state.lexer.modes) state.cursor)

def left (state : State) : State :=
  state.withLexer (.resting state.lexer.modes.tail state.cursor)

/-- The place of the characters that come next. -/
def spanOf (state : State) (piece : List Char) : Position :=
  state.cursor.mark.position.withLength (Text.byteLength piece)

/-- The next token is of a kind and takes some characters. -/
structure Next (state : State) (kind : TokenKind) (piece : List Char) : Prop where
  scanned : Lex.scanIn state.mode state.rest = .ok (some ⟨kind, piece.length⟩)
  ahead : piece <+: state.rest

/-- A change of a state has to do with what was parsed and not with the
lexer. -/
def LexerFree (change : State → State) : Prop :=
  ∀ state lexer, change (state.withLexer lexer) = (change state).withLexer lexer

theorem LexerFree.lexer_eq {change : State → State} (free : LexerFree change) (state : State) :
    (change state).lexer = state.lexer :=
  calc (change state).lexer = (change (state.withLexer state.lexer)).lexer := rfl
    _ = ((change state).withLexer state.lexer).lexer := by rw [free]
    _ = state.lexer := rfl

variable {state : State}

@[simp]
theorem cursor_after (state : State) (piece : List Char) :
    (state.after piece).cursor = state.cursor.advanceBy piece.length :=
  rfl

@[simp]
theorem modes_after (state : State) (piece : List Char) :
    (state.after piece).modes = state.modes :=
  rfl

@[simp]
theorem modes_left (state : State) : state.left.modes = state.modes.tail :=
  rfl

@[simp]
theorem rest_left (state : State) : state.left.rest = state.rest :=
  rfl

@[simp]
theorem rest_after (state : State) (piece : List Char) :
    (state.after piece).rest = state.rest.drop piece.length :=
  Cursor.advanceBy_rest _ _

theorem length_rest_after_le (state : State) (piece : List Char) :
    (state.after piece).rest.length ≤ state.rest.length := by
  rw [rest_after, List.length_drop]
  exact Nat.sub_le _ _

theorem length_rest_after_lt {piece : List Char} (ahead : piece <+: state.rest)
    (nonempty : piece ≠ []) : (state.after piece).rest.length < state.rest.length := by
  have positive := List.length_pos_iff.2 nonempty
  have within := ahead.length_le
  rw [rest_after, List.length_drop]
  omega

theorem after_nil (settledEq : state.settled = state) : state.after [] = state :=
  settledEq

@[simp]
theorem cursor_moved (state : State) (cursor : Cursor) : (state.moved cursor).cursor = cursor :=
  rfl

theorem moved_moved (state : State) (first second : Cursor) :
    (state.moved first).moved second = state.moved second :=
  rfl

theorem after_after (state : State) (first second : List Char) :
    (state.after first).after second = state.after (first ++ second) := by
  simp only [after, cursor_moved, moved_moved, List.length_append, Cursor.advanceBy_add]

@[simp]
theorem rest_entered (state : State) (mode : LexMode) :
    (state.entered mode).rest = state.rest :=
  rfl

@[simp]
theorem left_after_entered (state : State) (mode : LexMode) (piece : List Char) :
    ((state.entered mode).after piece).left = state.after piece :=
  rfl

theorem prefix_append_iff {first second : List Char} :
    first ++ second <+: state.rest ↔
      first <+: state.rest ∧ second <+: (state.after first).rest := by
  rw [rest_after]
  constructor
  · rintro ⟨tail, textEq⟩
    rw [← textEq]
    simp
  · rintro ⟨⟨tail, textEq⟩, ahead⟩
    rw [← textEq, List.drop_left] at ahead
    obtain ⟨tail, rfl⟩ := ahead
    exact ⟨tail, by simpa using textEq⟩

theorem append_rest_after {piece : List Char} (ahead : piece <+: state.rest) :
    piece ++ (state.after piece).rest = state.rest := by
  rw [rest_after, List.prefix_iff_eq_append.1 ahead]

theorem Next.scannedAt {kind : TokenKind} {piece : List Char} (next : state.Next kind piece) :
    ∃ scanned, Lexer.scannedAt state.mode state.cursor = .ok (some scanned) ∧
      scanned.token = ⟨kind, state.spanOf piece⟩ ∧
      scanned.stop = state.cursor.advanceBy piece.length := by
  have scanned : Lex.scanIn state.mode state.cursor.rest = _ := next.scanned
  refine ⟨Lexer.scannedOf state.cursor ⟨kind, piece.length⟩, ?_, ?_, rfl⟩
  · simp [Lexer.scannedAt, scanned]
  · obtain ⟨tail, restEq⟩ := next.ahead
    have taken : state.cursor.rest.take piece.length = piece := by
      rw [show state.cursor.rest = piece ++ tail from restEq.symm, List.take_left]
    simp [Lexer.scannedOf, spanOf, Cursor.advanceBy_offset, taken]

theorem next_of_scanIn (notMatter : state.mode ≠ .frontMatter) {lexeme : Lex.Lexeme}
    (scanned : Lex.scanIn state.mode state.rest = .ok (some lexeme)) :
    state.Next lexeme.kind (state.rest.take lexeme.length) := by
  have fits := Lex.fits_scanIn notMatter scanned
  refine ⟨?_, List.take_prefix _ _⟩
  rw [List.length_take_of_le fits.within]
  exact scanned

theorem Next.fits (notMatter : state.mode ≠ .frontMatter) {kind : TokenKind}
    {piece : List Char} (next : state.Next kind piece) :
    piece ≠ [] ∧ kind.IsSpelled piece := by
  have fits := Lex.fits_scanIn notMatter next.scanned
  obtain ⟨tail, restEq⟩ := next.ahead
  refine ⟨List.length_pos_iff.1 fits.positive, ?_⟩
  have spelled := fits.spelled
  rwa [← restEq, List.take_left] at spelled

end State

end Parse

namespace Parser

open Parse

theorem parse_of_ok {text : String} {result : Unit} {state : State}
    (ran : Parser.template (text.toList.length + 1) (.ofText text.toList) = .ok result state) :
    Template.parse text = .ok state.template := by
  simp only [Template.parse, ran]

theorem parse_of_error {text : String} {error : Parse.Error} {state : State}
    (ran : Parser.template (text.toList.length + 1) (.ofText text.toList) = .error error state) :
    Template.parse text = .error error := by
  simp only [Template.parse, ran]

/-- From a settled state an action ends in one of some settled states, or fails
with one of some errors. -/
def Meets {α : Type} (action : Parser α) (before : State) (post : α → State → Prop)
    (fail : Parse.Error → Prop) : Prop :=
  ∀ state, state.lexer.Ready → state.settled = before →
    match action state with
    | .ok result after => after.lexer.Ready ∧ post result after.settled
    | .error error _ => fail error

/-- From a settled state an action gives a result and ends in a settled
state. -/
def Runs {α : Type} (action : Parser α) (before : State) (result : α) (after : State) : Prop :=
  Meets action before (fun found state => found = result ∧ state = after) fun _ => False

namespace Meets

variable {α β : Type} {before : State} {post : α → State → Prop} {fail : Parse.Error → Prop}

theorem pure {result : α} (holds : post result before) :
    Meets (Pure.pure result) before post fail := by
  rintro state ready rfl
  exact ⟨ready, holds⟩

theorem bind {action : Parser α} {next : α → Parser β} {middle : α → State → Prop}
    {post : β → State → Prop} (first : Meets action before middle fail)
    (second : ∀ result state, middle result state → Meets (next result) state post fail) :
    Meets (action >>= next) before post fail := by
  intro state ready settledEq
  have firstHolds := first state ready settledEq
  rw [run_bind]
  cases ran : action state with
  | ok result after =>
      rw [ran] at firstHolds
      exact second result after.settled firstHolds.2 after firstHolds.1 rfl
  | error error after =>
      rw [ran] at firstHolds
      exact firstHolds

theorem mono {action : Parser α} {stronger : α → State → Prop} {strongerFail : Parse.Error → Prop}
    (meets : Meets action before stronger strongerFail)
    (weaken : ∀ result state, stronger result state → post result state)
    (weakenFail : ∀ error, strongerFail error → fail error) : Meets action before post fail := by
  intro state ready settledEq
  have holds := meets state ready settledEq
  split at holds
  · exact ⟨holds.1, weaken _ _ holds.2⟩
  · exact weakenFail _ holds

theorem of_settled {action : Parser α}
    (meets : before.settled = before → Meets action before post fail) :
    Meets action before post fail := by
  rintro state ready rfl
  exact meets rfl state ready rfl

theorem of_mode_ne {action : Parser α}
    (meets : before.mode ≠ .frontMatter → Meets action before post fail) :
    Meets action before post fail := by
  rintro state ready rfl
  exact meets ready.mode_ne state ready rfl

theorem of_runs {action : Parser α} {result : α} {after : State}
    (runs : Runs action before result after) (holds : post result after) :
    Meets action before post fail :=
  runs.mono (by rintro _ _ ⟨rfl, rfl⟩; exact holds) (fun _ impossible => impossible.elim)

theorem bind_runs {action : Parser α} {next : α → Parser β} {result : α} {after : State}
    {post : β → State → Prop} (runs : Runs action before result after)
    (second : Meets (next result) after post fail) :
    Meets (action >>= next) before post fail := by
  apply bind (runs.mono (fun _ _ same => same) fun _ impossible => impossible.elim)
  rintro _ _ ⟨rfl, rfl⟩
  exact second

theorem failAt {cause : Cause} {position : Position} (holds : fail (.grammatical cause position)) :
    Meets (Parser.failAt cause position) before post fail :=
  fun _ _ _ => holds

theorem get {next : State → Parser α} (free : ∀ state, next state.settled = next state)
    (meets : Meets (next before) before post fail) :
    Meets (MonadState.get >>= next) before post fail := by
  rintro state ready rfl
  rw [free] at meets
  exact meets state ready rfl

theorem modify {post : PUnit → State → Prop} {change : State → State}
    (free : State.LexerFree change) (holds : post ⟨⟩ (change before)) :
    Meets (modify change) before post fail := by
  rintro state ready rfl
  refine ⟨(free.lexer_eq state).symm ▸ ready, ?_⟩
  rw [State.settled, free.lexer_eq, ← free]
  exact holds

theorem pushMode {post : Unit → State → Prop} {mode : LexMode} (notMatter : mode ≠ .frontMatter)
    (holds : post () (before.entered mode)) : Meets (Parser.pushMode mode) before post fail := by
  rintro state ready rfl
  refine ⟨⟨?_, rfl⟩, holds⟩
  rintro (_ | ⟨_, member⟩)
  · exact notMatter rfl
  · exact ready.unmattered member

theorem popMode {post : Unit → State → Prop} (holds : post () before.left) :
    Meets Parser.popMode before post fail := by
  rintro state ready rfl
  exact ⟨⟨fun member => ready.unmattered (List.mem_of_mem_tail member), rfl⟩, holds⟩

end Meets

section Runs

variable {before : State}

theorem modify_runs {change : State → State} (free : State.LexerFree change) :
    Runs (modify change) before ⟨⟩ (change before) :=
  Meets.modify free ⟨rfl, rfl⟩

theorem pushMode_runs {mode : LexMode} (notMatter : mode ≠ .frontMatter) :
    Runs (Parser.pushMode mode) before () (before.entered mode) :=
  Meets.pushMode notMatter ⟨rfl, rfl⟩

theorem popMode_runs : Runs Parser.popMode before () before.left :=
  Meets.popMode ⟨rfl, rfl⟩

theorem Runs.exists_eq {α : Type} {action : Parser α} {result : α} {after state : State}
    (runs : Runs action before result after) (ready : state.lexer.Ready)
    (settledEq : state.settled = before) :
    ∃ final, action state = .ok result final ∧ final.lexer.Ready ∧ final.settled = after := by
  have ran := runs state ready settledEq
  cases actionEq : action state with
  | ok found final =>
      rw [actionEq] at ran
      obtain ⟨readyThen, rfl, finalEq⟩ := ran
      exact ⟨final, rfl, readyThen, finalEq⟩
  | error error final =>
      rw [actionEq] at ran
      exact ran.elim

end Runs

end Parser

end TemplateCompiler
