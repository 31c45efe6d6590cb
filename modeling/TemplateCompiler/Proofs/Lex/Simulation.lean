import TemplateCompiler.Proofs.Lex.Lookahead
import TemplateCompiler.Proofs.Lex.Reader

/-!
# Lexers do what readers do

A lexer stands where a reader stands, and the tokens that it holds are those the
reader would take next.  Every action that reads on keeps this, front matter
included, where the token before decides whether another one follows.  So the
lexer gives what the reader gives, however far it has looked ahead.
-/

namespace TemplateCompiler

namespace Reader

variable {source : List Char} {reader : Reader}

/-- A reader stands between two characters of its source. -/
def Within (source : List Char) (reader : Reader) : Prop :=
  (reader.cursor source).Within source

@[simp]
theorem cursor_start (source : List Char) : start.cursor source = .ofText source :=
  (Cursor.within_ofText source).ofMark_eq

theorem within_start (source : List Char) : start.Within source := by
  rw [Within, cursor_start]
  exact Cursor.within_ofText source

/-- What is scanned at the place of a reader comes from a lexeme there. -/
theorem exists_lexeme {scanned : Scanned} (found : reader.scanned source = .ok (some scanned)) :
    ¬(reader.mode = .frontMatter ∧ reader.last.any Token.isFrontMatter = true) ∧
      ∃ lexeme, Lexer.scanAt reader.mode (reader.cursor source) = .ok (some lexeme) ∧
        scanned = Lexer.scannedOf (reader.cursor source) lexeme := by
  unfold Reader.scanned at found
  split at found
  · simp at found
  · next unfinished =>
      refine ⟨unfinished, ?_⟩
      simp only at found
      split at found
      · next lexeme? scannedAt =>
          obtain ⟨lexeme, rfl, scannedEq⟩ := Option.map_eq_some_iff.1 (Except.ok.inj found)
          exact ⟨lexeme, scannedAt, scannedEq.symm⟩
      · contradiction

theorem Within.stop_eq {scanned : Scanned} (within : reader.Within source)
    (found : reader.scanned source = .ok (some scanned)) :
    scanned.stop.Within source ∧ (reader.moved scanned).cursor source = scanned.stop := by
  obtain ⟨-, lexeme, -, rfl⟩ := exists_lexeme found
  have stopWithin := within.advanceBy lexeme.length
  exact ⟨stopWithin, stopWithin.ofMark_eq⟩

theorem Within.moved {scanned : Scanned} (within : reader.Within source)
    (found : reader.scanned source = .ok (some scanned)) :
    (reader.moved scanned).Within source := by
  obtain ⟨stopWithin, cursorEq⟩ := within.stop_eq found
  rwa [Within, cursorEq]

/-- The reader behind several tokens. -/
def movedAll (reader : Reader) (held : List Scanned) : Reader :=
  held.foldl moved reader

@[simp]
theorem modes_movedAll (held : List Scanned) :
    (reader.movedAll held).modes = reader.modes := by
  induction held generalizing reader with
  | nil => rfl
  | cons scanned held ih => exact ih

theorem last_movedAll (held : List Scanned) :
    (reader.movedAll held).last = (held.getLast?.map (·.token)).or reader.last := by
  induction held generalizing reader with
  | nil => rfl
  | cons scanned held ih =>
      rw [movedAll, List.foldl_cons, ← movedAll, ih, List.getLast?_cons]
      cases held.getLast? <;> rfl

theorem movedAll_concat (held : List Scanned) (scanned : Scanned) :
    reader.movedAll (held ++ [scanned]) = (reader.movedAll held).moved scanned := by
  simp [movedAll]

/-- Some tokens are the next ones that a reader takes. -/
def Foresees (source : List Char) : Reader → List Scanned → Prop
  | _, [] => True
  | reader, scanned :: later =>
      reader.scanned source = .ok (some scanned) ∧ Foresees source (reader.moved scanned) later

theorem foresees_concat {held : List Scanned} {scanned : Scanned} :
    Foresees source reader (held ++ [scanned]) ↔
      Foresees source reader held ∧
        (reader.movedAll held).scanned source = .ok (some scanned) := by
  induction held generalizing reader with
  | nil => simp [Foresees, movedAll]
  | cons first held ih =>
      simp only [List.cons_append, Foresees, ih, and_assoc]
      rfl

theorem Foresees.within {held : List Scanned} (foresees : Foresees source reader held)
    (within : reader.Within source) : (reader.movedAll held).Within source := by
  induction held generalizing reader with
  | nil => exact within
  | cons scanned held ih => exact ih foresees.2 (within.moved foresees.1)

/-- The next tokens at the place of a reader: `count` of them, or as many as
there are. -/
def upcoming (source : List Char) : (count : Nat) → Reader → Except Lex.Error (List Scanned)
  | 0, _ => .ok []
  | count + 1, reader =>
      match reader.scanned source with
      | .ok none => .ok []
      | .ok (some scanned) => (upcoming source count (reader.moved scanned)).map (scanned :: ·)
      | .error error => .error error

theorem consume_next_eq_upcoming (source : List Char) (places : Nat) (reader : Reader) :
    match upcoming source (places + 1) reader with
    | .ok held => ∃ after, (do consume source places; next source : Reading (Option Token))
        reader = .ok (held[places]?.map (·.token)) after
    | .error error => ∃ after, (do consume source places; next source : Reading (Option Token))
        reader = .error error after := by
  induction places generalizing reader with
  | zero =>
      simp only [upcoming, consume, run_bind, run_pure, next]
      cases reader.scanned source with
      | error error => exact ⟨_, rfl⟩
      | ok scanned? => cases scanned? <;> exact ⟨_, rfl⟩
  | succ places ih =>
      rw [upcoming]
      cases found : reader.scanned source with
      | error error => simp [consume, run_bind, next, found]
      | ok scanned? =>
          cases scanned? with
          | none => simp [consume, run_bind, run_pure, next, found]
          | some scanned =>
              have later := ih (reader.moved scanned)
              simp only [consume, run_bind, next, found] at later ⊢
              cases all : upcoming source (places + 1) (reader.moved scanned) with
              | error error =>
                  rw [all] at later
                  exact later
              | ok held =>
                  rw [all] at later
                  exact later

theorem peek_eq_upcoming (places : Nat) (reader : Reader) :
    peek source places reader =
      match upcoming source (places + 1) reader with
      | .ok held => .ok (held[places]?.map (·.token)) reader
      | .error error => .error error reader := by
  have took := consume_next_eq_upcoming source places reader
  rw [peek]
  cases all : upcoming source (places + 1) reader with
  | error error =>
      rw [all] at took
      obtain ⟨after, failed⟩ := took
      rw [failed]
  | ok held =>
      rw [all] at took
      obtain ⟨after, ended⟩ := took
      rw [ended]

/-- A reader need not look at tokens that are known already. -/
theorem Foresees.upcoming_eq {held : List Scanned} (foresees : Foresees source reader held)
    (places : Nat) :
    (upcoming source (places + 1) reader).map (·[places]?) =
      (upcoming source (places + 1 - held.length) (reader.movedAll held)).map
        fun more => (held ++ more)[places]? := by
  induction held generalizing reader places with
  | nil => rfl
  | cons scanned held ih =>
      rw [upcoming, foresees.1]
      cases places with
      | zero =>
          have noMore : 0 + 1 - (scanned :: held).length = 0 := by simp
          rw [noMore]
          rfl
      | succ places =>
          have later := ih foresees.2 places
          have fewer : places + 1 + 1 - (scanned :: held).length = places + 1 - held.length := by
            simp
          rw [fewer, movedAll, List.foldl_cons, ← movedAll]
          simp only [List.cons_append, List.getElem?_cons_succ]
          rw [← later]
          cases upcoming source (places + 1) (reader.moved scanned) <;> rfl

end Reader

namespace Lexer

open Reader

variable {source : List Char} {reader : Reader} {lexer : Lexer}

/-- A lexer stands where a reader stands, and holds the tokens that the reader
takes next. -/
structure Shadows (source : List Char) (reader : Reader) (lexer : Lexer) : Prop where
  within : reader.Within source
  takenEq : lexer.taken = reader.cursor source
  lastEq : lexer.last = reader.last
  modesEq : lexer.modes = reader.modes
  foresees : reader.Foresees source lexer.lookahead
  aheadEq : lexer.ahead = (reader.movedAll lexer.lookahead).cursor source

theorem shadows_ofText (source : List Char) : (ofText source).Shadows source .start :=
  ⟨within_start source, (cursor_start source).symm, rfl, rfl, trivial, (cursor_start source).symm⟩

theorem Shadows.mode_eq (shadows : lexer.Shadows source reader) : lexer.mode = reader.mode :=
  congrArg (·.headD .markup) shadows.modesEq

theorem Shadows.pushMode (mode : LexMode) (shadows : lexer.Shadows source reader) :
    (lexer.pushMode mode).Shadows source { reader with modes := mode :: reader.modes } :=
  ⟨shadows.within, shadows.takenEq, shadows.lastEq, congrArg (mode :: ·) shadows.modesEq, trivial,
    shadows.takenEq⟩

theorem Shadows.popMode (shadows : lexer.Shadows source reader) :
    lexer.popMode.Shadows source { reader with modes := reader.modes.tail } :=
  ⟨shadows.within, shadows.takenEq, shadows.lastEq, congrArg List.tail shadows.modesEq, trivial,
    shadows.takenEq⟩

/-- A lexer scans on where the reader stands that has taken the tokens held. -/
theorem Shadows.scan_eq (shadows : lexer.Shadows source reader) :
    match (reader.movedAll lexer.lookahead).scanned source with
    | .ok none => scan lexer = .ok none lexer
    | .ok (some scanned) => scan lexer = .ok (some scanned)
        { lexer with
          ahead := scanned.stop
          history := .scanned lexer.mode scanned.token :: lexer.history }
    | .error error => ∃ after, scan lexer = .error error after := by
  have modeEq : (reader.movedAll lexer.lookahead).mode = lexer.mode := by
    rw [shadows.mode_eq, Reader.mode, modes_movedAll, Reader.mode]
  have finishedEq : (reader.movedAll lexer.lookahead).last.any Token.isFrontMatter =
      lexer.followsFrontMatter := by
    rw [last_movedAll, followsFrontMatter, shadows.lastEq]
    cases lexer.lookahead.getLast? <;> rfl
  simp only [Reader.scanned, modeEq, finishedEq, ← shadows.aheadEq, scan]
  by_cases finished : lexer.mode = .frontMatter ∧ lexer.followsFrontMatter = true
  · simp only [finished, and_self, if_true]
  · simp only [finished, if_false]
    cases scanAt lexer.mode lexer.ahead with
    | error fault => exact ⟨_, rfl⟩
    | ok lexeme? => cases lexeme? <;> rfl

/-- The lexer that holds one more token. -/
def hold (lexer : Lexer) (scanned : Scanned) : Lexer :=
  { lexer with
    ahead := scanned.stop
    lookahead := lexer.lookahead ++ [scanned]
    history := .scanned lexer.mode scanned.token :: lexer.history }

/-- The lexer that has given out the first token it held. -/
def giveOut (lexer : Lexer) (scanned : Scanned) (later : List Scanned) : Lexer :=
  { lexer with
    lookahead := later
    taken := scanned.stop
    last := some scanned.token
    history := .taken lexer.mode scanned.token :: lexer.history }

/-- A lexer that holds one more token still holds what the reader takes next. -/
theorem Shadows.hold (shadows : lexer.Shadows source reader) {scanned : Scanned}
    (found : (reader.movedAll lexer.lookahead).scanned source = .ok (some scanned)) :
    (lexer.hold scanned).Shadows source reader where
  within := shadows.within
  takenEq := shadows.takenEq
  lastEq := shadows.lastEq
  modesEq := shadows.modesEq
  foresees := foresees_concat.2 ⟨shadows.foresees, found⟩
  aheadEq := by
    rw [Lexer.hold, movedAll_concat]
    exact ((shadows.foresees.within shadows.within).stop_eq found).2.symm

theorem Shadows.giveOut (shadows : lexer.Shadows source reader) {scanned : Scanned}
    {later : List Scanned} (held : lexer.lookahead = scanned :: later) :
    (lexer.giveOut scanned later).Shadows source (reader.moved scanned) := by
  obtain ⟨within, takenEq, lastEq, modesEq, foresees, aheadEq⟩ := shadows
  rw [held] at foresees aheadEq
  exact ⟨within.moved foresees.1, (within.stop_eq foresees.1).2.symm, rfl, modesEq, foresees.2,
    aheadEq⟩

/-- A lexer does what a reader does: it gives the same result or fails with the
same error, and when it succeeds it stands where the reader stands. -/
def Simulates {α : Type} (source : List Char) (action : Lexing α) (reading : Reading α) : Prop :=
  ∀ lexer reader, lexer.Shadows source reader →
    match reading reader with
    | .ok result moved => ∃ after, action lexer = .ok result after ∧ after.Shadows source moved
    | .error error _ => ∃ after, action lexer = .error error after

namespace Simulates

variable {α β : Type}

theorem pure (result : α) : Simulates source (Pure.pure result) (Pure.pure result) :=
  fun lexer _ shadows => ⟨lexer, rfl, shadows⟩

theorem bind {action : Lexing α} {reading : Reading α} {next : α → Lexing β}
    {readingNext : α → Reading β} (first : Simulates source action reading)
    (second : ∀ result, Simulates source (next result) (readingNext result)) :
    Simulates source (action >>= next) (reading >>= readingNext) := by
  intro lexer reader shadows
  have ran := first lexer reader shadows
  simp only [run_bind]
  cases read : reading reader with
  | error error moved =>
      rw [read] at ran
      obtain ⟨after, failed⟩ := ran
      exact ⟨after, by rw [failed]⟩
  | ok result moved =>
      rw [read] at ran
      obtain ⟨after, ended, shadowsAfter⟩ := ran
      rw [ended]
      exact second result after moved shadowsAfter

theorem modify {change : Lexer → Lexer} {readingChange : Reader → Reader}
    (keeps : ∀ {lexer reader}, Lexer.Shadows source reader lexer →
      (change lexer).Shadows source (readingChange reader)) :
    Simulates source (modify change) (modify readingChange) :=
  fun lexer _ shadows => ⟨change lexer, rfl, keeps shadows⟩

/-- An action may ask about whatever a lexer and a reader have in common. -/
theorem get {next : Lexer → Lexing α} {readingNext : Reader → Reading α}
    (common : ∀ {lexer reader}, Lexer.Shadows source reader lexer →
      Simulates source (next lexer) (readingNext reader)) :
    Simulates source (MonadState.get >>= next) (MonadState.get >>= readingNext) :=
  fun lexer reader shadows => common shadows lexer reader shadows

end Simulates

theorem next_of_held {scanned : Scanned} {later : List Scanned}
    (held : lexer.lookahead = scanned :: later) :
    next lexer = .ok (some scanned.token) (lexer.giveOut scanned later) := by
  obtain ⟨ahead, modes, lookahead, taken, last, history⟩ := lexer
  obtain rfl : lookahead = scanned :: later := held
  rfl

/-- A token that was scanned comes from a lexeme at the place of scanning. -/
theorem scan_found {scanned : Scanned} {after : Lexer}
    (found : scan lexer = .ok (some scanned) after) :
    ¬(lexer.mode = .frontMatter ∧ lexer.followsFrontMatter = true) ∧
      (∃ lexeme, scanAt lexer.mode lexer.ahead = .ok (some lexeme) ∧
        scanned = scannedOf lexer.ahead lexeme) ∧
      after = { lexer with
        ahead := scanned.stop
        history := .scanned lexer.mode scanned.token :: lexer.history } := by
  unfold scan at found
  split at found
  · simp at found
  · next unfinished =>
      simp only at found
      split at found
      · simp at found
      · next lexeme scannedAt =>
          obtain ⟨scannedEq, rfl⟩ := EStateM.Result.ok.inj found
          obtain rfl := Option.some.inj scannedEq
          exact ⟨unfinished, ⟨lexeme, scannedAt, rfl⟩, rfl⟩
      · simp at found

theorem next_of_ended {after : Lexer} (empty : lexer.lookahead = [])
    (ended : scan lexer = .ok none after) : next lexer = .ok none after := by
  simp [next, run_bind, run_get, run_pure, empty, ended]

theorem next_of_failed {error : Lex.Error} {after : Lexer} (empty : lexer.lookahead = [])
    (failed : scan lexer = .error error after) : next lexer = .error error after := by
  simp [next, run_bind, run_get, empty, failed]

/-- A lexer that holds nothing scans a token and gives it out. -/
theorem next_of_found {scanned : Scanned} {after : Lexer} (empty : lexer.lookahead = [])
    (found : scan lexer = .ok (some scanned) after) :
    next lexer = .ok (some scanned.token) ((lexer.hold scanned).giveOut scanned []) := by
  obtain ⟨-, -, rfl⟩ := scan_found found
  simp only [next, take, run_bind, run_get, run_modify, run_pure, empty, found]
  rfl

theorem next_simulates : Simulates source next (Reader.next source) := by
  intro lexer reader shadows
  cases held : lexer.lookahead with
  | cons scanned later =>
      have found := shadows.foresees
      rw [held] at found
      simp only [Reader.next, found.1]
      exact ⟨_, next_of_held held, shadows.giveOut held⟩
  | nil =>
      have ran := shadows.scan_eq
      have nowhere : reader.movedAll lexer.lookahead = reader := by
        rw [held]
        rfl
      rw [nowhere] at ran
      rw [Reader.next]
      cases found : reader.scanned source with
      | error error =>
          rw [found] at ran
          obtain ⟨after, failed⟩ := ran
          exact ⟨after, next_of_failed held failed⟩
      | ok scanned? =>
          rw [found] at ran
          cases scanned? with
          | none => exact ⟨lexer, next_of_ended held ran, shadows⟩
          | some scanned =>
              have holds := shadows.hold (nowhere.symm ▸ found)
              exact ⟨_, next_of_found held ran, holds.giveOut (by rw [hold, held]; rfl)⟩

theorem consume_simulates (count : Nat) :
    Simulates source (consume count) (Reader.consume source count) := by
  induction count with
  | zero => exact .pure ()
  | succ count ih =>
      refine next_simulates.bind fun token? => ?_
      cases token? with
      | none => exact .pure ()
      | some token => exact ih

theorem collectAtMost_simulates (bound : Nat) :
    Simulates source (collectAtMost bound) (Reader.collectAtMost source bound) := by
  induction bound with
  | zero => exact .pure []
  | succ bound ih =>
      refine next_simulates.bind fun token? => ?_
      cases token? with
      | none => exact .pure []
      | some token => exact ih.bind fun later => .pure (token :: later)

/-- Looking further ahead adds the tokens that come next to those held. -/
theorem Shadows.lookFurther (shadows : lexer.Shadows source reader) (count : Nat) :
    match upcoming source count (reader.movedAll lexer.lookahead) with
    | .ok more => ∃ after, Lexer.lookFurther count lexer = .ok () after ∧
        after.Shadows source reader ∧ after.lookahead = lexer.lookahead ++ more
    | .error error => ∃ after, Lexer.lookFurther count lexer = .error error after := by
  induction count generalizing lexer with
  | zero => exact ⟨lexer, rfl, shadows, (List.append_nil _).symm⟩
  | succ count ih =>
      have scanned := shadows.scan_eq
      rw [upcoming]
      cases found : (reader.movedAll lexer.lookahead).scanned source with
      | error error =>
          rw [found] at scanned
          obtain ⟨after, failed⟩ := scanned
          exact ⟨after, by simp [Lexer.lookFurther, run_bind, failed]⟩
      | ok scanned? =>
          rw [found] at scanned
          cases scanned? with
          | none =>
              simp only at scanned
              refine ⟨lexer, ?_, shadows, (List.append_nil _).symm⟩
              simp [Lexer.lookFurther, run_bind, run_pure, scanned]
          | some held =>
              have later := ih (shadows.hold found)
              simp only [Lexer.hold, movedAll_concat] at later scanned
              simp only [Lexer.lookFurther, run_bind, run_modify, scanned]
              cases all : upcoming source count ((reader.movedAll lexer.lookahead).moved held) with
              | error error =>
                  rw [all] at later
                  exact later
              | ok more =>
                  rw [all] at later
                  obtain ⟨after, ended, shadowsAfter, lookaheadEq⟩ := later
                  exact ⟨after, ended, shadowsAfter, by simp [lookaheadEq]⟩

theorem peek_simulates (places : Nat) :
    Simulates source (peek places) (Reader.peek source places) := by
  intro lexer reader shadows
  have looked := shadows.lookFurther (places + 1 - lexer.lookahead.length)
  have known := shadows.foresees.upcoming_eq places
  rw [peek_eq_upcoming]
  simp only [peek, run_bind, run_get]
  cases more : upcoming source (places + 1 - lexer.lookahead.length)
      (reader.movedAll lexer.lookahead) with
  | error error =>
      rw [more] at looked known
      obtain ⟨after, failed⟩ := looked
      rw [failed]
      cases all : upcoming source (places + 1) reader with
      | error other =>
          rw [all] at known
          obtain rfl : other = error := Except.error.inj known
          exact ⟨after, rfl⟩
      | ok held => simp [all, Except.map] at known
  | ok found =>
      rw [more] at looked known
      obtain ⟨after, ended, shadowsAfter, lookaheadEq⟩ := looked
      rw [ended]
      cases all : upcoming source (places + 1) reader with
      | error other => simp [all, Except.map] at known
      | ok held =>
          rw [all] at known
          have same : held[places]? = (lexer.lookahead ++ found)[places]? := Except.ok.inj known
          refine ⟨after, ?_, shadowsAfter⟩
          simp only [lookaheadEq, same]
          rfl

end Lexer

end TemplateCompiler
