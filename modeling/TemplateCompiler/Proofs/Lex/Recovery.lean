import TemplateCompiler.Proofs.Lex.Anchors
import TemplateCompiler.Proofs.Lex.Ledger

/-!
# Reading on after a failure

A lexer keeps its state when an operation fails, and the caller may go on.  The cursor that
scans has then come to some place inside a bad token, but the tokens held before are held
still, and a change of mode goes back to the last token taken.  So behind a change of mode
the failed operation leaves no trace, except in the log, which no answer depends on.

An operation that takes several tokens fails when taking one of them does.  What it leaves
behind is what the tokens taken before leave behind.
-/

namespace TemplateCompiler

namespace Lexer

variable {lexer middle after first second : Lexer} {error : Lex.Error} {α β : Type}

/-- What a lexer answers to operations one after the other, whether they fail or not. -/
def responses : List LexOperation → Lexer → List (Except Lex.Error LexAnswer)
  | [], _ => []
  | operation :: later, lexer =>
      outcome (perform operation lexer) :: responses later (endState (perform operation lexer))

section Logs

/-- Two lexers differ only in what they logged. -/
def Agrees (first second : Lexer) : Prop :=
  ∃ history, second = { first with history := history }

/-- What an action does depends on no log. -/
def IgnoresLog (action : Lexing α) : Prop :=
  ∀ first second, Agrees first second →
    outcome (action first) = outcome (action second) ∧
      (endState (action first)).Agrees (endState (action second))

namespace IgnoresLog

theorem pure (result : α) : IgnoresLog (Pure.pure result) :=
  fun _ _ agrees => ⟨rfl, agrees⟩

theorem bind {action : Lexing α} {following : α → Lexing β} (ignores : IgnoresLog action)
    (ignoresThen : ∀ result, IgnoresLog (following result)) :
    IgnoresLog (action >>= following) := by
  intro first second agrees
  obtain ⟨same, agreesThen⟩ := ignores first second agrees
  rw [run_bind, run_bind]
  cases ran : action first with
  | ok result middle =>
      cases ranSecond : action second with
      | ok other last =>
          rw [ran, ranSecond] at same agreesThen
          obtain rfl : result = other := Except.ok.inj same
          exact ignoresThen result middle last agreesThen
      | error error last => simp [ran, ranSecond, outcome] at same
  | error error middle =>
      cases ranSecond : action second with
      | ok other last => simp [ran, ranSecond, outcome] at same
      | error other last =>
          rw [ran, ranSecond] at same agreesThen
          obtain rfl : error = other := Except.error.inj same
          exact ⟨rfl, agreesThen⟩

/-- An action may ask about whatever does not change with the log. -/
theorem get {following : Lexer → Lexing α}
    (blind : ∀ lexer history, following { lexer with history := history } = following lexer)
    (ignores : ∀ lexer, IgnoresLog (following lexer)) :
    IgnoresLog (MonadState.get >>= following) := by
  intro first second agrees
  have same : following second = following first := by
    obtain ⟨history, rfl⟩ := agrees
    exact blind first history
  change outcome (following first first) = outcome (following second second) ∧
    (endState (following first first)).Agrees (endState (following second second))
  rw [same]
  exact ignores first first second agrees

theorem modify {change : Lexer → Lexer}
    (keeps : ∀ lexer history, (change lexer).Agrees (change { lexer with history := history })) :
    IgnoresLog (modify change : Lexing PUnit) := by
  rintro first _ ⟨history, rfl⟩
  exact ⟨rfl, keeps first history⟩

end IgnoresLog

theorem scan_ignoresLog : IgnoresLog scan := by
  rintro first _ ⟨history, rfl⟩
  have modeEq : ({ first with history := history } : Lexer).mode = first.mode := rfl
  have followsEq : ({ first with history := history } : Lexer).followsFrontMatter =
      first.followsFrontMatter := rfl
  rw [scan, scan, modeEq, followsEq]
  by_cases finished : first.mode = .frontMatter ∧ first.followsFrontMatter = true
  · rw [if_pos finished, if_pos finished]
    exact ⟨rfl, history, rfl⟩
  · rw [if_neg finished, if_neg finished]
    simp only
    cases scanAt first.mode first.ahead with
    | error fault => exact ⟨rfl, history, rfl⟩
    | ok lexeme? =>
        cases lexeme? with
        | none => exact ⟨rfl, history, rfl⟩
        | some lexeme => exact ⟨rfl, _, rfl⟩

theorem take_ignoresLog (scanned : Scanned) : IgnoresLog (take scanned) :=
  (IgnoresLog.modify fun _ _ => ⟨_, rfl⟩).bind fun _ => .pure _

theorem next_ignoresLog : IgnoresLog next := by
  refine .get (fun _ _ => rfl) fun lexer => ?_
  cases lexer.lookahead with
  | nil =>
      refine scan_ignoresLog.bind fun scanned? => ?_
      cases scanned? with
      | none => exact .pure none
      | some scanned => exact (take_ignoresLog scanned).bind fun _ => .pure _
  | cons scanned later =>
      refine (IgnoresLog.modify fun _ history => ⟨history, rfl⟩).bind fun _ => ?_
      exact (take_ignoresLog scanned).bind fun _ => .pure _

theorem consume_ignoresLog (count : Nat) : IgnoresLog (consume count) := by
  induction count with
  | zero => exact .pure ()
  | succ count ih =>
      refine next_ignoresLog.bind fun token? => ?_
      cases token? with
      | none => exact .pure ()
      | some token => exact ih

theorem collectAtMost_ignoresLog (bound : Nat) : IgnoresLog (collectAtMost bound) := by
  induction bound with
  | zero => exact .pure []
  | succ bound ih =>
      refine next_ignoresLog.bind fun token? => ?_
      cases token? with
      | none => exact .pure []
      | some token => exact ih.bind fun later => .pure (token :: later)

theorem lookFurther_ignoresLog (count : Nat) : IgnoresLog (lookFurther count) := by
  induction count with
  | zero => exact .pure ()
  | succ count ih =>
      refine scan_ignoresLog.bind fun scanned? => ?_
      cases scanned? with
      | none => exact .pure ()
      | some scanned => exact (IgnoresLog.modify fun _ history => ⟨history, rfl⟩).bind fun _ => ih

theorem perform_ignoresLog (operation : LexOperation) : IgnoresLog (perform operation) := by
  cases operation with
  | pushMode mode => exact (IgnoresLog.modify fun _ _ => ⟨_, rfl⟩).bind fun _ => .pure _
  | popMode =>
      exact .get (fun _ _ => rfl) fun lexer =>
        (IgnoresLog.modify fun _ _ => ⟨_, rfl⟩).bind fun _ => .pure _
  | peek places =>
      refine IgnoresLog.bind (.get (fun _ _ => rfl) fun lexer => ?_) fun _ => .pure _
      exact (lookFurther_ignoresLog _).bind fun _ => .get (fun _ _ => rfl) fun _ => .pure _
  | next => exact next_ignoresLog.bind fun _ => .pure _
  | consume count => exact (consume_ignoresLog count).bind fun _ => .pure _
  | collect =>
      refine IgnoresLog.bind (.get (fun _ _ => rfl) fun lexer => ?_) fun _ => .pure _
      exact collectAtMost_ignoresLog _
  | last => exact .get (fun _ _ => rfl) fun _ => .pure _
  | position => exact .get (fun _ _ => rfl) fun _ => .pure _

/-- Lexers that differ only in their logs answer alike, whatever is asked of them. -/
theorem Agrees.responses_eq (agrees : first.Agrees second) (operations : List LexOperation) :
    responses operations first = responses operations second := by
  induction operations generalizing first second with
  | nil => rfl
  | cons operation later ih =>
      obtain ⟨same, agreesThen⟩ := perform_ignoresLog operation first second agrees
      rw [responses, responses, same, ih agreesThen]

end Logs

section Failures

/-- A lexer still holds the tokens that another one holds, perhaps with more behind them,
and has taken the same ones in the same modes. -/
structure Retains (lexer after : Lexer) : Prop where
  taken : after.taken = lexer.taken
  last : after.last = lexer.last
  modes : after.modes = lexer.modes
  held : lexer.lookahead <+: after.lookahead

theorem Retains.trans (retains : lexer.Retains middle) (retainsThen : middle.Retains after) :
    lexer.Retains after where
  taken := retainsThen.taken.trans retains.taken
  last := retainsThen.last.trans retains.last
  modes := retainsThen.modes.trans retains.modes
  held := retains.held.trans retainsThen.held

theorem retains_hold (lexer : Lexer) (scanned : Scanned) : lexer.Retains (lexer.hold scanned) :=
  ⟨rfl, rfl, rfl, List.prefix_append _ _⟩

theorem retains_of_scan_failed (failed : scan lexer = .error error after) :
    lexer.Retains after := by
  obtain ⟨reached, rfl⟩ := scan_failed failed
  exact ⟨rfl, rfl, rfl, List.prefix_refl _⟩

theorem retains_of_lookFurther_failed {count : Nat}
    (failed : lookFurther count lexer = .error error after) : lexer.Retains after := by
  induction count generalizing lexer with
  | zero => contradiction
  | succ count ih =>
      rw [lookFurther, run_bind] at failed
      cases found : scan lexer with
      | error scanError reached =>
          rw [found] at failed
          obtain ⟨rfl, rfl⟩ := EStateM.Result.error.inj failed
          exact retains_of_scan_failed found
      | ok scanned? middle =>
          rw [found] at failed
          cases scanned? with
          | none => contradiction
          | some scanned =>
              obtain ⟨-, -, rfl⟩ := scan_found found
              exact (retains_hold lexer scanned).trans (ih failed)

theorem retains_of_peek_failed {places : Nat} (failed : peek places lexer = .error error after) :
    lexer.Retains after := by
  simp only [peek, run_bind, run_get] at failed
  cases looked : lookFurther (places + 1 - lexer.lookahead.length) lexer with
  | error lookError reached =>
      rw [looked] at failed
      obtain ⟨rfl, rfl⟩ := EStateM.Result.error.inj failed
      exact retains_of_lookFurther_failed looked
  | ok nothing middle =>
      rw [looked] at failed
      contradiction

theorem retains_of_next_failed (failed : next lexer = .error error after) :
    lexer.Retains after :=
  retains_of_scan_failed (next_eq_error failed).2

/-- A lexer that kept what another one had: it tells the same mode, last token and position,
it still gives out the tokens that were held, and from the next change of mode on it answers
whatever the other one answers. -/
structure Spares (lexer after : Lexer) : Prop where
  mode : after.mode = lexer.mode
  last : after.last = lexer.last
  position : after.position = lexer.position
  held : responses (List.replicate lexer.lookahead.length .next) after =
    lexer.lookahead.map fun scanned => .ok (.token (some scanned.token))
  changed : ∀ change : LexOperation, change.changesMode = true → ∀ operations,
    responses (change :: operations) after = responses (change :: operations) lexer

theorem responses_of_held {held more : List Scanned} (heldEq : lexer.lookahead = held ++ more) :
    responses (List.replicate held.length .next) lexer =
      held.map fun scanned => .ok (.token (some scanned.token)) := by
  induction held generalizing lexer with
  | nil => rfl
  | cons scanned later ih =>
      have ran : perform .next lexer =
          .ok (.token (some scanned.token)) (lexer.giveOut scanned (later ++ more)) := by
        rw [perform, run_bind, next_of_held heldEq]
        rfl
      rw [List.length_cons, List.replicate_succ, responses, ran, outcome, endState, ih rfl]
      rfl

theorem Retains.spares (retains : lexer.Retains after) : lexer.Spares after where
  mode := congrArg (·.headD .markup) retains.modes
  last := retains.last
  position := congrArg (·.mark.position) retains.taken
  held := by
    obtain ⟨more, heldEq⟩ := retains.held
    exact responses_of_held heldEq.symm
  changed := by
    intro change changes operations
    have pushed (mode : LexMode) : (after.pushMode mode).Agrees (lexer.pushMode mode) := by
      refine ⟨(lexer.pushMode mode).history, ?_⟩
      simp [pushMode, rewind, retains.taken, retains.last, retains.modes]
    have popped : after.popMode.Agrees lexer.popMode := by
      refine ⟨lexer.popMode.history, ?_⟩
      simp [popMode, rewind, retains.taken, retains.last, retains.modes]
    cases change with
    | pushMode mode =>
        exact congrArg (.ok .done :: ·) ((pushed mode).responses_eq operations)
    | popMode =>
        have ran (lexer : Lexer) :
            perform .popMode lexer = .ok (.mode lexer.modes.head?) lexer.popMode := rfl
        rw [responses, responses, ran, ran, outcome, outcome, endState, endState, retains.modes,
          popped.responses_eq operations]
    | peek places => contradiction
    | next => contradiction
    | consume count => contradiction
    | collect => contradiction
    | last => contradiction
    | position => contradiction

/-- Some tokens are taken one after the other. -/
def Takes (lexer : Lexer) (tokens : List Token) (after : Lexer) : Prop :=
  transcript perform (List.replicate tokens.length .next) lexer =
    .ok (tokens.map fun token => (.next, .token (some token))) after

theorem takes_nil (lexer : Lexer) : lexer.Takes [] lexer :=
  rfl

theorem Takes.cons {token : Token} {tokens : List Token}
    (some : next lexer = .ok (some token) middle) (takes : middle.Takes tokens after) :
    lexer.Takes (token :: tokens) after := by
  have ran : perform .next lexer = .ok (.token (.some token)) middle := by
    rw [perform, run_bind, some]
    rfl
  rw [Takes] at takes ⊢
  rw [List.length_cons, List.replicate_succ, transcript, run_bind, ran]
  simp only [run_bind, takes, run_pure]
  rfl

/-- Taking a number of tokens fails where taking the next one does. -/
theorem takes_of_consume_failed {count : Nat} (failed : consume count lexer = .error error after) :
    ∃ tokens middle, lexer.Takes tokens middle ∧ next middle = .error error after := by
  induction count generalizing lexer with
  | zero => contradiction
  | succ count ih =>
      rw [consume, run_bind] at failed
      cases took : next lexer with
      | error nextError reached =>
          rw [took] at failed
          obtain ⟨rfl, rfl⟩ := EStateM.Result.error.inj failed
          exact ⟨[], lexer, takes_nil lexer, took⟩
      | ok token? between =>
          rw [took] at failed
          cases token? with
          | none => contradiction
          | some token =>
              obtain ⟨tokens, middle, takes, fails⟩ := ih failed
              exact ⟨token :: tokens, middle, .cons took takes, fails⟩

theorem Drains.takes (drains : Drains lexer (.error error after)) :
    ∃ tokens middle, lexer.Takes tokens middle ∧ next middle = .error error after := by
  generalize resultEq : EStateM.Result.error error after = result at drains
  induction drains with
  | ended none => contradiction
  | failed fails =>
      obtain ⟨rfl, rfl⟩ := EStateM.Result.error.inj resultEq
      exact ⟨[], _, takes_nil _, fails⟩
  | took some drains ih => contradiction
  | tookThenFailed some drains ih =>
      obtain ⟨rfl, rfl⟩ := EStateM.Result.error.inj resultEq
      obtain ⟨tokens, middle, takes, fails⟩ := ih rfl
      exact ⟨_, middle, .cons some takes, fails⟩

/-- Whatever a lexer has done before, a failed look ahead and a failed attempt to take a token
spare what was there.  When several tokens were to be taken, some were taken one after the
other, then taking one failed, and this spares what was there by then. -/
theorem failures_spare (lexer : Lexer) :
    (∀ places error after, peek places lexer = .error error after → lexer.Spares after) ∧
    (∀ error after, next lexer = .error error after → lexer.Spares after) ∧
    (∀ count error after, consume count lexer = .error error after →
      ∃ tokens middle, lexer.Takes tokens middle ∧ next middle = .error error after ∧
        middle.Spares after) ∧
    ∀ error after, collect lexer = .error error after →
      ∃ tokens middle, lexer.Takes tokens middle ∧ next middle = .error error after ∧
        middle.Spares after := by
  refine ⟨fun places error after failed => (retains_of_peek_failed failed).spares,
    fun error after failed => (retains_of_next_failed failed).spares,
    fun count error after failed => ?_, fun error after failed => ?_⟩
  · obtain ⟨tokens, middle, takes, fails⟩ := takes_of_consume_failed failed
    exact ⟨tokens, middle, takes, fails, (retains_of_next_failed fails).spares⟩
  · have drains := drains_collect lexer
    rw [failed] at drains
    obtain ⟨tokens, middle, takes, fails⟩ := drains.takes
    exact ⟨tokens, middle, takes, fails, (retains_of_next_failed fails).spares⟩

/-- A lexer that holds the first of two tokens before an entity that is not complete. -/
def atOpenEntity : Lexer :=
  endState (peek 0 (ofText "a &b".toList))

/-- The same lexer when both tokens were taken. -/
def behindTokens : Lexer :=
  endState (consume 2 atOpenEntity)

theorem failures_spare_openEntity :
    (∃ error after, peek 2 atOpenEntity = .error error after ∧ atOpenEntity.Spares after) ∧
    (∃ error after, next behindTokens = .error error after ∧ behindTokens.Spares after) ∧
    (∃ error after tokens middle, consume 3 atOpenEntity = .error error after ∧
      atOpenEntity.Takes tokens middle ∧ middle.Spares after) ∧
    ∃ error after tokens middle, collect atOpenEntity = .error error after ∧
      atOpenEntity.Takes tokens middle ∧ middle.Spares after := by
  obtain ⟨peekSpares, -, consumeSpares, collectSpares⟩ := failures_spare atOpenEntity
  obtain ⟨-, nextSpares, -, -⟩ := failures_spare behindTokens
  refine ⟨?_, ?_, ?_, ?_⟩
  · obtain ⟨error, after, failed⟩ := eq_error_of_not_isOk
      (by decide +kernel : (outcome (peek 2 atOpenEntity)).isOk = false)
    exact ⟨error, after, failed, peekSpares 2 error after failed⟩
  · obtain ⟨error, after, failed⟩ := eq_error_of_not_isOk
      (by decide +kernel : (outcome (next behindTokens)).isOk = false)
    exact ⟨error, after, failed, nextSpares error after failed⟩
  · obtain ⟨error, after, failed⟩ := eq_error_of_not_isOk
      (by decide +kernel : (outcome (consume 3 atOpenEntity)).isOk = false)
    obtain ⟨tokens, middle, takes, -, spares⟩ := consumeSpares 3 error after failed
    exact ⟨error, after, tokens, middle, failed, takes, spares⟩
  · obtain ⟨error, after, failed⟩ := eq_error_of_not_isOk
      (by decide +kernel : (outcome (collect atOpenEntity)).isOk = false)
    obtain ⟨tokens, middle, takes, -, spares⟩ := collectSpares error after failed
    exact ⟨error, after, tokens, middle, failed, takes, spares⟩

end Failures

end Lexer

end TemplateCompiler
