import TemplateCompiler.Proofs.Lex.Progress

/-!
# Looking ahead is transparent

In every session a lexer answers what a reader answers, that is, what follows
from the end of the last token taken, that token, and the modes in force.  What
the lexer holds beyond that place shows in no answer.  So looking ahead may be
left out of a session: all other answers and all tokens taken stay the same.
-/

namespace TemplateCompiler

theorem Reader.peek_stays {source : List Char} {places : Nat} {token? : Option Token}
    {reader moved : Reader} (read : Reader.peek source places reader = .ok token? moved) :
    moved = reader := by
  rw [Reader.peek] at read
  split at read
  · exact (EStateM.Result.ok.inj read).2.symm
  · contradiction

namespace Lexer

open Reader

variable {source : List Char} {reader : Reader} {lexer other after : Lexer}

section Operations

/-- A reader and a lexer take the same tokens to the end, though they bound their
number differently. -/
theorem collect_simulates : Simulates source collect (Reader.collect source) := by
  intro lexer reader shadows
  have enough : lexer.pending < (reader.cursor source).rest.length + 2 := by
    have pending := shadows.pending_le
    rw [shadows.takenEq] at pending
    split at pending <;> omega
  have sameEnd := (drains_collect lexer).unique (drains_collectAtMost enough)
  have collected := collectAtMost_simulates ((reader.cursor source).rest.length + 2) _ _ shadows
  rw [sameEnd]
  exact collected

theorem perform_simulates (operation : LexOperation) :
    Simulates source (perform operation) (Reader.perform source operation) := by
  cases operation with
  | pushMode mode => exact (Simulates.modify (Shadows.pushMode mode)).bind fun _ => .pure _
  | popMode =>
      refine Simulates.get fun shadows => ?_
      rw [shadows.modesEq]
      exact (Simulates.modify Shadows.popMode).bind fun _ => .pure _
  | peek places => exact (peek_simulates places).bind fun _ => .pure _
  | next => exact next_simulates.bind fun _ => .pure _
  | consume count => exact (consume_simulates count).bind fun _ => .pure _
  | collect => exact collect_simulates.bind fun _ => .pure _
  | last =>
      refine Simulates.get fun shadows => ?_
      rw [shadows.lastEq]
      exact .pure _
  | position =>
      refine Simulates.get fun {lexer reader} shadows => ?_
      have positionEq : lexer.position = reader.mark.position := by
        rw [position, shadows.takenEq]
        rfl
      rw [positionEq]
      exact .pure _

theorem transcript_simulates (operations : List LexOperation) :
    Simulates source (transcript perform operations)
      (transcript (Reader.perform source) operations) := by
  induction operations with
  | nil => exact .pure []
  | cons operation later ih =>
      exact (perform_simulates operation).bind fun _ => ih.bind fun _ => .pure _

theorem Simulates.of_ok {α : Type} {action : Lexing α} {reading : Reading α} {result : α}
    (simulates : Simulates source action reading) (shadows : lexer.Shadows source reader)
    (ran : action lexer = .ok result after) :
    ∃ moved, reading reader = .ok result moved ∧ after.Shadows source moved := by
  have same := simulates lexer reader shadows
  cases read : reading reader with
  | error error moved =>
      rw [read] at same
      obtain ⟨failed, fails⟩ := same
      simp [fails] at ran
  | ok answer moved =>
      rw [read] at same
      obtain ⟨reached, ended, shadowsAfter⟩ := same
      rw [ended] at ran
      obtain ⟨rfl, rfl⟩ := EStateM.Result.ok.inj ran
      exact ⟨moved, rfl, shadowsAfter⟩

theorem Simulates.of_reading {α : Type} {action : Lexing α} {reading : Reading α} {result : α}
    {moved : Reader} (simulates : Simulates source action reading)
    (shadows : lexer.Shadows source reader) (read : reading reader = .ok result moved) :
    ∃ after, action lexer = .ok result after ∧ after.Shadows source moved := by
  have same := simulates lexer reader shadows
  rwa [read] at same

end Operations

section Tokens

theorem tokens_lookFurther {count : Nat} (ran : lookFurther count lexer = .ok () after) :
    after.tokens = lexer.tokens := by
  induction count generalizing lexer with
  | zero => rw [(EStateM.Result.ok.inj ran).2]
  | succ count ih =>
      obtain ⟨scanned?, middle, found, rest⟩ := bind_eq_ok lexer ran
      cases scanned? with
      | none =>
          obtain rfl := scan_ended found
          rw [(EStateM.Result.ok.inj rest).2]
      | some scanned =>
          obtain ⟨-, -, rfl⟩ := scan_found found
          exact (ih rest).trans (tokens_hold lexer scanned)

/-- Looking ahead takes nothing. -/
theorem tokens_peek {places : Nat} {token? : Option Token}
    (ran : peek places lexer = .ok token? after) : after.tokens = lexer.tokens := by
  obtain ⟨same, start, got, rest⟩ := bind_eq_ok lexer ran
  obtain ⟨rfl, rfl⟩ := EStateM.Result.ok.inj got
  obtain ⟨_, middle, looked, last⟩ := bind_eq_ok _ rest
  rw [← (EStateM.Result.ok.inj last).2]
  exact tokens_lookFurther looked

/-- Taking some tokens takes those that come next where the reader stands. -/
theorem Shadows.tokens_consume {count : Nat} (shadows : lexer.Shadows source reader)
    (ran : consume count lexer = .ok () after) :
    ∃ held, upcoming source count reader = .ok held ∧
      after.tokens = lexer.tokens ++ held.map (·.token) := by
  induction count generalizing lexer reader with
  | zero =>
      rw [(EStateM.Result.ok.inj ran).2]
      exact ⟨[], rfl, (List.append_nil _).symm⟩
  | succ count ih =>
      obtain ⟨token?, middle, took, rest⟩ := bind_eq_ok lexer ran
      obtain ⟨moved, read, shadowsMoved⟩ := next_simulates.of_ok shadows took
      rw [Reader.next] at read
      rw [upcoming]
      cases found : reader.scanned source with
      | error error => simp [found] at read
      | ok scanned? =>
          rw [found] at read
          cases scanned? with
          | none =>
              obtain ⟨rfl, rfl⟩ := EStateM.Result.ok.inj read
              obtain ⟨rfl, -, -⟩ := next_eq_none took
              rw [(EStateM.Result.ok.inj rest).2]
              exact ⟨[], rfl, (List.append_nil _).symm⟩
          | some scanned =>
              obtain ⟨rfl, rfl⟩ := EStateM.Result.ok.inj read
              obtain ⟨held, upcomingEq, tokensEq⟩ := ih shadowsMoved rest
              refine ⟨scanned :: held, by simp only [upcomingEq]; rfl, ?_⟩
              rw [tokensEq, (next_eq_some took).2, List.append_assoc]
              rfl

/-- Two lexers where the same reader stands take the same tokens. -/
theorem Shadows.tokens_perform {operation : LexOperation} {answer : LexAnswer}
    {otherAfter : Lexer} (shadows : lexer.Shadows source reader)
    (otherShadows : other.Shadows source reader) (same : lexer.tokens = other.tokens)
    (ran : perform operation lexer = .ok answer after)
    (otherRan : perform operation other = .ok answer otherAfter) :
    after.tokens = otherAfter.tokens := by
  cases operation with
  | pushMode mode =>
      rw [← (EStateM.Result.ok.inj ran).2, ← (EStateM.Result.ok.inj otherRan).2]
      exact ((tokens_pushMode lexer mode).trans same).trans (tokens_pushMode other mode).symm
  | popMode =>
      rw [← (EStateM.Result.ok.inj ran).2, ← (EStateM.Result.ok.inj otherRan).2]
      exact ((tokens_popMode lexer).trans same).trans (tokens_popMode other).symm
  | peek places =>
      obtain ⟨_, _, peeked, ended⟩ := bind_eq_ok lexer ran
      obtain ⟨_, _, otherPeeked, otherEnded⟩ := bind_eq_ok other otherRan
      rw [← (EStateM.Result.ok.inj ended).2, ← (EStateM.Result.ok.inj otherEnded).2,
        tokens_peek peeked, tokens_peek otherPeeked, same]
  | next =>
      obtain ⟨token?, _, took, ended⟩ := bind_eq_ok lexer ran
      obtain ⟨otherToken?, _, otherTook, otherEnded⟩ := bind_eq_ok other otherRan
      obtain ⟨rfl, rfl⟩ := EStateM.Result.ok.inj ended
      obtain ⟨answerEq, rfl⟩ := EStateM.Result.ok.inj otherEnded
      obtain rfl := LexAnswer.token.inj answerEq
      cases otherToken? with
      | none => rw [(next_eq_none took).1, (next_eq_none otherTook).1, same]
      | some token => rw [(next_eq_some took).2, (next_eq_some otherTook).2, same]
  | consume count =>
      obtain ⟨_, _, took, ended⟩ := bind_eq_ok lexer ran
      obtain ⟨_, _, otherTook, otherEnded⟩ := bind_eq_ok other otherRan
      rw [← (EStateM.Result.ok.inj ended).2, ← (EStateM.Result.ok.inj otherEnded).2]
      obtain ⟨held, upcomingEq, tokensEq⟩ := shadows.tokens_consume took
      obtain ⟨otherHeld, otherEq, otherTokensEq⟩ := otherShadows.tokens_consume otherTook
      rw [upcomingEq] at otherEq
      rw [tokensEq, otherTokensEq, same, Except.ok.inj otherEq]
  | collect =>
      obtain ⟨collected, _, took, ended⟩ := bind_eq_ok lexer ran
      obtain ⟨otherCollected, _, otherTook, otherEnded⟩ := bind_eq_ok other otherRan
      obtain ⟨rfl, rfl⟩ := EStateM.Result.ok.inj ended
      obtain ⟨answerEq, rfl⟩ := EStateM.Result.ok.inj otherEnded
      obtain rfl := LexAnswer.tokens.inj answerEq
      obtain ⟨-, -, tokensEq⟩ := (took ▸ drains_collect lexer).ended_next
      obtain ⟨-, -, otherTokensEq⟩ := (otherTook ▸ drains_collect other).ended_next
      rw [tokensEq, otherTokensEq, same]
  | last =>
      rw [← (EStateM.Result.ok.inj ran).2, ← (EStateM.Result.ok.inj otherRan).2]
      exact same
  | position =>
      rw [← (EStateM.Result.ok.inj ran).2, ← (EStateM.Result.ok.inj otherRan).2]
      exact same

end Tokens

section Sessions

/-- One lexer looks ahead and another does not, and both stay where one reader
stands. -/
theorem Shadows.withoutPeeks {operations : List LexOperation}
    {entries : List (LexOperation × LexAnswer)} (shadows : lexer.Shadows source reader)
    (otherShadows : other.Shadows source reader) (same : lexer.tokens = other.tokens)
    (ran : transcript perform operations lexer = .ok entries after) :
    ∃ otherAfter moved,
      transcript perform (operations.filter (!·.isPeek)) other =
        .ok (entries.filter (!·.1.isPeek)) otherAfter ∧
      after.Shadows source moved ∧ otherAfter.Shadows source moved ∧
      after.tokens = otherAfter.tokens := by
  induction operations generalizing lexer other reader entries with
  | nil =>
      obtain ⟨rfl, rfl⟩ := EStateM.Result.ok.inj ran
      exact ⟨other, reader, rfl, shadows, otherShadows, same⟩
  | cons operation later ih =>
      obtain ⟨answer, middle, first, rest⟩ := bind_eq_ok lexer ran
      obtain ⟨answers, last, second, ended⟩ := bind_eq_ok middle rest
      obtain ⟨rfl, rfl⟩ := EStateM.Result.ok.inj ended
      cases looks : operation.isPeek with
      | true =>
          obtain ⟨places, rfl⟩ : ∃ places, operation = .peek places := by
            cases operation <;> first | exact ⟨_, rfl⟩ | contradiction
          obtain ⟨token?, peekedMiddle, peeked, told⟩ := bind_eq_ok lexer first
          obtain ⟨rfl, rfl⟩ := EStateM.Result.ok.inj told
          obtain ⟨moved, read, shadowsMiddle⟩ := (peek_simulates places).of_ok shadows peeked
          rw [peek_stays read] at shadowsMiddle
          have skipped := ih shadowsMiddle otherShadows ((tokens_peek peeked).trans same) second
          exact skipped
      | false =>
          obtain ⟨moved, read, shadowsMiddle⟩ := (perform_simulates operation).of_ok shadows first
          obtain ⟨otherMiddle, otherFirst, otherShadowsMiddle⟩ :=
            (perform_simulates operation).of_reading otherShadows read
          have sameMiddle := shadows.tokens_perform otherShadows same first otherFirst
          obtain ⟨otherAfter, movedOn, otherRan, shadowsAfter, otherShadowsAfter, sameAfter⟩ :=
            ih shadowsMiddle otherShadowsMiddle sameMiddle second
          refine ⟨otherAfter, movedOn, ?_, shadowsAfter, otherShadowsAfter, sameAfter⟩
          have keeps : (!operation.isPeek) = true := by rw [looks]; rfl
          rw [List.filter_cons_of_pos (by exact keeps), List.filter_cons_of_pos (by exact keeps)]
          simp only [transcript, run_bind, otherFirst, otherRan]
          rfl

/-- A session gives what a reader gives that looks at nothing but the place behind
the last token taken; it fails when the reader does, with the same error.  And when
the lexer does not look ahead, all other answers, the tokens taken, and the place and
the modes at the end are the same. -/
theorem outcome_transcript (source : List Char) (operations : List LexOperation) :
    outcome (transcript perform operations (ofText source)) =
      outcome (transcript (Reader.perform source) operations .start) ∧
    ∀ entries lexer, transcript perform operations (ofText source) = .ok entries lexer →
      ∃ other,
        transcript perform (operations.filter (!·.isPeek)) (ofText source) =
          .ok (entries.filter (!·.1.isPeek)) other ∧
        other.tokens = lexer.tokens ∧ other.last = lexer.last ∧ other.taken = lexer.taken ∧
        other.modes = lexer.modes := by
  have shadows := shadows_ofText source
  constructor
  · have same := transcript_simulates operations _ _ shadows
    cases read : transcript (Reader.perform source) operations .start with
    | ok entries moved =>
        rw [read] at same
        obtain ⟨after, ended, -⟩ := same
        rw [ended]
        rfl
    | error error moved =>
        rw [read] at same
        obtain ⟨after, failed⟩ := same
        rw [failed]
        rfl
  · intro entries lexer ran
    obtain ⟨other, moved, otherRan, shadowsAfter, otherShadows, same⟩ :=
      shadows.withoutPeeks shadows rfl ran
    exact ⟨other, otherRan, same.symm, otherShadows.lastEq.trans shadowsAfter.lastEq.symm,
      otherShadows.takenEq.trans shadowsAfter.takenEq.symm,
      otherShadows.modesEq.trans shadowsAfter.modesEq.symm⟩

theorem outcome_matterBeforeElement :
    ∃ entries lexer other,
      transcript perform matterBeforeElementSession (ofText matterBeforeElement) =
        .ok entries lexer ∧
      transcript perform [.pushMode .frontMatter, .next, .next, .popMode, .next, .pushMode .tag,
          .consume 1] (ofText matterBeforeElement) =
        .ok (entries.filter (!·.1.isPeek)) other ∧
      other.tokens = lexer.tokens := by
  have reads : readsToTheEnd matterBeforeElementSession matterBeforeElement = true := by
    decide +kernel
  obtain ⟨entries, lexer, -, -, ran, -, -⟩ := of_readsToTheEnd reads
  obtain ⟨-, withoutPeeks⟩ :=
    outcome_transcript matterBeforeElement matterBeforeElementSession
  obtain ⟨other, otherRan, tokensEq, -⟩ := withoutPeeks entries lexer ran
  exact ⟨entries, lexer, other, ran, otherRan, tokensEq⟩

end Sessions

end Lexer

end TemplateCompiler
