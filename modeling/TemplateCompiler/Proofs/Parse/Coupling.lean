import TemplateCompiler.Proofs.Lex.Progress
import TemplateCompiler.Proofs.Parse.Reading
import TemplateCompiler.Proofs.Parse.Seams

/-!
# Two readings of a text step by step

An action is coupled with another one when both do the same in the two readings
of a text.  What the first one does is followed forward; that the longer source
does not disturb it is known only from how it ends, so that is followed backward:
what is needed of the state behind an action gives what is needed of the state
before it, and only then the second reading is looked at.

The two actions differ in the bounds on their repetitions and in the places they
hand on.  As in the rules for one reading, the couplings of an action are
assembled from those of its parts.
-/

namespace TemplateCompiler

namespace Parser

open Parse

section Meets

variable {α β : Type} {before : State}

/-- What an action does for each of some indices it does for all of them, as long
as there are any. -/
theorem Meets.all {ι : Type} [Nonempty ι] {action : Parser α} {post : ι → α → State → Prop}
    {fail : ι → Parse.Error → Prop}
    (meets : ∀ index, Meets action before (post index) (fail index)) :
    Meets action before (fun result after => ∀ index, post index result after)
      fun error => ∀ index, fail index error := by
  intro state ready settledEq
  have some := meets (Classical.arbitrary ι) state ready settledEq
  cases ran : action state with
  | ok result after =>
      rw [ran] at some
      refine ⟨some.1, fun index => ?_⟩
      have holds := meets index state ready settledEq
      rw [ran] at holds
      exact holds.2
  | error error after =>
      intro index
      have holds := meets index state ready settledEq
      rwa [ran] at holds

theorem Meets.and {action : Parser α} {post other : α → State → Prop}
    {fail otherFail : Parse.Error → Prop} (first : Meets action before post fail)
    (second : Meets action before other otherFail) :
    Meets action before (fun result after => post result after ∧ other result after)
      fun error => fail error ∧ otherFail error := by
  intro state ready settledEq
  have firstHolds := first state ready settledEq
  have secondHolds := second state ready settledEq
  split at firstHolds <;> simp_all

end Meets

/-- In the two readings of a text, two actions do the same.  If the state behind
the first one is as `need` says, the state before it is as `pre` says, and the
second one gives a corresponding result. -/
def Couples {α : Type} (seam : Seam) (first second : Parser α) (before : State)
    (gives : α → α → Prop) (pre need : State → Prop) : Prop :=
  Meets first before
    (fun result after => after.rest.length ≤ before.rest.length ∧
      (seam.exact ∨ need after → (seam.exact ∨ pre before) ∧
        ∀ other, seam.Corresponds before other →
          Meets second other
            (fun result' after' => gives result result' ∧ seam.Corresponds after after')
            fun _ => False))
    fun error => seam.exact → ∀ other, seam.Corresponds before other →
      Meets second other (fun _ _ => False) (· = error.shifted seam.bytes seam.lines)

namespace Couples

variable {α β : Type} {seam : Seam} {before : State} {pre middle need : State → Prop}
  {gives : α → α → Prop}

theorem pure {result other : α} (given : gives result other) :
    Couples seam (Pure.pure result) (Pure.pure other) before gives need need :=
  Meets.pure ⟨Nat.le_refl _, fun needed =>
    ⟨needed, fun _ corresponds => Meets.pure ⟨given, corresponds⟩⟩⟩

theorem bind_known {first second : Parser α} {next next' : α → Parser β} {gives : β → β → Prop}
    {hands : α → α → Prop} {known : α → State → Prop}
    (coupled : Couples seam first second before hands pre middle)
    (knows : Meets first before known fun _ => True)
    (total : ∀ result, ∃ other, hands result other)
    (coupledThen : ∀ result other state, known result state →
      state.rest.length ≤ before.rest.length → hands result other →
      Couples seam (next result) (next' other) state gives middle need) :
    Couples seam (first >>= next) (second >>= next') before gives pre need := by
  refine Meets.bind ((Meets.and coupled knows).mono (fun _ _ holds => holds) ?_) ?_
  · rintro error ⟨failed, -⟩ isExact other corresponds
    refine Meets.bind (failed isExact other corresponds) fun _ _ impossible => impossible.elim
  · rintro result state ⟨⟨shorter, follows⟩, isKnown⟩
    have someOther : Nonempty { other // hands result other } :=
      let ⟨other, handed⟩ := total result
      ⟨other, handed⟩
    refine (Meets.all fun index : { other // hands result other } =>
      coupledThen result index.1 state isKnown shorter index.2).mono ?_ ?_
    · intro last after holds
      have shorterThen := (holds (Classical.arbitrary _)).1
      refine ⟨Nat.le_trans shorterThen shorter, fun needed => ?_⟩
      obtain ⟨before, followsThen⟩ := follows ((holds (Classical.arbitrary _)).2 needed).1
      refine ⟨before, fun other corresponds => ?_⟩
      refine Meets.bind (followsThen other corresponds) ?_
      rintro result' state' ⟨handed, correspondsThen⟩
      exact ((holds ⟨result', handed⟩).2 needed).2 state' correspondsThen
    · intro error failed isExact other corresponds
      refine Meets.bind (((follows (.inl isExact)).2 other corresponds).mono
        (fun _ _ holds => holds) fun _ impossible => impossible.elim) ?_
      rintro result' state' ⟨handed, correspondsThen⟩
      exact failed ⟨result', handed⟩ isExact state' correspondsThen

theorem knows {first second : Parser α}
    (coupled : Couples seam first second before gives pre need) :
    Meets first before (fun _ _ => True) fun _ => True :=
  coupled.mono (fun _ _ _ => trivial) fun _ _ => trivial

theorem bind_hands {first second : Parser α} {next next' : α → Parser β} {gives : β → β → Prop}
    {hands : α → α → Prop} (coupled : Couples seam first second before hands pre middle)
    (total : ∀ result, ∃ other, hands result other)
    (coupledThen : ∀ result other state, state.rest.length ≤ before.rest.length →
      hands result other → Couples seam (next result) (next' other) state gives middle need) :
    Couples seam (first >>= next) (second >>= next') before gives pre need :=
  bind_known coupled coupled.knows total fun result other state _ => coupledThen result other state

theorem bind {first second : Parser α} {next next' : α → Parser β} {gives : β → β → Prop}
    (coupled : Couples seam first second before Eq pre middle)
    (coupledThen : ∀ result state, state.rest.length ≤ before.rest.length →
      Couples seam (next result) (next' result) state gives middle need) :
    Couples seam (first >>= next) (second >>= next') before gives pre need := by
  refine bind_hands coupled (fun result => ⟨result, rfl⟩) ?_
  rintro result _ state shorter rfl
  exact coupledThen result state shorter

/-- What follows an action that only takes characters. -/
theorem bind_takes_hands {first second : Parser α} {next next' : α → Parser β}
    {gives : β → β → Prop} {hands : α → α → Prop} {spells : α → List Char → Prop}
    (takes : Takes first before spells)
    (coupled : Couples seam first second before hands pre middle)
    (total : ∀ result, ∃ other, hands result other)
    (coupledThen : ∀ result other piece, piece <+: before.rest → hands result other →
      Couples seam (next result) (next' other) (before.after piece) gives middle need) :
    Couples seam (first >>= next) (second >>= next') before gives pre need := by
  refine bind_known coupled takes total ?_
  rintro result other _ ⟨piece, ahead, -, rfl⟩ - handed
  exact coupledThen result other piece ahead handed

theorem bind_takes {first second : Parser α} {next next' : α → Parser β} {gives : β → β → Prop}
    {spells : α → List Char → Prop} (takes : Takes first before spells)
    (coupled : Couples seam first second before Eq pre middle)
    (coupledThen : ∀ result piece, piece <+: before.rest →
      Couples seam (next result) (next' result) (before.after piece) gives middle need) :
    Couples seam (first >>= next) (second >>= next') before gives pre need := by
  refine bind_takes_hands takes coupled (fun result => ⟨result, rfl⟩) ?_
  rintro result _ piece ahead rfl
  exact coupledThen result piece ahead

theorem discard_takes {first second : Parser α} {next next' : Unit → Parser β}
    {gives : β → β → Prop} {hands : α → α → Prop} {spells : α → List Char → Prop}
    (takes : Takes first before spells)
    (coupled : Couples seam first second before hands pre middle)
    (total : ∀ result, ∃ other, hands result other)
    (coupledThen : ∀ piece, piece <+: before.rest →
      Couples seam (next ()) (next' ()) (before.after piece) gives middle need) :
    Couples seam (discard first >>= next) (discard second >>= next') before gives pre need := by
  rw [discard_bind, discard_bind]
  exact bind_takes_hands takes coupled total fun _ _ piece ahead _ => coupledThen piece ahead

theorem mono {first second : Parser α} {stronger : α → α → Prop} {pre' need' : State → Prop}
    (coupled : Couples seam first second before stronger pre' need')
    (weakenGives : ∀ result other, stronger result other → gives result other)
    (weakenPre : pre' before → pre before) (weakenNeed : ∀ state, need state → need' state) :
    Couples seam first second before gives pre need := by
  refine Meets.mono coupled ?_ fun _ failed => failed
  rintro result after ⟨shorter, follows⟩
  refine ⟨shorter, fun needed => ?_⟩
  obtain ⟨holdsBefore, followsThen⟩ := follows (needed.imp_right (weakenNeed after))
  refine ⟨holdsBefore.imp_right weakenPre, fun other corresponds => ?_⟩
  refine (followsThen other corresponds).mono ?_ fun _ impossible => impossible
  exact fun _ _ holds => ⟨weakenGives _ _ holds.1, holds.2⟩

/-- An action that always fails has to be coupled only where errors are
compared. -/
theorem of_fails {first second : Parser α} (fails : Fails first before)
    (alike : seam.exact →
      Couples seam first second before gives (fun _ => True) fun _ => True) :
    Couples seam first second before gives pre need := by
  by_cases isExact : seam.exact
  · exact (Meets.and fails (alike isExact)).mono (fun _ _ impossible => impossible.1.elim)
      fun _ failed => failed.2
  · exact fails.mono (fun _ _ impossible => impossible.elim)
      fun _ _ isExact' => (isExact isExact').elim

section Tokens

theorem next_of_steady {other : State} {kind : TokenKind} {piece : List Char}
    (corresponds : seam.Corresponds before other) (steady : seam.Steady before)
    (known : before.Next kind piece) : other.Next kind piece where
  scanned := by
    rw [corresponds.mode, corresponds.rest]
    exact steady _ known.scanned
  ahead := by
    rw [corresponds.rest]
    exact known.ahead.trans (List.prefix_append _ _)

/-- Where errors are compared, the second reading fails to scan where the first
one does. -/
theorem peek_error {other : State} {next : Option Token → Parser α} {error : Lex.Error}
    (isExact : seam.exact) (corresponds : seam.Corresponds before other)
    (failed : Lexer.scannedAt before.mode before.cursor = .error error) :
    Meets (Parser.peek >>= next) other (fun _ _ => False)
      (· = (Parse.Error.lexical error).shifted seam.bytes seam.lines) := by
  have restEq : other.cursor.rest = before.cursor.rest := by
    have restEq := corresponds.rest
    rwa [seam.tail_of_exact isExact, List.append_nil] at restEq
  cases scanEq : Lex.scanIn before.mode before.cursor.rest with
  | ok lexeme? =>
      rw [Lexer.scannedAt, scanEq] at failed
      contradiction
  | error fault =>
      rw [Lexer.scannedAt_of_error scanEq] at failed
      obtain rfl := Except.error.inj failed
      have otherEq : Lex.scanIn other.mode other.cursor.rest = .error fault := by
        rw [corresponds.mode, restEq, scanEq]
      refine Meets.peek (fun _ _ known _ _ => ?_) (fun ended => ?_) fun error' failed' => ?_
      · cases otherEq.symm.trans known.scanned
      · cases otherEq.symm.trans ended
      · rw [Lexer.scannedAt_of_error otherEq] at failed'
        obtain rfl := Except.error.inj failed'
        rw [Cursor.advanceBy_shifted restEq (corresponds.mark isExact)]
        rfl

/-- Whether a place may be that of a piece of text in the second reading. -/
def IsSpanOf (seam : Seam) (before : State) (piece : List Char) (place : Position) : Prop :=
  seam.Agrees (before.spanOf piece) place ∧ place.length = some (Text.byteLength piece)

theorem isSpanOf_spanOf {other : State} (corresponds : seam.Corresponds before other)
    (piece : List Char) : IsSpanOf seam before piece (other.spanOf piece) :=
  ⟨corresponds.spanOf piece, rfl⟩

/-- The two readings look at the same token. -/
theorem peek {next next' : Option Token → Parser α}
    (steady : seam.exact ∨ pre before → seam.Steady before)
    (taken : ∀ kind piece place, before.Next kind piece → piece ≠ [] → kind.IsSpelled piece →
      IsSpanOf seam before piece place →
      Couples seam (next (some ⟨kind, before.spanOf piece⟩)) (next' (some ⟨kind, place⟩)) before
        gives pre need)
    (ended : before.rest = [] →
      (seam.exact ∨ pre before → seam.tail = []) ∧
        Couples seam (next none) (next' none) before gives pre need) :
    Couples seam (Parser.peek >>= next) (Parser.peek >>= next') before gives pre need := by
  refine Meets.peek (fun kind piece known nonempty spelled => ?_) (fun scannedNone => ?_)
    fun error failed isExact other corresponds => peek_error isExact corresponds failed
  · have somePlace : Nonempty { place // IsSpanOf seam before piece place } :=
      ⟨_, Seam.agrees_shifted _, rfl⟩
    have runs : ∀ {other : State} {post : α → State → Prop} {fail : Parse.Error → Prop},
        seam.Corresponds before other → seam.Steady before →
        Meets (next' (some ⟨kind, other.spanOf piece⟩)) other post fail →
        Meets (Parser.peek >>= next') other post fail :=
      fun corresponds isSteady meets =>
        Meets.bind_runs (peek_runs (next_of_steady corresponds isSteady known)) meets
    refine (Meets.all fun index : { place // IsSpanOf seam before piece place } =>
      taken kind piece index.1 known nonempty spelled index.2).mono ?_ ?_
    · intro result after holds
      have arbitrary := holds (Classical.arbitrary _)
      refine ⟨arbitrary.1, fun needed => ?_⟩
      have holdsBefore := (arbitrary.2 needed).1
      refine ⟨holdsBefore, fun other corresponds => runs corresponds (steady holdsBefore) ?_⟩
      exact ((holds ⟨_, isSpanOf_spanOf corresponds piece⟩).2 needed).2 other corresponds
    · intro error failed isExact other corresponds
      exact runs corresponds (steady (.inl isExact))
        (failed ⟨_, isSpanOf_spanOf corresponds piece⟩ isExact other corresponds)
  · obtain ⟨noTail, coupled⟩ := ended (Lex.eq_nil_of_scanIn scannedNone)
    have runs : ∀ {other : State} {post : α → State → Prop} {fail : Parse.Error → Prop},
        seam.Corresponds before other → seam.tail = [] →
        Meets (next' none) other post fail → Meets (Parser.peek >>= next') other post fail := by
      intro other post fail corresponds tailEq meets
      refine Meets.bind_runs (peek_runs_none ?_) meets
      rw [corresponds.mode, corresponds.rest, tailEq, List.append_nil, scannedNone]
    refine Meets.mono coupled ?_ ?_
    · rintro result after ⟨shorter, follows⟩
      refine ⟨shorter, fun needed => ?_⟩
      obtain ⟨holdsBefore, followsThen⟩ := follows needed
      exact ⟨holdsBefore, fun other corresponds =>
        runs corresponds (noTail holdsBefore) (followsThen other corresponds)⟩
    · intro error failed isExact other corresponds
      exact runs corresponds (noTail (.inl isExact)) (failed isExact other corresponds)

end Tokens

section Known

/-! Actions whose course is known. -/

theorem of_runs {first second : Parser α} {result : α} {after : State}
    (runs : Runs first before result after)
    (shorter : after.rest.length ≤ before.rest.length)
    (back : seam.exact ∨ need after → seam.exact ∨ pre before)
    (follows : ∀ other, seam.exact ∨ pre before → seam.Corresponds before other →
      ∃ result' after', Runs second other result' after' ∧ gives result result' ∧
        seam.Corresponds after after') : Couples seam first second before gives pre need := by
  refine Meets.of_runs runs ⟨shorter, fun needed => ⟨back needed, fun other corresponds => ?_⟩⟩
  obtain ⟨result', after', runs', given, correspondsThen⟩ := follows other (back needed) corresponds
  exact Meets.of_runs runs' ⟨given, correspondsThen⟩

theorem bind_runs {first second : Parser α} {next next' : α → Parser β} {gives : β → β → Prop}
    {hands : α → α → Prop} {result : α} {after : State} (runs : Runs first before result after)
    (coupled : Couples seam first second before hands pre middle)
    (total : ∀ result, ∃ other, hands result other)
    (coupledThen : ∀ other, hands result other →
      Couples seam (next result) (next' other) after gives middle need) :
    Couples seam (first >>= next) (second >>= next') before gives pre need := by
  refine bind_known coupled (Meets.mono runs (fun _ _ same => same) fun _ impossible =>
    impossible.elim) total ?_
  rintro _ other _ ⟨rfl, rfl⟩ - handed
  exact coupledThen other handed

theorem skip {kind : TokenKind} {piece : List Char} (known : before.Next kind piece)
    (steady : seam.exact ∨ pre before → seam.Steady before)
    (back : need (before.after piece) → pre before) :
    Couples seam Parser.skip Parser.skip before Eq pre need := by
  refine of_runs (skip_runs known) (State.length_rest_after_le _ _) (Or.imp_right back) ?_
  intro other needed corresponds
  exact ⟨(), _, skip_runs (next_of_steady corresponds (steady needed) known), rfl,
    corresponds.after known.ahead⟩

theorem skip_bind {kind : TokenKind} {piece : List Char} {next next' : Unit → Parser α}
    (known : before.Next kind piece) (steady : seam.exact ∨ pre before → seam.Steady before)
    (back : middle (before.after piece) → pre before)
    (coupled : Couples seam (next ()) (next' ()) (before.after piece) gives middle need) :
    Couples seam (Parser.skip >>= next) (Parser.skip >>= next') before gives pre need :=
  bind_runs (skip_runs known) (skip known steady back) (fun _ => ⟨_, rfl⟩)
    fun _ _ => coupled

theorem change {change change' : State → State} (free : State.LexerFree change)
    (free' : State.LexerFree change') (back : need (change before) → pre before)
    (corresponds : ∀ other, seam.Corresponds before other →
      seam.Corresponds (change before) (change' other)) :
    Couples seam (modify change) (modify change') before Eq pre need :=
  of_runs (modify_runs free) (by rw [free.rest_eq]) (Or.imp_right back) fun other _ same =>
    ⟨⟨⟩, _, modify_runs free', rfl, corresponds other same⟩

theorem change_bind {change change' : State → State} {next next' : PUnit → Parser α}
    (free : State.LexerFree change) (free' : State.LexerFree change')
    (back : middle (change before) → pre before)
    (corresponds : ∀ other, seam.Corresponds before other →
      seam.Corresponds (change before) (change' other))
    (coupled : Couples seam (next ⟨⟩) (next' ⟨⟩) (change before) gives middle need) :
    Couples seam (modify change >>= next) (modify change' >>= next') before gives pre need :=
  bind_runs (modify_runs free) (Couples.change free free' back corresponds) (fun _ => ⟨_, rfl⟩)
    fun _ _ => coupled

theorem pushMode {mode : LexMode} (notMatter : mode ≠ .frontMatter)
    (back : need (before.entered mode) → pre before) :
    Couples seam (Parser.pushMode mode) (Parser.pushMode mode) before Eq pre need :=
  of_runs (pushMode_runs notMatter) (Nat.le_refl _) (Or.imp_right back) fun _ _ corresponds =>
    ⟨(), _, pushMode_runs notMatter, rfl, corresponds.entered mode⟩

theorem popMode (back : need before.left → pre before) :
    Couples seam Parser.popMode Parser.popMode before Eq pre need :=
  of_runs popMode_runs (Nat.le_refl _) (Or.imp_right back) fun _ _ corresponds =>
    ⟨(), _, popMode_runs, rfl, corresponds.left⟩

theorem get {next next' : State → Parser α} {second : Parser α}
    (free : ∀ state, next state.settled = next state)
    (free' : ∀ state, next' state.settled = next' state)
    (same : ∀ other, seam.Corresponds before other → next' other = second)
    (coupled : Couples seam (next before) second before gives pre need) :
    Couples seam (MonadState.get >>= next) (MonadState.get >>= next') before gives pre need := by
  refine Meets.get free (Meets.mono coupled ?_ ?_)
  · rintro result after ⟨shorter, follows⟩
    refine ⟨shorter, fun needed => ?_⟩
    obtain ⟨holdsBefore, followsThen⟩ := follows needed
    refine ⟨holdsBefore, fun other corresponds => Meets.get free' ?_⟩
    rw [same other corresponds]
    exact followsThen other corresponds
  · intro error failed isExact other corresponds
    refine Meets.get free' ?_
    rw [same other corresponds]
    exact failed isExact other corresponds

theorem failAt {cause : Parse.Cause} {place other : Position} (agrees : seam.Agrees place other) :
    Couples seam (Parser.failAt cause place) (Parser.failAt cause other) before gives pre need :=
  Meets.failAt fun isExact _ _ => Meets.failAt (by rw [agrees isExact]; rfl)

/-- Whether a cursor in the second reading is at the same place. -/
structure Accompanies (seam : Seam) (first second : Cursor) : Prop where
  rest : second.rest = first.rest ++ seam.tail
  offset : second.mark.offset = first.mark.offset + seam.bytes
  mark : seam.exact → second.mark = first.mark.shifted seam.bytes seam.lines

theorem accompanies_total (cursor : Cursor) : ∃ other, Accompanies seam cursor other :=
  ⟨⟨[], cursor.rest ++ seam.tail, cursor.mark.shifted seam.bytes seam.lines⟩, rfl, rfl,
    fun _ => rfl⟩

theorem Accompanies.agrees {first second : Cursor} (accompanies : Accompanies seam first second) :
    seam.Agrees first.mark.position second.mark.position := fun isExact => by
  rw [accompanies.mark isExact]
  rfl

/-- The text between two cursors is the same one in both readings. -/
theorem Accompanies.textTo {start stop : Cursor} {piece : List Char}
    (accompanies : Accompanies seam before.cursor start)
    (accompaniesThen : Accompanies seam (before.after piece).cursor stop)
    (ahead : piece <+: before.rest) : start.textTo stop = piece := by
  obtain ⟨behind, restEq⟩ := ahead
  have spelled : piece ++ behind = before.cursor.rest := restEq
  have lengthEq : stop.mark.offset - start.mark.offset = Text.byteLength piece := by
    rw [accompaniesThen.offset, accompanies.offset, State.cursor_after, Cursor.advanceBy_offset,
      ← spelled, List.take_left]
    omega
  rw [Cursor.textTo, lengthEq, accompanies.rest, ← spelled, List.append_assoc,
    Text.takeBytes?_byteLength]
  rfl

theorem here : Couples seam Parser.here Parser.here before (Accompanies seam) need need :=
  of_runs here_runs (Nat.le_refl _) id fun _ _ corresponds =>
    ⟨_, _, here_runs, ⟨corresponds.rest, corresponds.offset, corresponds.mark⟩, corresponds⟩

theorem agrees_total (place : Position) : ∃ other, seam.Agrees place other :=
  ⟨_, Seam.agrees_shifted place⟩

theorem spanningFrom_runs_here (place : Position) : Runs (Parser.spanningFrom place) before
    (place.withLength (before.cursor.mark.offset - place.offset)) before :=
  Meets.bind_runs here_runs (Meets.pure ⟨rfl, rfl⟩)

theorem spanningFrom {place other : Position} (agrees : seam.Agrees place other) :
    Couples seam (Parser.spanningFrom place) (Parser.spanningFrom other) before seam.Agrees need
      need := by
  refine of_runs (spanningFrom_runs_here place) (Nat.le_refl _) id fun state _ corresponds =>
    ⟨_, _, spanningFrom_runs_here other, fun isExact => ?_, corresponds⟩
  have lengthEq : state.cursor.mark.offset - (place.shifted seam.bytes seam.lines).offset =
      before.cursor.mark.offset - place.offset := by
    rw [corresponds.offset]
    exact Nat.add_sub_add_right _ _ _
  rw [agrees isExact, lengthEq]
  rfl

theorem spanningFrom_bind {place other : Position} {next next' : Position → Parser α}
    (agrees : seam.Agrees place other)
    (coupled : ∀ place other, seam.Agrees place other →
      Couples seam (next place) (next' other) before gives pre need) :
    Couples seam (Parser.spanningFrom place >>= next) (Parser.spanningFrom other >>= next') before
      gives pre need :=
  bind_runs (spanningFrom_runs_here place) (spanningFrom agrees) agrees_total fun other =>
    coupled _ other

end Known

section Failures

theorem steady_of_exact (isExact : seam.exact) : seam.Steady before := by
  intro lexeme found
  rw [seam.tail_of_exact isExact, List.append_nil]
  exact found

theorem found_couples (isExact : seam.exact) :
    Couples seam found found before Eq (fun _ => True) fun _ => True := by
  rw [found, peekKind_bind]
  refine peek (fun _ => steady_of_exact isExact) (fun _ _ _ _ _ _ _ => pure rfl) fun _ =>
    ⟨fun _ => seam.tail_of_exact isExact, pure rfl⟩

theorem nextPosition_couples (isExact : seam.exact) :
    Couples seam nextPosition nextPosition before seam.Agrees (fun _ => True) fun _ => True := by
  refine peek (fun _ => steady_of_exact isExact)
    (fun _ _ _ _ _ _ isSpan => pure isSpan.1) fun _ =>
    ⟨fun _ => seam.tail_of_exact isExact, ?_⟩
  refine of_runs (Meets.get (fun _ => rfl) (Meets.pure ⟨rfl, rfl⟩)) (Nat.le_refl _) id ?_
  intro other _ corresponds
  refine ⟨_, _, Meets.get (fun _ => rfl) (Meets.pure ⟨rfl, rfl⟩), fun _ => ?_, corresponds⟩
  exact congrArg Mark.position (corresponds.mark isExact)

theorem failAtNext (cause : String → Cause) :
    Couples seam (do Parser.failAt (cause (← found)) (← nextPosition) : Parser α)
      (do Parser.failAt (cause (← found)) (← nextPosition)) before gives pre need := by
  refine of_fails (failAtNext_fails cause) fun isExact => ?_
  refine bind (found_couples isExact) fun text state _ => ?_
  refine bind_hands (nextPosition_couples isExact) agrees_total fun _ _ _ _ agrees => ?_
  exact failAt agrees

theorem failExpected {what : String} :
    Couples seam (Parser.failExpected what : Parser α) (Parser.failExpected what) before gives pre
      need :=
  failAtNext _

theorem failUnexpected {place : Place} :
    Couples seam (Parser.failUnexpected place : Parser α) (Parser.failUnexpected place) before
      gives pre need :=
  failAtNext _

end Failures

end Couples

end Parser

end TemplateCompiler
