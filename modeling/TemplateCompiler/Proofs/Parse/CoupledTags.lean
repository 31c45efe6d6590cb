import TemplateCompiler.Proofs.Parse.Coupling
import TemplateCompiler.Proofs.Parse.Running

/-!
# Tags and expressions in two readings

The actions that read inside of a tag, an expression or a style sheet are coupled
with themselves.  Their bounds may differ between the two readings, as long as
both exceed the number of characters left.

An action that reads up to the end of its mode needs nothing of the state behind
it but that no declaration was lost.
-/

namespace TemplateCompiler

namespace Parser

open Parse

variable {α β : Type} {seam : Seam} {before : State}

/-- Whether bounds admit what is left of a text in its two readings. -/
structure Admits (seam : Seam) (before : State) (bound bound' : Nat) : Prop where
  enough : before.rest.length ≤ bound
  enough' : before.rest.length + seam.tail.length ≤ bound'

/-- Whether a state is inside of a mode with an end of its own, and bounds admit
what is left. -/
structure Inside (seam : Seam) (mode : LexMode) (before : State) (bound bound' : Nat) : Prop
    extends Admits seam before bound bound' where
  modeEq : before.mode = mode
  isInner : mode.IsInner

namespace Admits

variable {state : State} {bound bound' : Nat}

theorem of_le (admits : Admits seam before bound bound')
    (notLonger : state.rest.length ≤ before.rest.length) : Admits seam state bound bound' where
  enough := Nat.le_trans notLonger admits.enough
  enough' := Nat.le_trans (Nat.add_le_add_right notLonger _) admits.enough'

/-- One token less is left. -/
theorem shorter (admits : Admits seam before bound bound')
    (shorter : state.rest.length < before.rest.length) :
    ∃ less less', bound = less + 1 ∧ bound' = less' + 1 ∧ Admits seam state less less' := by
  obtain ⟨enough, enough'⟩ := admits
  exact ⟨bound - 1, bound' - 1, by omega, by omega, by omega, by omega⟩

end Admits

namespace Inside

variable {mode : LexMode} {bound bound' : Nat}

theorem inner (inside : Inside seam mode before bound bound') : before.mode.IsInner :=
  inside.modeEq ▸ inside.isInner

theorem notMatter (inside : Inside seam mode before bound bound') :
    before.mode ≠ .frontMatter := by
  rcases inside.inner with modeEq | modeEq | modeEq <;> simp [modeEq]

theorem after (inside : Inside seam mode before bound bound') (piece : List Char) :
    Inside seam mode (before.after piece) bound bound' :=
  ⟨inside.of_le (before.length_rest_after_le piece), inside.modeEq, inside.isInner⟩

theorem shorter {state : State} (inside : Inside seam mode before bound bound')
    (shorter : state.rest.length < before.rest.length) (modeEq : state.mode = mode) :
    ∃ less less', bound = less + 1 ∧ bound' = less' + 1 ∧
      Inside seam mode state less less' := by
  obtain ⟨less, less', boundEq, boundEq', admits⟩ := inside.toAdmits.shorter shorter
  exact ⟨less, less', boundEq, boundEq', admits, modeEq, inside.isInner⟩

theorem succ (inside : Inside seam mode before bound bound') :
    Inside seam mode before (bound + 1) (bound' + 1) :=
  ⟨⟨Nat.le_succ_of_le inside.enough, Nat.le_succ_of_le inside.enough'⟩, inside.modeEq,
    inside.isInner⟩

end Inside

namespace Couples

section Runs

variable {accepts : TokenKind → Bool} {needed : State → Prop}

theorem skipWhile_runs_of_refuses (refuses : Refuses before.mode accepts before.rest)
    (bound : Nat) : Runs (skipWhile accepts bound) before () before := by
  cases bound with
  | zero => exact Meets.pure ⟨rfl, rfl⟩
  | succ bound =>
      obtain ⟨lexeme?, scanned, refused⟩ := refuses
      apply Meets.bind_runs (nextIs_runs scanned accepts)
      rw [refused]
      exact Meets.pure ⟨rfl, rfl⟩

theorem skipWhile_of_rest_nil {mode : LexMode} (notMatter : mode ≠ .frontMatter)
    (modeEq : before.mode = mode) (ended : before.rest = [])
    (refuses : seam.exact ∨ needed before → Refuses mode accepts seam.tail)
    (bound bound' : Nat) :
    Couples seam (Parser.skipWhile accepts bound) (Parser.skipWhile accepts bound') before Eq
      needed needed := by
  have refusesNothing : Refuses before.mode accepts before.rest := by
    rw [modeEq, ended]
    exact ⟨none, Lex.scanIn_nil notMatter, rfl⟩
  refine of_runs (skipWhile_runs_of_refuses refusesNothing bound) (Nat.le_refl _) id ?_
  intro other holds corresponds
  have refusesTail : Refuses other.mode accepts other.rest := by
    rw [corresponds.mode, corresponds.rest, modeEq, ended]
    exact refuses holds
  exact ⟨(), other, skipWhile_runs_of_refuses refusesTail bound', rfl, corresponds⟩

/-- A run of tokens goes equally far in both readings, if what follows the text
does not belong to it. -/
theorem skipWhile {mode : LexMode} (notMatter : mode ≠ .frontMatter)
    (steady : ∀ state : State, state.mode = mode → seam.exact ∨ needed state → seam.Steady state)
    (back : ∀ (state : State) kind piece, state.mode = mode → state.Next kind piece →
      accepts kind = true → needed (state.after piece) → needed state)
    (refuses : ∀ state : State, state.mode = mode → state.rest = [] →
      seam.exact ∨ needed state → Refuses mode accepts seam.tail)
    {bound bound' : Nat} (modeEq : before.mode = mode) (enough : before.rest.length ≤ bound)
    (enough' : before.rest.length + seam.tail.length ≤ bound') :
    Couples seam (Parser.skipWhile accepts bound) (Parser.skipWhile accepts bound') before Eq
      needed needed := by
  induction bound generalizing before bound' with
  | zero =>
      have ended : before.rest = [] := List.length_eq_zero_iff.1 (Nat.le_zero.1 enough)
      exact skipWhile_of_rest_nil notMatter modeEq ended (refuses before modeEq ended) _ _
  | succ bound ih =>
      by_cases ended : before.rest = []
      · exact skipWhile_of_rest_nil notMatter modeEq ended (refuses before modeEq ended) _ _
      have positive := List.length_pos_iff.2 ended
      obtain ⟨bound', rfl⟩ := Nat.exists_eq_add_one.2 (show 0 < bound' by omega)
      rw [Parser.skipWhile, Parser.skipWhile, nextIs_bind, nextIs_bind]
      refine peek (steady before modeEq) (fun kind piece place known nonempty _ _ => ?_)
        fun impossible => (ended impossible).elim
      simp only [Option.map_some, Option.any_some]
      by_cases accepted : accepts kind = true
      · have shorter := State.length_rest_after_lt known.ahead nonempty
        rw [if_pos accepted, if_pos accepted]
        apply skip_bind known (steady before modeEq) (back before kind piece modeEq known accepted)
        exact ih modeEq (by omega) (by omega)
      · rw [if_neg accepted, if_neg accepted]
        exact pure rfl

end Runs

section Inner

variable {gives : α → α → Prop} {middle need : State → Prop} {mode : LexMode}
  {bound bound' : Nat} (inside : Inside seam mode before bound bound')

include inside

theorem peekInner {next next' : Option Token → Parser α}
    (taken : ∀ kind piece place, before.Next kind piece → kind.IsSpelled piece →
      IsSpanOf seam before piece place →
      Couples seam (next (some ⟨kind, before.spanOf piece⟩)) (next' (some ⟨kind, place⟩)) before
        gives seam.Undisturbed need)
    (ended : Couples seam (next none) (next' none) before gives seam.Undisturbed need) :
    Couples seam (Parser.peek >>= next) (Parser.peek >>= next') before gives seam.Undisturbed
      need := by
  refine peek (fun holds => holds.elim steady_of_exact (·.steady))
    (fun kind piece place known _ => taken kind piece place known) fun atEnd => ⟨?_, ended⟩
  exact fun holds => holds.elim seam.tail_of_exact (·.tail_eq_nil inside.inner atEnd)

theorem peekKindInner {next next' : Option TokenKind → Parser α}
    (taken : ∀ kind piece, before.Next kind piece → kind.IsSpelled piece →
      Couples seam (next (some kind)) (next' (some kind)) before gives seam.Undisturbed need)
    (ended : Couples seam (next none) (next' none) before gives seam.Undisturbed need) :
    Couples seam (Parser.peekKind >>= next) (Parser.peekKind >>= next') before gives
      seam.Undisturbed need := by
  rw [peekKind_bind, peekKind_bind]
  exact peekInner inside (fun kind piece _ known spelled _ => taken kind piece known spelled) ended

theorem nextIsInner {accepts : TokenKind → Bool} {next next' : Bool → Parser α}
    (accepted : ∀ kind piece, before.Next kind piece → accepts kind = true →
      Couples seam (next true) (next' true) before gives seam.Undisturbed need)
    (refused : Couples seam (next false) (next' false) before gives seam.Undisturbed need) :
    Couples seam (Parser.nextIs accepts >>= next) (Parser.nextIs accepts >>= next') before gives
      seam.Undisturbed need := by
  rw [nextIs_bind, nextIs_bind]
  refine peekInner inside (fun kind piece _ known _ _ => ?_) refused
  simp only [Option.map_some, Option.any_some]
  cases acceptsEq : accepts kind with
  | true => exact accepted kind piece known acceptsEq
  | false => exact refused

theorem skipInner {kind : TokenKind} {piece : List Char} {next next' : Unit → Parser α}
    (known : before.Next kind piece)
    (coupled : ∀ state, Inside seam mode state bound bound' →
      state.rest.length < before.rest.length →
      Couples seam (next ()) (next' ()) state gives seam.Undisturbed need) :
    Couples seam (Parser.skip >>= next) (Parser.skip >>= next') before gives seam.Undisturbed
      need := by
  refine skip_bind known (fun holds => holds.elim steady_of_exact (·.steady))
    (.of_after inside.inner) (coupled _ (inside.after piece) ?_)
  exact State.length_rest_after_lt known.ahead (known.fits inside.notMatter).1

theorem skipClosing {kind : TokenKind} {piece : List Char} {next next' : Unit → Parser α}
    (known : before.Next kind piece) (closed : Lex.IsClosed before.mode before.rest)
    (coupled : Couples seam (next ()) (next' ()) (before.after piece) gives seam.Kept need) :
    Couples seam (Parser.skip >>= next) (Parser.skip >>= next') before gives seam.Undisturbed
      need :=
  skip_bind known (fun holds => holds.elim steady_of_exact (·.steady))
    (fun kept => .of_closed kept inside.inner closed) coupled

theorem skipWhitespace :
    Couples seam (Parser.skipWhitespace bound) (Parser.skipWhitespace bound') before Eq
      seam.Undisturbed seam.Undisturbed := by
  refine skipWhile inside.notMatter (fun _ _ holds => holds.elim steady_of_exact (·.steady)) ?_ ?_
    rfl inside.enough inside.enough'
  · intro state _ piece modeEq _ _
    exact .of_after (modeEq ▸ inside.inner)
  · intro state modeEq atEnd holds
    have tailEq := holds.elim seam.tail_of_exact (·.tail_eq_nil (modeEq ▸ inside.inner) atEnd)
    exact ⟨none, by rw [tailEq]; exact Lex.scanIn_nil inside.notMatter, rfl⟩

theorem spaces_bind {next next' : Unit → Parser α}
    (coupled : ∀ state, Inside seam mode state bound bound' →
      state.rest.length ≤ before.rest.length →
      Couples seam (next ()) (next' ()) state gives seam.Undisturbed need) :
    Couples seam (Parser.skipWhitespace bound >>= next) (Parser.skipWhitespace bound' >>= next')
      before gives seam.Undisturbed need :=
  bind_takes (skipWhitespace_takes bound) (skipWhitespace inside) fun _ piece _ =>
    coupled _ (inside.after piece) (before.length_rest_after_le piece)

/-- The same with bounds that admit one token more. -/
theorem spaces_bind_succ {next next' : Unit → Parser α}
    (coupled : ∀ state, Inside seam mode state bound bound' →
      Couples seam (next ()) (next' ()) state gives seam.Undisturbed need) :
    Couples seam (Parser.skipWhitespace (bound + 1) >>= next)
      (Parser.skipWhitespace (bound' + 1) >>= next') before gives seam.Undisturbed need :=
  bind_takes (skipWhitespace_takes _) (skipWhitespace inside.succ) fun _ piece _ =>
    coupled _ (inside.after piece)

/-- Whether two tokens are the same one in both readings. -/
def AgreeTokens (seam : Seam) (token other : Token) : Prop :=
  other.kind = token.kind ∧ seam.Agrees token.position other.position

theorem expect {what : String} {accepts : TokenKind → Bool}
    (back : ∀ kind piece, before.Next kind piece → kind.IsSpelled piece → accepts kind = true →
      need (before.after piece) → seam.Undisturbed before) :
    Couples seam (Parser.expect what accepts) (Parser.expect what accepts) before
      (AgreeTokens seam) seam.Undisturbed need := by
  refine peekInner inside (fun kind piece place known spelled isSpan => ?_) failExpected
  dsimp only
  by_cases accepted : accepts kind = true
  · rw [if_pos accepted, if_pos accepted]
    exact skip_bind known (fun holds => holds.elim steady_of_exact (·.steady))
      (back kind piece known spelled accepted) (pure ⟨rfl, isSpan.1⟩)
  · rw [if_neg accepted, if_neg accepted]
    exact failExpected

omit inside in
theorem agreeTokens_total (token : Token) : ∃ other, AgreeTokens seam token other :=
  ⟨⟨token.kind, token.position.shifted seam.bytes seam.lines⟩, rfl, Seam.agrees_shifted _⟩

/-- A token that ends the mode. -/
theorem expectClosing_bind {what : String} {accepts : TokenKind → Bool}
    {next next' : Token → Parser α}
    (closes : ∀ kind piece, before.Next kind piece → kind.IsSpelled piece → accepts kind = true →
      Lex.IsClosed before.mode before.rest)
    (coupled : ∀ token other piece, AgreeTokens seam token other →
      Couples seam (next token) (next' other) (before.after piece) gives seam.Kept need) :
    Couples seam (Parser.expect what accepts >>= next) (Parser.expect what accepts >>= next')
      before gives seam.Undisturbed need := by
  have coupledFirst : Couples seam (Parser.expect what accepts) (Parser.expect what accepts)
      before (AgreeTokens seam) seam.Undisturbed seam.Kept :=
    expect inside fun kind piece known spelled accepted kept =>
      .of_closed kept inside.inner (closes kind piece known spelled accepted)
  exact bind_takes_hands expect_takes coupledFirst agreeTokens_total fun token other piece _ =>
    coupled token other piece

theorem expectMark_bind {what : String} {mark : Punctuation} {next next' : Unit → Parser α}
    (coupled : ∀ state, Inside seam mode state bound bound' →
      Couples seam (next ()) (next' ()) state gives seam.Undisturbed need) :
    Couples seam (discard (Parser.expectMark what mark) >>= next)
      (discard (Parser.expectMark what mark) >>= next') before gives seam.Undisturbed need :=
  discard_takes expectMark_takes (expect inside fun _ _ _ _ _ => .of_after inside.inner)
    agreeTokens_total fun piece _ => coupled _ (inside.after piece)

theorem expectIdentifier {what : String} :
    Couples seam (Parser.expectIdentifier what) (Parser.expectIdentifier what) before
      (fun named other => other.1 = named.1 ∧ seam.Agrees named.2 other.2) seam.Undisturbed
      seam.Undisturbed := by
  refine peekInner inside (fun kind piece place known _ isSpan => ?_) failExpected
  cases kind with
  | identifier name => exact skipInner inside known fun _ _ _ => pure ⟨rfl, isSpan.1⟩
  | _ => exact failExpected

theorem expectIdentifier_bind {what : String} {next next' : String × Position → Parser α}
    (coupled : ∀ name place other state, seam.Agrees place other →
      Inside seam mode state bound bound' → state.rest.length ≤ before.rest.length →
      Couples seam (next (name, place)) (next' (name, other)) state gives seam.Undisturbed need) :
    Couples seam (Parser.expectIdentifier what >>= next) (Parser.expectIdentifier what >>= next')
      before gives seam.Undisturbed need := by
  refine bind_takes_hands expectIdentifier_takes (expectIdentifier inside)
    (fun named => ⟨(named.1, named.2.shifted seam.bytes seam.lines), rfl,
      Seam.agrees_shifted _⟩) ?_
  rintro ⟨word, place⟩ ⟨_, other⟩ piece - ⟨rfl, agrees⟩
  exact coupled _ place other _ agrees (inside.after piece) (before.length_rest_after_le piece)

end Inner

section Tags

variable {mode : LexMode} {bound bound' : Nat}

theorem isClosed_of_greater (modeEq : before.mode = .tag) (ahead : ['>'] <+: before.rest) :
    Lex.IsClosed before.mode before.rest := by
  rw [modeEq]
  exact ahead.subset List.mem_cons_self

/-- The bracket that ends a tag. -/
theorem greater_bind {what : String} {next next' : Unit → Parser α} {gives : α → α → Prop}
    (inside : Inside seam .tag before bound bound')
    (coupled : ∀ piece, Couples seam (next ()) (next' ()) (before.after piece) gives seam.Kept
      seam.Kept) :
    Couples seam (discard (Parser.expectMark what .greater) >>= next)
      (discard (Parser.expectMark what .greater) >>= next') before gives seam.Undisturbed
      seam.Kept := by
  rw [discard_bind, discard_bind]
  refine expectClosing_bind inside (fun kind piece known spelled accepted => ?_)
    fun _ _ piece _ => coupled piece
  obtain rfl : kind = .punctuation .greater := by simpa using accepted
  obtain rfl : piece = ['>'] := spelled
  exact isClosed_of_greater inside.modeEq known.ahead

theorem stringValue (inside : Inside seam mode before bound bound') :
    Couples seam (Parser.stringValue bound) (Parser.stringValue bound') before Eq
      seam.Undisturbed seam.Undisturbed := by
  apply spaces_bind inside
  intro state inside _
  apply peekKindInner inside
  · intro kind piece known _
    cases kind with
    | string value => exact skipInner inside known fun _ _ _ => pure rfl
    | _ => exact failAtNext _
  · exact failAtNext _

theorem optionalValue (inside : Inside seam mode before bound bound') :
    Couples seam (Parser.optionalValue bound) (Parser.optionalValue bound') before Eq
      seam.Undisturbed seam.Undisturbed := by
  apply spaces_bind inside
  intro state inside _
  apply nextIsInner inside
  · intro kind piece known _
    apply skipInner inside known
    intro state inside _
    exact bind_takes (stringValue_reads bound) (stringValue inside) fun _ _ _ => pure rfl
  · exact pure rfl

theorem bindingValue (inside : Inside seam mode before bound bound') (name : String)
    (direction : BindingDirection) :
    Couples seam (Parser.bindingValue bound name direction)
      (Parser.bindingValue bound' name direction) before Eq seam.Undisturbed seam.Undisturbed := by
  apply spaces_bind inside
  intro state inside _
  apply expectMark_bind inside
  intro state inside
  exact bind_takes (stringValue_reads bound) (stringValue inside) fun _ _ _ => pure rfl

theorem squareBinding (inside : Inside seam mode before bound bound') :
    Couples seam (Parser.squareBinding bound) (Parser.squareBinding bound') before Eq
      seam.Undisturbed seam.Undisturbed := by
  apply nextIsInner inside
  · intro kind piece known _
    apply skipInner inside known
    intro state inside _
    apply expectIdentifier_bind inside
    intro name _ _ state _ inside _
    apply expectMark_bind inside
    intro state inside
    apply expectMark_bind inside
    intro state inside
    exact bindingValue inside _ _
  · apply expectIdentifier_bind inside
    intro name _ _ state _ inside _
    apply expectMark_bind inside
    intro state inside
    exact bindingValue inside _ _

theorem roundBinding (inside : Inside seam mode before bound bound') :
    Couples seam (Parser.roundBinding bound) (Parser.roundBinding bound') before Eq
      seam.Undisturbed seam.Undisturbed := by
  apply expectIdentifier_bind inside
  intro name _ _ state _ inside _
  apply expectMark_bind inside
  intro state inside
  exact bindingValue inside _ _

/-- What follows the name of an element contains the bracket that ends its tag. -/
theorem startTagItems (inside : Inside seam .tag before bound bound') (element : Element) :
    Couples seam (Parser.startTagItems (bound + 1) element)
      (Parser.startTagItems (bound' + 1) element) before Eq seam.Undisturbed seam.Kept := by
  induction bound using Nat.strong_induction_on generalizing before bound' element with
  | _ bound ih =>
      apply spaces_bind inside
      intro spaced inside _
      have further : ∀ (grown : Element) (state : State),
          Inside seam .tag state bound bound' → state.rest.length < spaced.rest.length →
          Couples seam (Parser.startTagItems bound grown) (Parser.startTagItems bound' grown)
            state Eq seam.Undisturbed seam.Kept := by
        intro grown state stateInside shorter
        obtain ⟨less, less', rfl, rfl, lessInside⟩ := inside.shorter shorter stateInside.modeEq
        exact ih less (Nat.lt_succ_self less) lessInside grown
      have behind : ∀ {state : State} (taken : List Char),
          state.rest.length < spaced.rest.length →
          (state.after taken).rest.length < spaced.rest.length :=
        fun taken shorter => Nat.lt_of_le_of_lt (State.length_rest_after_le _ taken) shorter
      apply peekKindInner inside
      · intro kind piece known spelled
        cases kind with
        | identifier name =>
            apply skipInner inside known
            intro state inside shorter
            apply bind_takes (optionalValue_reads bound) (optionalValue inside)
            intro value taken _
            exact further _ _ (inside.after taken) (behind taken shorter)
        | punctuation mark =>
            cases mark with
            | greater =>
                obtain rfl : piece = ['>'] := spelled
                exact skipClosing inside known (isClosed_of_greater inside.modeEq known.ahead)
                  (pure rfl)
            | slash =>
                apply skipInner inside known
                intro state inside _
                exact greater_bind inside fun _ => pure rfl
            | leftBracket =>
                apply skipInner inside known
                intro state inside shorter
                apply bind_takes (squareBinding_takes bound inside.modeEq) (squareBinding inside)
                intro binding taken _
                exact further _ _ (inside.after taken) (behind taken shorter)
            | leftParen =>
                apply skipInner inside known
                intro state inside shorter
                apply bind_takes (roundBinding_takes bound inside.modeEq) (roundBinding inside)
                intro binding taken _
                exact further _ _ (inside.after taken) (behind taken shorter)
            | star =>
                apply skipInner inside known
                intro state inside shorter
                apply expectIdentifier_bind inside
                intro name _ _ named _ inside notLonger
                apply bind_takes (optionalValue_reads bound) (optionalValue inside)
                intro value taken _
                exact further _ _ (inside.after taken)
                  (behind taken (Nat.lt_of_le_of_lt notLonger shorter))
            | _ => exact failUnexpected
        | _ => exact failUnexpected
      · exact failExpected

theorem startTag (inside : Inside seam .tag before bound bound') :
    Couples seam (Parser.startTag (bound + 1)) (Parser.startTag (bound' + 1)) before Eq
      seam.Undisturbed seam.Kept := by
  apply expectIdentifier_bind inside
  intro name _ _ state _ inside _
  apply bind_takes (startTagItems_takes _ inside.modeEq (.ofName _)
    (Nat.lt_succ_of_le inside.enough))
    (startTagItems inside _)
  exact fun _ _ _ => pure rfl

theorem endTag {piece : List Char} (inside : Inside seam .tag before bound bound')
    (known : before.Next (.punctuation .slash) piece) :
    Couples seam (Parser.endTag bound) (Parser.endTag bound') before Eq seam.Undisturbed
      seam.Kept := by
  apply skipInner inside known
  intro state inside _
  apply spaces_bind inside
  intro state inside _
  apply expectIdentifier_bind inside
  intro name _ _ state _ inside _
  apply spaces_bind inside
  intro state inside _
  exact greater_bind inside fun _ => pure rfl

theorem declarationParameters (inside : Inside seam .tag before bound bound') :
    Couples seam (Parser.declarationParameters (bound + 1))
      (Parser.declarationParameters (bound' + 1)) before Eq seam.Undisturbed seam.Kept := by
  induction bound using Nat.strong_induction_on generalizing before bound' with
  | _ bound ih =>
      apply spaces_bind inside
      intro spaced inside _
      have parameter : ∀ {kind : TokenKind} {piece : List Char} (value : String),
          spaced.Next kind piece → Couples seam
            (do Parser.skip; return value :: (← Parser.declarationParameters bound))
            (do Parser.skip; return value :: (← Parser.declarationParameters bound')) spaced Eq
            seam.Undisturbed seam.Kept := by
        intro kind piece value known
        apply skipInner inside known
        intro state stateInside shorter
        obtain ⟨less, less', rfl, rfl, lessInside⟩ := inside.shorter shorter stateInside.modeEq
        refine bind (ih less (Nat.lt_succ_self less) lessInside) fun _ _ _ => pure rfl
      apply peekKindInner inside
      · intro kind piece known spelled
        cases kind with
        | identifier name => exact parameter name known
        | string value => exact parameter value known
        | punctuation mark =>
            cases mark with
            | greater =>
                obtain rfl : piece = ['>'] := spelled
                exact skipClosing inside known (isClosed_of_greater inside.modeEq known.ahead)
                  (pure rfl)
            | _ => exact failUnexpected
        | _ => exact failUnexpected
      · exact failExpected

end Tags

section Expressions

variable {bound bound' : Nat}

theorem nextSpelling_runs {kind : TokenKind} {piece : List Char}
    (known : before.Next kind piece) : Runs Parser.nextSpelling before piece before := by
  apply Meets.bind_runs (peek_runs known)
  apply Meets.bind_runs here_runs
  obtain ⟨tail, restEq⟩ := known.ahead
  have spelling : Text.takeBytes? (Text.byteLength piece) before.cursor.rest = some piece := by
    rw [show before.cursor.rest = piece ++ tail from restEq.symm, Text.takeBytes?_byteLength]
  exact Meets.pure ⟨congrArg (·.getD []) spelling, rfl⟩

theorem nextSpelling {kind : TokenKind} {piece : List Char} (known : before.Next kind piece) :
    Couples seam Parser.nextSpelling Parser.nextSpelling before Eq seam.Undisturbed
      seam.Undisturbed := by
  refine of_runs (nextSpelling_runs known) (Nat.le_refl _) id fun other needed corresponds => ?_
  have steady := needed.elim steady_of_exact (·.steady)
  exact ⟨piece, other, nextSpelling_runs (next_of_steady corresponds steady known), rfl,
    corresponds⟩

theorem pathSegments (inside : Inside seam .expression before bound bound') :
    Couples seam (Parser.pathSegments (bound + 1)) (Parser.pathSegments (bound' + 1)) before Eq
      seam.Undisturbed seam.Undisturbed := by
  induction bound using Nat.strong_induction_on generalizing before bound' with
  | _ bound ih =>
      apply nextIsInner inside
      · intro kind piece known _
        apply skipInner inside known
        intro dotted dottedInside shorter
        have further : ∀ {kind : TokenKind} {piece : List Char} (add : List String → List String),
            dotted.Next kind piece → Couples seam
              (do Parser.skip; return add (← Parser.pathSegments bound))
              (do Parser.skip; return add (← Parser.pathSegments bound')) dotted Eq
              seam.Undisturbed seam.Undisturbed := by
          intro kind piece add known
          apply skipInner dottedInside known
          intro state stateInside shorterThen
          obtain ⟨less, less', rfl, rfl, lessInside⟩ :=
            inside.shorter (Nat.lt_trans shorterThen shorter) stateInside.modeEq
          exact bind (ih less (Nat.lt_succ_self less) lessInside) fun _ _ _ => pure rfl
        apply peekKindInner dottedInside
        · intro kind piece known _
          cases kind with
          | identifier name => exact further (name :: ·) known
          | number value =>
              apply bind_runs (nextSpelling_runs known) (nextSpelling known) fun _ => ⟨_, rfl⟩
              rintro _ rfl
              split
              · next positions _ => exact further (positions ++ ·) known
              · exact failExpected
          | _ => exact failExpected
        · exact failExpected
      · exact pure rfl

theorem path (inside : Inside seam .expression before bound bound') :
    Couples seam (Parser.path (bound + 1)) (Parser.path (bound' + 1)) before Eq seam.Undisturbed
      seam.Undisturbed := by
  apply expectIdentifier_bind inside
  intro root _ _ state _ inside _
  apply bind (pathSegments inside)
  intro segments state _
  split
  · exact pure rfl
  · exact failExpected

theorem expression (inside : Inside seam .expression before bound bound') :
    Couples seam (Parser.expression (bound + 1)) (Parser.expression (bound' + 1)) before Eq
      seam.Undisturbed seam.Undisturbed := by
  apply peekKindInner inside
  · intro kind piece known _
    cases kind with
    | identifier name => exact bind (path inside) fun _ _ _ => pure rfl
    | string value | templateLiteral value | number value | boolean value =>
        exact skipInner inside known fun _ _ _ => pure rfl
    | _ => exact failExpected
  · exact failExpected

theorem loopHeader (inside : Inside seam .expression before bound bound') :
    Couples seam (Parser.loopHeader (bound + 1)) (Parser.loopHeader (bound' + 1)) before Eq
      seam.Undisturbed seam.Undisturbed := by
  apply spaces_bind_succ inside
  intro state inside
  apply expectMark_bind inside
  intro state inside
  apply spaces_bind_succ inside
  intro state inside
  apply expectIdentifier_bind inside
  intro item _ _ state _ inside _
  apply spaces_bind_succ inside
  intro state inside
  apply expectIdentifier_bind inside
  intro preposition _ _ state _ inside _
  apply spaces_bind_succ inside
  intro state inside
  apply bind_takes (path_reads _) (path inside)
  intro collection segments _
  apply spaces_bind_succ (inside.after segments)
  intro state inside
  apply expectMark_bind inside
  intro state inside
  exact bind (skipWhitespace inside.succ) fun _ _ _ => pure rfl

end Expressions

end Couples

end Parser

end TemplateCompiler
