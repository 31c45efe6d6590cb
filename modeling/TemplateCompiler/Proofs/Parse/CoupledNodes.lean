import TemplateCompiler.Proofs.Parse.CoupledTags
import TemplateCompiler.Proofs.Parse.Shape

/-!
# Constructs in two readings

The constructs of a template are coupled with themselves.  Most of them end with
a token that is the same one whatever follows, so nothing is needed of the state
behind them but that no declaration was lost.  Two do not: a run of text goes on
as long as text follows, and a brace may be the first one of two.
-/

namespace TemplateCompiler

namespace Parser

open Parse

variable {α : Type} {seam : Seam} {before : State} {bound bound' : Nat}

section States

theorem kept_of_document {state other : State} (documentEq : other.document = state.document)
    (kept : seam.Kept other) : seam.Kept state :=
  kept.imp_right fun empty => documentEq ▸ empty

theorem mode_of_change {change : State → State} (free : State.LexerFree change) (state : State) :
    (change state).mode = state.mode :=
  congrArg Lexer.mode (free.lexer_eq state)

/-- Outside of markup it does not matter what was built. -/
theorem undisturbed_of_change {change : State → State} (free : State.LexerFree change)
    (documentEq : (change before).document = before.document) (notMarkup : before.mode ≠ .markup)
    (undisturbed : seam.Undisturbed (change before)) : seam.Undisturbed before := by
  refine ⟨kept_of_document documentEq undisturbed.1, undisturbed.2.imp_right fun ends => ?_⟩
  unfold Seam.Ends Seam.Steady at ends ⊢
  rw [mode_of_change free, free.rest_eq] at ends
  cases modeEq : before.mode with
  | markup => exact (notMarkup modeEq).elim
  | _ =>
      rw [modeEq] at ends
      exact ends

end States

namespace Couples

variable {gives : α → α → Prop} {need : State → Prop}

section Building

theorem addLeaf {kind : NodeKind} {place other : Position}
    (agrees : kind.isCode = false → seam.Agrees place other) :
    Couples seam (modify (·.addLeaf kind place)) (modify (·.addLeaf kind other)) before Eq
      seam.Kept seam.Kept :=
  change (State.addLeaf_lexerFree kind place) (State.addLeaf_lexerFree kind other)
    (kept_of_document (State.document_addLeaf kind place before).1)
    fun _ corresponds => corresponds.addLeaf kind agrees

theorem openNode {kind : NodeKind} {place other : Position} (agrees : seam.Agrees place other) :
    Couples seam (modify (·.openNode kind place)) (modify (·.openNode kind other)) before Eq
      seam.Kept seam.Kept :=
  change (State.openNode_lexerFree kind place) (State.openNode_lexerFree kind other)
    (kept_of_document rfl) fun _ corresponds => corresponds.openNode kind agrees

theorem closeNode :
    Couples seam (modify (·.closeNode)) (modify (·.closeNode)) before Eq seam.Kept seam.Kept :=
  change State.closeNode_lexerFree State.closeNode_lexerFree
    (kept_of_document (State.document_closeNode before).1)
    fun _ corresponds => corresponds.closeNode

theorem enterKept {mode : LexMode} (notMatter : mode ≠ .frontMatter) :
    Couples seam (Parser.pushMode mode) (Parser.pushMode mode) before Eq seam.Kept seam.Kept :=
  pushMode notMatter id

theorem leaveKept :
    Couples seam Parser.popMode Parser.popMode before Eq seam.Kept seam.Kept :=
  popMode id

/-- What follows a look at the state, if that sees the same in both readings. -/
theorem get_alike {pre : State → Prop} {next next' : State → Parser α}
    (free : ∀ state, next state.settled = next state)
    (free' : ∀ state, next' state.settled = next' state)
    (alike : ∀ other, seam.Corresponds before other → next' other = next' before)
    (coupled : Couples seam (next before) (next' before) before gives pre need) :
    Couples seam (MonadState.get >>= next) (MonadState.get >>= next') before gives pre need :=
  get free free' alike coupled

theorem nextPosition {kind : TokenKind} {piece : List Char} (known : before.Next kind piece) :
    Couples seam Parser.nextPosition Parser.nextPosition before seam.Agrees seam.Undisturbed
      seam.Undisturbed := by
  refine of_runs (nextPosition_runs known) (Nat.le_refl _) id fun other needed corresponds => ?_
  have steady := needed.elim steady_of_exact (·.steady)
  exact ⟨_, other, nextPosition_runs (next_of_steady corresponds steady known),
    corresponds.spanOf piece, corresponds⟩

/-- A token outside of the inner modes. -/
theorem skipOuter {kind : TokenKind} {piece : List Char} {next next' : Unit → Parser α}
    {middle : State → Prop} (outer : before.mode = .markup ∨ before.mode = .script)
    (known : before.Next kind piece)
    (back : middle (before.after piece) → seam.Kept before ∧
      (seam.tail = [] ∨ Lex.IsBounded kind (before.rest.drop piece.length) seam.tail))
    (coupled : Couples seam (next ()) (next' ()) (before.after piece) gives middle need) :
    Couples seam (Parser.skip >>= next) (Parser.skip >>= next') before gives seam.Undisturbed
      need := by
  refine skip_bind known (fun holds => holds.elim steady_of_exact (·.steady)) ?_ coupled
  intro holds
  obtain ⟨kept, noTail | bounded⟩ := back holds
  · exact ⟨kept, .inl noTail⟩
  · exact .of_bounded kept outer known bounded

end Building

section Excursions

variable {kind : TokenKind} {opening : List Char} {mode : LexMode}
  {next next' : Position → Parser α}

/-- A production in a mode of its own begins with the same token in both
readings, if the text contains the end of that mode. -/
theorem enter (known : before.Next kind opening)
    (outer : before.mode = .markup ∨ before.mode = .script) (isInner : mode.IsInner)
    (bounded : Lex.IsClosed mode (before.rest.drop opening.length) →
      Lex.IsBounded kind (before.rest.drop opening.length) seam.tail)
    (coupled : ∀ other, seam.Agrees (before.spanOf opening) other →
      Couples seam (next (before.spanOf opening)) (next' other)
        ((before.after opening).entered mode) gives seam.Undisturbed need) :
    Couples seam
      (do
        let start ← Parser.nextPosition
        Parser.skip
        Parser.pushMode mode
        next start)
      (do
        let start ← Parser.nextPosition
        Parser.skip
        Parser.pushMode mode
        next' start) before gives seam.Undisturbed need := by
  have back : seam.Undisturbed ((before.after opening).entered mode) → seam.Undisturbed before := by
    intro undisturbed
    rcases undisturbed.closed isInner with noTail | closed
    · exact ⟨undisturbed.1, .inl noTail⟩
    · rw [State.rest_entered, State.rest_after] at closed
      exact .of_bounded undisturbed.1 outer known (bounded closed)
  have notMatter : mode ≠ .frontMatter := by
    rcases isInner with rfl | rfl | rfl <;> decide
  have entered : Couples seam (Parser.pushMode mode) (Parser.pushMode mode)
      (before.after opening) Eq (fun state => seam.Undisturbed (state.entered mode))
      seam.Undisturbed := pushMode notMatter id
  apply bind_runs (nextPosition_runs known) (nextPosition known) agrees_total
  intro start agrees
  have coupledThen : Couples seam (do Parser.pushMode mode; next (before.spanOf opening))
      (do Parser.pushMode mode; next' start) (before.after opening) gives
      (fun state => seam.Undisturbed (state.entered mode)) need :=
    bind_runs (pushMode_runs notMatter) entered (fun _ => ⟨_, rfl⟩) fun _ _ =>
      coupled start agrees
  refine skip_bind known ?_ ?_ coupledThen
  · exact fun holds => holds.elim steady_of_exact (·.steady)
  · exact back

theorem leave {place other : Position} (agrees : seam.Agrees place other)
    (coupled : ∀ place other, seam.Agrees place other →
      Couples seam (next place) (next' other) before.left gives seam.Kept need) :
    Couples seam
      (do
        Parser.popMode
        let position ← Parser.spanningFrom place
        next position)
      (do
        Parser.popMode
        let position ← Parser.spanningFrom other
        next' position) before gives seam.Kept need := by
  apply bind_runs popMode_runs leaveKept fun _ => ⟨_, rfl⟩
  exact fun _ _ => spanningFrom_bind agrees coupled

theorem interpolation (known : before.Next .interpolationStart ['{', '{'])
    (outer : before.mode = .markup ∨ before.mode = .script)
    (admits : Admits seam before bound bound') :
    Couples seam (Parser.interpolation bound) (Parser.interpolation bound') before Eq
      seam.Undisturbed seam.Kept := by
  have isInner : LexMode.expression.IsInner := .inr (.inl rfl)
  obtain ⟨less, less', rfl, rfl, lessAdmits⟩ :=
    admits.shorter (State.length_rest_after_lt known.ahead (List.cons_ne_nil _ _))
  apply enter known outer isInner fun _ => trivial
  intro start agrees
  have inside : Inside seam .expression ((before.after ['{', '{']).entered .expression) less
    less' := ⟨lessAdmits.of_le (Nat.le_refl _), rfl, isInner⟩
  apply spaces_bind_succ inside
  intro state inside
  apply bind_takes (expression_reads _) (expression inside)
  intro value piece _
  apply spaces_bind_succ (inside.after piece)
  intro state inside
  rw [discard_bind, discard_bind]
  apply expectClosing_bind inside
  · intro kind piece known spelled accepted
    obtain rfl : kind = .interpolationEnd := by simpa using accepted
    obtain rfl : piece = ['}', '}'] := spelled
    rw [inside.modeEq]
    exact .inr known.ahead.isInfix
  · intro _ _ piece _
    exact leave agrees fun place other agreesThen => addLeaf fun _ => agreesThen

end Excursions

section Texts

/-- Whether a run of text that goes up to a state goes no farther in the longer
source. -/
def EndsText (seam : Seam) (state : State) : Prop :=
  seam.Kept state ∧
    (seam.tail = [] ∨ (state.rest ≠ [] ∧ seam.Steady state) ∨
      (state.rest = [] ∧ Lex.BeginsConstruct seam.tail))

theorem EndsText.steady {state : State} (ends : EndsText seam state)
    (modeEq : state.mode = .markup) : seam.Steady state := by
  intro lexeme found
  rcases ends.2 with noTail | ⟨-, isSteady⟩ | ⟨ended, -⟩
  · rw [noTail, List.append_nil]
    exact found
  · exact isSteady lexeme found
  · simp [modeEq, ended, Lex.scanIn, Lex.scanMarkup] at found

/-- A construct does not begin with a text. -/
theorem isTextual_of_beginsConstruct {text : List Char} {lexeme : Lex.Lexeme}
    (begins : Lex.BeginsConstruct text)
    (scanned : Lex.scanMarkup text = .ok (some lexeme)) : isTextual lexeme.kind = false := by
  obtain ⟨c, rest, textEq, isMark⟩ := begins
  -- The characters that texts and entities begin with are none of the marks.
  have other : ∀ {d : Char} {text : List Char}, d :: text = c :: rest →
      d ∈ ['<', '{', '}', '@'] := fun sameText => (List.cons.inj sameText).1 ▸ isMark
  have found : ∀ {kind : TokenKind} {length : Nat}, isTextual kind = false →
      Lex.Scan.found kind length = .ok (some lexeme) → isTextual lexeme.kind = false := by
    intro kind length notTextual foundEq
    obtain rfl := Option.some.inj (Except.ok.inj foundEq)
    exact notTextual
  unfold Lex.scanMarkup Lex.scanMarkupComment at scanned
  split at scanned
  · contradiction
  · split at scanned
    · exact found rfl scanned
    · contradiction
  · exact found rfl scanned
  · exact absurd (other textEq) (by decide)
  · exact found rfl scanned
  · exact absurd (other textEq) (by decide)
  · exact found rfl scanned
  · exact found rfl scanned
  · exact found rfl scanned
  · exact absurd (other textEq) (by simp_all)

theorem refuses_tail (begins : Lex.BeginsConstruct seam.tail) :
    Refuses .markup isTextual seam.tail := by
  cases scanned : Lex.scanIn .markup seam.tail with
  | error fault => exact (seam.scans fault scanned).elim
  | ok lexeme? =>
      refine ⟨lexeme?, scanned, ?_⟩
      cases lexeme? with
      | none => rfl
      | some lexeme => exact isTextual_of_beginsConstruct begins scanned

theorem endsText_iff (markup : before.mode = .markup) (someRest : before.rest ≠ []) :
    EndsText seam before ↔ seam.Undisturbed before := by
  unfold EndsText Seam.Undisturbed Seam.Ends
  simp [markup, someRest]

/-- A token of text is the same one in both readings if the run it is in ends. -/
theorem EndsText.of_after {kind : TokenKind} {piece : List Char} (markup : before.mode = .markup)
    (known : before.Next kind piece) (textual : isTextual kind = true)
    (ends : EndsText seam (before.after piece)) : EndsText seam before := by
  have nonempty : piece ≠ [] := (known.fits (by simp [markup])).1
  have someRest : before.rest ≠ [] := fun ended =>
    nonempty (List.prefix_nil.1 (ended ▸ known.ahead))
  rcases ends.2 with noTail | ends'
  · exact ⟨ends.1, .inl noTail⟩
  have bounded : before.rest.drop piece.length ≠ [] ∨ Lex.BeginsConstruct seam.tail := by
    rw [State.rest_after] at ends'
    exact ends'.imp And.left And.right
  refine (endsText_iff markup someRest).2 (.of_bounded ends.1 (.inl markup) known ?_)
  cases kind with
  | whitespace content | text content => exact bounded
  | entity content => exact trivial
  | punctuation mark =>
      cases mark with
      | greater => exact trivial
      | _ => simp [isTextual] at textual
  | _ => simp [isTextual] at textual

theorem EndsText.of_addLeaf {content : String} {place : Position}
    (markup : before.mode = .markup)
    (undisturbed : seam.Undisturbed (before.addLeaf (.text content) place)) :
    EndsText seam before := by
  have free := State.addLeaf_lexerFree (.text content) place
  have modeEq : (before.addLeaf (.text content) place).mode = .markup :=
    (mode_of_change free before).trans markup
  refine ⟨kept_of_document (State.document_addLeaf _ _ _).1 undisturbed.1,
    undisturbed.2.imp_right fun ends => ?_⟩
  unfold Seam.Ends Seam.Steady at ends
  simp only [modeEq, free.rest_eq] at ends
  rw [← markup] at ends
  refine ends.imp id fun ⟨ended, nothingOpen, separate⟩ => ⟨ended, ?_⟩
  -- The last node is the text itself.
  refine separate.resolve_left fun other => ?_
  obtain ⟨lexer, document, enclosing, top, dropped, size⟩ := before
  cases enclosing with
  | nil => exact absurd (other _ rfl) nofun
  | cons construct outer => cases nothingOpen

theorem textRun {kind : TokenKind} {piece : List Char} (markup : before.mode = .markup)
    (known : before.Next kind piece) (nonempty : piece ≠ []) (textual : isTextual kind = true)
    (admits : Admits seam before bound bound') :
    Couples seam (Parser.textRun bound) (Parser.textRun bound') before Eq seam.Undisturbed
      seam.Undisturbed := by
  have run : Couples seam (Parser.skipWhile isTextual bound) (Parser.skipWhile isTextual bound')
      before Eq (EndsText seam) (EndsText seam) := by
    refine skipWhile (by decide) ?_ ?_ ?_ markup admits.enough admits.enough'
    · exact fun state modeEq holds => holds.elim steady_of_exact (·.steady modeEq)
    · exact fun state kind piece modeEq known accepted => .of_after modeEq known accepted
    · intro state modeEq ended holds
      have noTail : seam.tail = [] → Refuses .markup isTextual seam.tail := fun tailEq =>
        ⟨none, by rw [tailEq]; rfl, rfl⟩
      rcases holds with isExact | ⟨-, tailEq | ⟨someRest, -⟩ | ⟨-, begins⟩⟩
      · exact noTail (seam.tail_of_exact isExact)
      · exact noTail tailEq
      · exact (someRest ended).elim
      · exact refuses_tail begins
  have someRest : before.rest ≠ [] := fun ended =>
    nonempty (List.prefix_nil.1 (ended ▸ known.ahead))
  suffices coupled : Couples seam (Parser.textRun bound) (Parser.textRun bound') before Eq
      (EndsText seam) seam.Undisturbed from
    coupled.mono (fun _ _ => id) (endsText_iff markup someRest).1 fun _ => id
  apply bind_runs here_runs here accompanies_total
  intro start accompanies
  apply bind_known run (skipWhile_stops_some known nonempty textual admits.enough) fun _ =>
    ⟨_, rfl⟩
  rintro _ _ _ ⟨piece, ahead, -, rfl, -⟩ - rfl
  apply bind_runs here_runs here accompanies_total
  intro stop accompaniesThen
  apply spanningFrom_bind accompanies.agrees
  intro place other agreesThen
  rw [State.textTo_after ahead, accompanies.textTo accompaniesThen ahead]
  exact change (State.addLeaf_lexerFree _ _) (State.addLeaf_lexerFree _ _)
    (.of_addLeaf markup) fun _ corresponds => corresponds.addLeaf _ fun _ => agreesThen

end Texts

section Content

/-- The end of a source is reported alike if an element is open. -/
theorem failUnclosedElement {tag : Element} (innermost : before.innermost? = some (.element tag)) :
    Couples seam (Parser.failUnclosedElement : Parser α) Parser.failUnclosedElement before gives
      seam.Undisturbed need := by
  refine of_fails failUnclosedElement_fails fun isExact => ?_
  obtain ⟨lexer, document, enclosing, top, dropped, size⟩ := before
  cases enclosing with
  | nil => simp [State.innermost?] at innermost
  | cons construct outer =>
      obtain ⟨id, kind, place, children⟩ := construct
      obtain rfl : kind = .element tag := by simpa [State.innermost?] using innermost
      refine get (fun _ => rfl) (fun _ => rfl) (fun other corresponds => ?_)
        (failAt (Seam.agrees_shifted place))
      obtain ⟨⟨id', kind', place', children'⟩, outer', matched, -, otherEq⟩ :=
        List.forall₂_cons_left_iff.1 corresponds.enclosing
      obtain ⟨kindEq, agrees, -⟩ := matched
      obtain rfl : kind' = .element tag := kindEq
      obtain rfl : place' = place.shifted seam.bytes seam.lines := agrees isExact
      simp only [otherEq]

theorem innermost?_of_frames_eq {state : State} (framesEq : state.frames = before.frames) :
    state.innermost? = before.innermost? := by
  rw [State.innermost?_eq_frames, State.innermost?_eq_frames, framesEq]

theorem ends_of_script (script : before.mode = .script) (undisturbed : seam.Undisturbed before) :
    seam.tail = [] ∨ before.rest ≠ [] := by
  refine undisturbed.2.imp_right fun ends => ?_
  unfold Seam.Ends at ends
  rw [script] at ends
  exact ends.1

/-- The end of a script or a style sheet. -/
theorem closeContent :
    Couples seam (do Parser.popMode; modify (·.closeNode)) (do Parser.popMode; modify (·.closeNode))
      before Eq seam.Kept seam.Kept :=
  bind_runs popMode_runs leaveKept (fun _ => ⟨_, rfl⟩) fun _ _ => closeNode

theorem scriptContent {tag : Element} (script : before.mode = .script)
    (innermost : before.innermost? = some (.element tag))
    (admits : Admits seam before bound bound') :
    Couples seam (Parser.scriptContent (bound + 1)) (Parser.scriptContent (bound' + 1)) before Eq
      seam.Undisturbed seam.Kept := by
  induction bound using Nat.strong_induction_on generalizing before bound' with
  | _ bound ih =>
      have further : ∀ {middle : State}, middle.mode = .script →
          middle.frames = before.frames → middle.rest.length < before.rest.length →
          Couples seam (Parser.scriptContent bound) (Parser.scriptContent bound') middle Eq
            seam.Undisturbed seam.Kept := by
        intro middle modeEq framesEq shorter
        obtain ⟨less, less', rfl, rfl, lessAdmits⟩ := admits.shorter shorter
        exact ih less (Nat.lt_succ_self less) modeEq
          ((innermost?_of_frames_eq framesEq).trans innermost) lessAdmits
      have addsCode : ∀ {kind : TokenKind} {piece : List Char} (code : String)
          (place other : Position), before.Next kind piece → piece ≠ [] →
          (before.rest.drop piece.length ≠ [] →
            Lex.IsBounded kind (before.rest.drop piece.length) seam.tail) →
          Couples seam
            (do
              Parser.skip
              modify (·.addCode code place)
              Parser.scriptContent bound)
            (do
              Parser.skip
              modify (·.addCode code other)
              Parser.scriptContent bound') before Eq seam.Undisturbed seam.Kept := by
        intro kind piece code place other known nonempty bounded
        have free := State.addCode_lexerFree place code
        have scriptThen : (before.after piece).mode = .script := script
        have back : seam.Undisturbed (before.after piece) → seam.Kept before ∧
            (seam.tail = [] ∨ Lex.IsBounded kind (before.rest.drop piece.length) seam.tail) := by
          intro undisturbed
          have ends := ends_of_script scriptThen undisturbed
          rw [State.rest_after] at ends
          exact ⟨undisturbed.1, ends.imp_right bounded⟩
        refine skipOuter (.inr script) known back
          (change_bind free (State.addCode_lexerFree other code) ?_
            (fun state corresponds => corresponds.addCode code place other) (further ?_ ?_ ?_))
        · exact undisturbed_of_change free (State.document_addCode code place _).1
            (by rw [scriptThen]; decide)
        · exact (mode_of_change free _).trans script
        · rw [State.frames_addCode, State.frames_after]
        · exact shorter_of_change free known.ahead nonempty
      refine peek (fun holds => holds.elim steady_of_exact (·.steady))
        (fun kind piece place known nonempty spelled isSpan => ?_)
        fun ended => ⟨?_, failUnclosedElement innermost⟩
      · cases kind with
        | scriptCode code => exact addsCode code _ _ known nonempty id
        | interpolationEnd => exact addsCode _ _ _ known nonempty fun _ => trivial
        | interpolationStart =>
            obtain rfl : piece = ['{', '{'] := spelled
            have coupled : Couples seam (Parser.interpolation bound) (Parser.interpolation bound')
                before Eq seam.Undisturbed seam.Undisturbed :=
              (interpolation known (.inr script) admits).mono (fun _ _ => id) id fun _ => And.left
            apply bind_known coupled (interpolation_meets bound known) fun _ => ⟨_, rfl⟩
            rintro _ _ _ ⟨value, piece, ahead, written, -, rfl⟩ - -
            have free := State.addLeaf_lexerFree (.interpolation value) (before.spanOf piece)
            apply further
            · exact (mode_of_change free _).trans script
            · rw [State.frames_addLeaf, State.frames_after]
            · exact shorter_of_change free ahead written.nonempty
        | scriptEnd =>
            apply skipOuter (.inr script) known
              fun kept : seam.Kept (before.after piece) => ⟨kept, .inr trivial⟩
            exact closeContent
        | _ => exact failUnexpected
      · rintro (isExact | undisturbed)
        · exact seam.tail_of_exact isExact
        · exact (ends_of_script script undisturbed).resolve_right (not_not_intro ended)

theorem isClosed_of_styleEnd {closing : List Char} (style : before.mode = .style)
    (ahead : closing <+: before.rest)
    (closes : Text.equalIgnoreCase "</style>".toList closing = true) :
    Lex.IsClosed before.mode before.rest := by
  obtain ⟨tail, restEq⟩ := ahead
  rw [style, ← restEq]
  exact ⟨_, List.suffix_refl _, Text.startsWithIgnoreCase_of_equal closes⟩

theorem skipStyle {tag : Element} (inside : Inside seam .style before bound bound')
    (innermost : before.innermost? = some (.element tag)) :
    Couples seam (Parser.skipStyle (bound + 1)) (Parser.skipStyle (bound' + 1)) before Eq
      seam.Undisturbed seam.Undisturbed := by
  induction bound using Nat.strong_induction_on generalizing before bound' with
  | _ bound ih =>
      have further : ∀ {kind : TokenKind} {piece : List Char}, before.Next kind piece →
          Couples seam (do Parser.skip; Parser.skipStyle bound)
            (do Parser.skip; Parser.skipStyle bound') before Eq seam.Undisturbed
            seam.Undisturbed := by
        intro kind piece known
        have nonempty := (known.fits inside.notMatter).1
        obtain ⟨less, less', rfl, rfl, lessInside⟩ :=
          inside.shorter (State.length_rest_after_lt known.ahead nonempty) inside.modeEq
        apply skip_bind known (fun holds => holds.elim steady_of_exact (·.steady))
          (.of_after inside.inner)
        exact ih less (Nat.lt_succ_self less) lessInside innermost
      apply peekKindInner inside
      · intro kind piece known _
        cases kind with
        | styleEnd => exact pure rfl
        | _ => exact further known
      · exact failUnclosedElement innermost

theorem styleContent {tag : Element} (inside : Inside seam .style before bound bound')
    (innermost : before.innermost? = some (.element tag)) :
    Couples seam (Parser.styleContent (bound + 1)) (Parser.styleContent (bound' + 1)) before Eq
      seam.Undisturbed seam.Kept := by
  have closes : ∀ {state : State} {closing : List Char}, state.mode = .style →
      state.Next .styleEnd closing →
      Text.equalIgnoreCase "</style>".toList closing = true →
      Couples seam (do Parser.skip; Parser.popMode; modify (·.closeNode))
        (do Parser.skip; Parser.popMode; modify (·.closeNode)) state Eq seam.Undisturbed
        seam.Kept := by
    intro state closing style known equal
    refine skip_bind known (fun holds => holds.elim steady_of_exact (·.steady)) (fun kept => ?_)
      closeContent
    exact .of_closed kept (.inr (.inr style)) (isClosed_of_styleEnd style known.ahead equal)
  apply bind_runs here_runs here accompanies_total
  intro start accompanies
  apply bind_known (skipStyle inside innermost)
    (skipStyle_meets (Nat.lt_succ_of_le inside.enough)) fun _ => ⟨_, rfl⟩
  rintro - _ _ ⟨piece, closing, ahead, rfl, -, known, nonempty, equal⟩ - rfl
  apply bind_runs here_runs here accompanies_total
  intro stop accompaniesThen
  dsimp only
  rw [State.textTo_after ahead, accompanies.textTo accompaniesThen ahead]
  have style : (before.after piece).mode = .style := inside.modeEq
  cases someText : !piece.isEmpty with
  | false =>
      simp only [Bool.false_eq_true, if_false]
      exact closes style known equal
  | true =>
      simp only [if_true]
      apply spanningFrom_bind accompanies.agrees
      intro place other agrees
      have free := State.addLeaf_lexerFree (.text (String.ofList piece)) place
      apply change_bind free (State.addLeaf_lexerFree _ _)
      · exact undisturbed_of_change free (State.document_addLeaf _ _ _).1
          (by rw [style]; decide)
      · exact fun state corresponds => corresponds.addLeaf _ fun _ => agrees
      · exact closes ((mode_of_change free _).trans style) (free.next known) equal

end Content

section Tags

variable {start start' : Position}

theorem element (inside : Inside seam .tag before bound bound')
    (agrees : seam.Agrees start start') :
    Couples seam (Parser.element (bound + 1) start) (Parser.element (bound' + 1) start') before Eq
      seam.Undisturbed seam.Kept := by
  apply bind_known (startTag inside)
    (startTag_takes inside.modeEq (Nat.lt_succ_of_le inside.enough)) fun _ => ⟨_, rfl⟩
  rintro tag _ _ ⟨piece, ahead, -, rfl⟩ shorter rfl
  apply leave agrees
  intro place other agreesThen
  have free := State.openNode_lexerFree (.element tag) place
  have admits : ∀ mode, Admits seam
      (((before.after piece).left.openNode (.element tag) place).entered mode) bound bound' :=
    fun mode => inside.of_le shorter
  cases tag.selfClosing with
  | true =>
      simp only [if_true]
      exact addLeaf fun _ => agreesThen
  | false =>
      simp only [Bool.false_eq_true, if_false]
      apply bind_runs (modify_runs free) (openNode agreesThen) fun _ => ⟨_, rfl⟩
      intro _ _
      cases tag.isNamed "script" with
      | true =>
          simp only [if_true]
          apply bind_runs (pushMode_runs (by decide)) (enterKept (by decide)) fun _ => ⟨_, rfl⟩
          intro _ _
          exact (scriptContent rfl rfl (admits .script)).mono (fun _ _ => id)
            (fun undisturbed => undisturbed.1) fun _ => id
      | false =>
          simp only [Bool.false_eq_true, if_false]
          cases tag.isNamed "style" with
          | true =>
              simp only [if_true]
              apply bind_runs (pushMode_runs (by decide)) (enterKept (by decide)) fun _ => ⟨_, rfl⟩
              intro _ _
              exact (styleContent ⟨admits .style, rfl, .inr (.inr rfl)⟩ rfl).mono
                (fun _ _ => id) (fun undisturbed => undisturbed.1) fun _ => id
          | false => exact pure rfl

theorem elementEnd {piece : List Char} (inside : Inside seam .tag before bound bound')
    (known : before.Next (.punctuation .slash) piece) (agrees : seam.Agrees start start') :
    Couples seam (Parser.elementEnd bound start) (Parser.elementEnd bound' start') before Eq
      seam.Undisturbed seam.Kept := by
  apply bind_takes (endTag_takes known) (endTag inside known)
  intro name piece _
  apply leave agrees
  intro place other agreesThen
  apply get_alike (fun _ => rfl) (fun _ => rfl)
  · exact fun _ corresponds => by rw [corresponds.innermost?]
  split
  · split
    · exact closeNode
    · exact failAt agreesThen
  · exact failAt agreesThen

/-- A state behind which nothing is needed. -/
theorem of_lost {first second : Parser α} {pre : State → Prop} (lost : ¬seam.declares)
    (meets : Meets first before
      (fun _ after => after.rest.length ≤ before.rest.length ∧ after.document.declarations ≠ [])
      fun _ => True) : Couples seam first second before gives pre seam.Kept := by
  have notExact : ¬seam.exact := fun isExact => lost (seam.declares_of_exact isExact)
  refine meets.mono ?_ fun _ _ isExact => (notExact isExact).elim
  rintro result after ⟨shorter, declared⟩
  refine ⟨shorter, fun needed => ?_⟩
  rcases needed with isExact | declares | empty
  · exact (notExact isExact).elim
  · exact (lost declares).elim
  · exact (declared empty).elim

theorem declaration_declares {piece : List Char} (enough : before.rest.length ≤ bound)
    (known : before.Next (.punctuation .bang) piece) (start : Position) :
    Meets (Parser.declaration (bound + 1) start) before
      (fun _ after => after.rest.length ≤ before.rest.length ∧ after.document.declarations ≠ [])
      fun _ => True := by
  apply Meets.get (fun _ => rfl)
  cases before.atStart with
  | false => exact failAt_fails.bind
  | true =>
      simp only [Bool.not_true, Bool.false_eq_true, if_false]
      apply Meets.bind_runs (skip_runs known)
      apply Takes.further expectIdentifier_takes known.ahead
      rintro ⟨name, place⟩ word ahead -
      have shorter := before.length_rest_after_le (piece ++ word)
      apply Takes.further
        (declarationParameters_takes (Nat.lt_succ_of_le (Nat.le_trans shorter enough))) ahead
      rintro parameters others - -
      apply Meets.bind_runs popMode_runs
      apply Meets.bind_runs (spanningFrom_runs_here _)
      refine Meets.modify (State.declare_lexerFree _) ⟨?_, by simp [State.declare]⟩
      exact before.length_rest_after_le (piece ++ word ++ others)

theorem declaration {piece : List Char} (inside : Inside seam .tag before bound bound')
    (known : before.Next (.punctuation .bang) piece) (agrees : seam.Agrees start start') :
    Couples seam (Parser.declaration (bound + 1) start) (Parser.declaration (bound' + 1) start')
      before Eq seam.Undisturbed seam.Kept := by
  by_cases declares : seam.declares
  · apply get_alike (fun _ => rfl) (fun _ => rfl)
    · exact fun _ corresponds => by rw [corresponds.atStart declares]
    cases before.atStart with
    | false => exact failAt agrees
    | true =>
        simp only [Bool.not_true, Bool.false_eq_true, if_false]
        apply skipInner inside known
        intro state inside _
        apply expectIdentifier_bind inside
        intro name _ _ state _ inside _
        apply bind (declarationParameters inside)
        intro parameters state _
        apply leave agrees
        intro place other agreesThen
        exact change (State.declare_lexerFree _) (State.declare_lexerFree _)
          (fun _ => .inl declares) fun _ corresponds => corresponds.declare declares place other
  · exact of_lost declares (declaration_declares inside.enough known start)

theorem tag (markup : before.mode = .markup) (known : before.Next (.punctuation .less) ['<'])
    (admits : Admits seam before bound bound') :
    Couples seam (Parser.tag bound) (Parser.tag bound') before Eq seam.Undisturbed seam.Kept := by
  obtain ⟨less, less', rfl, rfl, lessAdmits⟩ :=
    admits.shorter (State.length_rest_after_lt known.ahead (List.cons_ne_nil _ _))
  have isInner : LexMode.tag.IsInner := .inl rfl
  apply enter known (.inl markup) isInner id
  intro start agrees
  have inside : Inside seam .tag ((before.after ['<']).entered .tag) less less' :=
    ⟨lessAdmits.of_le (Nat.le_refl _), rfl, isInner⟩
  apply peekKindInner inside
  · intro kind piece inner _
    cases kind with
    | identifier name => exact element inside agrees
    | punctuation mark =>
        cases mark with
        | slash => exact elementEnd inside.succ inner agrees
        | bang => exact declaration inside inner agrees
        | _ => exact failExpected
    | _ => exact failExpected
  · exact failExpected

end Tags

section Blocks

theorem statement (markup : before.mode = .markup)
    (known : before.Next (.punctuation .at) ['@']) (admits : Admits seam before bound bound') :
    Couples seam (Parser.statement bound) (Parser.statement bound') before Eq seam.Undisturbed
      seam.Kept := by
  obtain ⟨less, less', rfl, rfl, lessAdmits⟩ :=
    admits.shorter (State.length_rest_after_lt known.ahead (List.cons_ne_nil _ _))
  have isInner : LexMode.expression.IsInner := .inr (.inl rfl)
  apply enter known (.inl markup) isInner fun _ => trivial
  intro start agrees
  have inside : Inside seam .expression ((before.after ['@']).entered .expression) less less' :=
    ⟨lessAdmits.of_le (Nat.le_refl _), rfl, isInner⟩
  apply spaces_bind_succ inside
  intro state inside
  apply expectIdentifier_bind inside
  intro keyword place other state agreesKeyword inside _
  by_cases keywordEq : keyword = "for"
  · simp only [ne_eq, keywordEq, not_true_eq_false, if_false]
    apply bind_takes (loopHeader_reads _) (loopHeader inside)
    intro header piece _
    apply expectClosing_bind (inside.after piece)
    · intro kind piece known spelled accepted
      obtain rfl : kind = .punctuation .leftBrace := by simpa using accepted
      obtain rfl : piece = ['{'] := spelled
      rw [(inside.after _).modeEq]
      exact .inl (known.ahead.subset List.mem_cons_self)
    · intro token other _ sameToken
      apply leave agrees
      intro place other agreesThen
      exact bind (openNode agreesThen) fun _ _ _ => openNode sameToken.2
  · simp only [ne_eq, keywordEq, not_false_eq_true, if_true]
    exact failAt agreesKeyword

/-- A brace that opens a block is not the last character of the text. -/
theorem someRest_of_openNode {kind : NodeKind} {place : Position} (markup : before.mode = .markup)
    (undisturbed : seam.Undisturbed (before.openNode kind place)) :
    seam.Kept before ∧ (seam.tail = [] ∨ before.rest ≠ []) := by
  refine ⟨kept_of_document rfl undisturbed.1, undisturbed.2.imp_right fun ends => ?_⟩
  have modeEq : (before.openNode kind place).mode = .markup := markup
  unfold Seam.Ends at ends
  rw [modeEq] at ends
  rcases ends with ⟨someRest, -⟩ | ⟨-, nothingOpen, -⟩
  · exact someRest
  · cases nothingOpen

theorem blockStart (markup : before.mode = .markup)
    (known : before.Next (.punctuation .leftBrace) ['{']) :
    Couples seam Parser.blockStart Parser.blockStart before Eq seam.Undisturbed
      seam.Undisturbed := by
  apply bind_runs (nextPosition_runs known) (nextPosition known) agrees_total
  intro other agrees
  have opened : Couples seam (modify (·.openNode .block (before.spanOf ['{'])))
      (modify (·.openNode .block other)) (before.after ['{']) Eq
      (fun state => seam.Kept state ∧ (seam.tail = [] ∨ state.rest ≠ [])) seam.Undisturbed :=
    change (State.openNode_lexerFree _ _) (State.openNode_lexerFree _ _)
      (someRest_of_openNode markup) fun _ corresponds => corresponds.openNode .block agrees
  refine skipOuter (.inl markup) known ?_ opened
  rintro ⟨kept, ends⟩
  rw [State.rest_after] at ends
  exact ⟨kept, ends⟩

theorem blockEnd (markup : before.mode = .markup)
    (known : before.Next (.punctuation .rightBrace) ['}']) :
    Couples seam Parser.blockEnd Parser.blockEnd before Eq seam.Undisturbed seam.Kept := by
  apply bind_runs (nextPosition_runs known) (nextPosition known) agrees_total
  intro other agrees
  apply skipOuter (.inl markup) known
    fun kept : seam.Kept (before.after ['}']) => ⟨kept, .inr trivial⟩
  apply get_alike (fun _ => rfl) (fun _ => rfl)
  · exact fun _ corresponds => by rw [corresponds.innermost?]
  split
  · apply bind_runs (modify_runs State.closeNode_lexerFree) closeNode fun _ => ⟨_, rfl⟩
    intro _ _
    apply get_alike (fun _ => rfl) (fun _ => rfl)
    · exact fun _ corresponds => by rw [corresponds.innermost?]
    split
    · exact closeNode
    · exact pure rfl
  · exact failAt agrees

theorem comment {content : String} {piece : List Char} {place other : Position}
    (markup : before.mode = .markup) (known : before.Next (.comment content) piece)
    (agrees : seam.Agrees place other) :
    Couples seam (Parser.comment content place) (Parser.comment content other) before Eq
      seam.Undisturbed seam.Kept := by
  apply skipOuter (.inl markup) known
    fun kept : seam.Kept (before.after piece) => ⟨kept, .inr trivial⟩
  exact addLeaf fun _ => agrees

end Blocks

section Markup

theorem construct {kind : TokenKind} {piece : List Char} {place other : Position}
    (markup : before.mode = .markup) (known : before.Next kind piece) (nonempty : piece ≠ [])
    (spelled : kind.IsSpelled piece) (agrees : seam.Agrees place other)
    (admits : Admits seam before bound bound') :
    Couples seam (Parser.construct bound ⟨kind, place⟩) (Parser.construct bound' ⟨kind, other⟩)
      before Eq seam.Undisturbed seam.Undisturbed := by
  have kept : ∀ {first second : Parser Unit},
      Couples seam first second before Eq seam.Undisturbed seam.Kept →
      Couples seam first second before Eq seam.Undisturbed seam.Undisturbed := fun coupled =>
    coupled.mono (fun _ _ => id) id fun _ => And.left
  cases kind with
  | whitespace content | text content | entity content =>
      exact textRun markup known nonempty rfl admits
  | comment content => exact kept (comment markup known agrees)
  | interpolationStart =>
      obtain rfl : piece = ['{', '{'] := spelled
      exact kept (interpolation known (.inl markup) admits)
  | punctuation mark =>
      cases mark with
      | greater => exact textRun markup known nonempty rfl admits
      | less =>
          obtain rfl : piece = ['<'] := spelled
          exact kept (tag markup known admits)
      | «at» =>
          obtain rfl : piece = ['@'] := spelled
          exact kept (statement markup known admits)
      | leftBrace =>
          obtain rfl : piece = ['{'] := spelled
          exact blockStart markup known
      | rightBrace =>
          obtain rfl : piece = ['}'] := spelled
          exact kept (blockEnd markup known)
      | _ => exact failUnexpected
  | _ => exact failUnexpected

end Markup

end Couples

end Parser

end TemplateCompiler
