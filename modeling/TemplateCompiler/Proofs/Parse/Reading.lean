import TemplateCompiler.Proofs.Parse.Tokens
import TemplateCompiler.Proofs.Template.Paths

/-!
# What the productions read

When a production succeeds it has taken the characters that spell its result.
Each production is shown to take characters of a certain form; which tokens it
took to get there does not matter afterwards.

The bounds on repetition have to exceed the number of characters left, for a
production that ran out of its bound would stop in the middle.
-/

namespace TemplateCompiler

namespace Parser

open Parse

variable {α β : Type} {before : State}

/-- If an action succeeds, it has taken some characters, which spell its
result, and has changed nothing else. -/
def Takes (action : Parser α) (before : State) (spells : α → List Char → Prop) : Prop :=
  Meets action before
    (fun result after =>
      ∃ piece, piece <+: before.rest ∧ spells result piece ∧ after = before.after piece)
    fun _ => True

namespace Takes

variable {spells : α → List Char → Prop}

theorem pure {result : α} (spelled : spells result []) :
    Takes (Pure.pure result) before spells := by
  rintro state ready rfl
  exact ⟨ready, [], List.nil_prefix, spelled, rfl⟩

theorem bind {action : Parser α} {next : α → Parser β} {spells : β → List Char → Prop}
    {first : α → List Char → Prop} (taken : Takes action before first)
    (others : ∀ result piece, piece <+: before.rest → first result piece →
      Takes (next result) (before.after piece) fun last others => spells last (piece ++ others)) :
    Takes (action >>= next) before spells := by
  apply Meets.bind taken
  rintro result _ ⟨piece, ahead, spelled, rfl⟩
  refine Meets.mono (others result piece ahead spelled) ?_ fun _ _ => trivial
  rintro last _ ⟨others, aheadThen, spelledThen, rfl⟩
  exact ⟨piece ++ others, State.prefix_append_iff.2 ⟨ahead, aheadThen⟩, spelledThen,
    State.after_after _ _ _⟩

theorem mono {action : Parser α} {stronger : α → List Char → Prop}
    (taken : Takes action before stronger)
    (weaken : ∀ result piece, stronger result piece → spells result piece) :
    Takes action before spells := by
  refine Meets.mono taken ?_ fun _ _ => trivial
  rintro result _ ⟨piece, ahead, spelled, rfl⟩
  exact ⟨piece, ahead, weaken _ _ spelled, rfl⟩

theorem peek {next : Option Token → Parser α}
    (taken : ∀ kind piece, before.Next kind piece → piece ≠ [] → kind.IsSpelled piece →
      Takes (next (some ⟨kind, before.spanOf piece⟩)) before spells)
    (ended : Takes (next none) before spells) : Takes (Parser.peek >>= next) before spells :=
  Meets.peek taken (fun _ => ended) fun _ _ => trivial

theorem peekKind {next : Option TokenKind → Parser α}
    (taken : ∀ kind piece, before.Next kind piece → piece ≠ [] → kind.IsSpelled piece →
      Takes (next (some kind)) before spells)
    (ended : Takes (next none) before spells) :
    Takes (Parser.peekKind >>= next) before spells := by
  rw [peekKind_bind]
  exact peek taken ended

theorem nextIs {accepts : TokenKind → Bool} {next : Bool → Parser α}
    (accepted : ∀ kind piece, before.Next kind piece → kind.IsSpelled piece →
      accepts kind = true → Takes (next true) before spells)
    (refused : Takes (next false) before spells) :
    Takes (Parser.nextIs accepts >>= next) before spells := by
  rw [nextIs_bind]
  refine peek (fun kind piece known _ spelled => ?_) refused
  rw [Option.map_some, Option.any_some]
  cases acceptsEq : accepts kind with
  | true => exact accepted kind piece known spelled acceptsEq
  | false => exact refused

theorem discard {action : Parser α} {next : Unit → Parser β} {spells : β → List Char → Prop}
    {first : α → List Char → Prop} (taken : Takes action before first)
    (others : ∀ result piece, piece <+: before.rest → first result piece →
      Takes (next ()) (before.after piece) fun last others => spells last (piece ++ others)) :
    Takes (discard action >>= next) before spells := by
  rw [discard_bind]
  exact bind taken others

theorem skip {kind : TokenKind} {piece : List Char} {next : Unit → Parser α}
    (known : before.Next kind piece)
    (others : Takes (next ()) (before.after piece) fun last others =>
      spells last (piece ++ others)) : Takes (Parser.skip >>= next) before spells := by
  refine Meets.bind_runs (skip_runs known) (Meets.mono others ?_ fun _ _ => trivial)
  rintro last _ ⟨others, aheadThen, spelledThen, rfl⟩
  exact ⟨piece ++ others, State.prefix_append_iff.2 ⟨known.ahead, aheadThen⟩, spelledThen,
    State.after_after _ _ _⟩

end Takes

theorem discard_takes {action : Parser α} {spells : α → List Char → Prop}
    (taken : Takes action before spells) :
    Takes (discard action) before fun _ piece => ∃ result, spells result piece := by
  have discardEq : discard action = discard action >>= fun _ => Pure.pure () := by simp
  rw [discardEq]
  refine Takes.discard taken fun result piece _ spelled => Takes.pure ⟨result, ?_⟩
  rwa [List.append_nil]

theorem Takes.further {action : Parser α} {next : α → Parser β} {post : β → State → Prop}
    {spells : α → List Char → Prop} {taken : List Char}
    (takes : Takes action (before.after taken) spells) (ahead : taken <+: before.rest)
    (others : ∀ result piece, taken ++ piece <+: before.rest → spells result piece →
      Meets (next result) (before.after (taken ++ piece)) post fun _ => True) :
    Meets (action >>= next) (before.after taken) post fun _ => True := by
  apply Meets.bind takes
  rintro result _ ⟨piece, pieceAhead, spelled, rfl⟩
  rw [State.after_after]
  exact others result piece (State.prefix_append_iff.2 ⟨ahead, pieceAhead⟩) spelled

section Failures

/-- An action that never succeeds. -/
def Fails (action : Parser α) (before : State) : Prop :=
  Meets action before (fun _ _ => False) fun _ => True

theorem Fails.meets {action : Parser α} {post : α → State → Prop} (fails : Fails action before) :
    Meets action before post fun _ => True :=
  fails.mono (fun _ _ impossible => impossible.elim) fun _ _ => trivial

theorem Fails.bind {action : Parser α} {next : α → Parser β} {post : β → State → Prop}
    (fails : Fails action before) : Meets (action >>= next) before post fun _ => True :=
  Meets.bind fails fun _ _ impossible => impossible.elim

theorem Fails.takes {action : Parser α} {spells : α → List Char → Prop}
    (fails : Fails action before) : Takes action before spells :=
  fails.meets

theorem failAt_fails {cause : Cause} {position : Position} :
    Fails (failAt cause position : Parser α) before :=
  Meets.failAt trivial

theorem found_meets :
    Meets found before (fun _ after => after = before) fun _ => True := by
  rw [found, peekKind_bind]
  exact Meets.peek (fun _ _ _ _ _ => Meets.pure rfl) (fun _ => Meets.pure rfl)
    fun _ _ => trivial

theorem nextPosition_meets :
    Meets nextPosition before (fun _ after => after = before) fun _ => True :=
  Meets.peek (fun _ _ _ _ _ => Meets.pure rfl)
    (fun _ => Meets.get (fun _ => rfl) (Meets.pure rfl)) fun _ _ => trivial

theorem failAtNext_fails (cause : String → Cause) :
    Fails (do failAt (cause (← found)) (← nextPosition) : Parser α) before := by
  apply Meets.bind found_meets
  rintro _ _ rfl
  apply Meets.bind nextPosition_meets
  rintro _ _ rfl
  exact failAt_fails

theorem failExpected_fails {what : String} : Fails (failExpected what : Parser α) before :=
  failAtNext_fails _

theorem failUnexpected_fails {place : Place} :
    Fails (failUnexpected place : Parser α) before :=
  failAtNext_fails _

end Failures

section Single

theorem expect_takes {what : String} {accepts : TokenKind → Bool} :
    Takes (expect what accepts) before fun token piece =>
      accepts token.kind = true ∧ token.kind.IsSpelled piece ∧
        token.position = before.spanOf piece := by
  refine Takes.peek (fun kind piece known _ spelled => ?_) failExpected_fails.takes
  dsimp only
  split
  · next accepted =>
      refine Takes.skip known (Takes.pure ?_)
      rw [List.append_nil]
      exact ⟨accepted, spelled, rfl⟩
  · exact failExpected_fails.takes

theorem expectMark_takes {what : String} {mark : Punctuation} :
    Takes (expectMark what mark) before fun token piece =>
      piece = mark.spelling.toList ∧ token.position = before.spanOf piece := by
  refine expect_takes.mono fun token piece spelled => ⟨?_, spelled.2.2⟩
  have kindEq : token.kind = .punctuation mark := by simpa using spelled.1
  have spelling := spelled.2.1
  rwa [kindEq] at spelling

theorem expectIdentifier_takes {what : String} :
    Takes (expectIdentifier what) before fun named piece => piece = named.1.toList := by
  refine Takes.peek (fun kind piece known _ spelled => ?_) failExpected_fails.takes
  cases kind with
  | identifier name =>
      refine Takes.skip known (Takes.pure ?_)
      rw [List.append_nil]
      exact spelled
  | _ => exact failExpected_fails.takes

/-- A run of tokens takes characters of some class when each of the tokens
does. -/
theorem skipWhile_takes {accepts : TokenKind → Bool} {member : Char → Prop}
    (accepted : ∀ kind piece, accepts kind = true → kind.IsSpelled piece →
      ∀ c ∈ piece, member c) (bound : Nat) :
    Takes (skipWhile accepts bound) before fun _ piece => ∀ c ∈ piece, member c := by
  induction bound generalizing before with
  | zero => exact Takes.pure (by simp)
  | succ bound ih =>
      refine Takes.nextIs (fun kind piece known spelled acceptsEq => ?_) (Takes.pure (by simp))
      refine Takes.skip known (ih.mono fun _ others member => ?_)
      exact List.forall_mem_append.2 ⟨accepted kind piece acceptsEq spelled, member⟩

/-- Whether the next token, if there is one, is not of some kind. -/
def NextIsNot (accepts : TokenKind → Bool) (state : State) : Prop :=
  ∀ lexeme, Lex.scanIn state.mode state.rest = .ok (some lexeme) → accepts lexeme.kind = false

/-- A run of tokens ends before the first token that does not belong to it. -/
theorem skipWhile_stops {accepts : TokenKind → Bool} {bound : Nat}
    (enough : before.rest.length ≤ bound) :
    Meets (skipWhile accepts bound) before
      (fun _ after => ∃ piece, piece <+: before.rest ∧ after = before.after piece ∧
        NextIsNot accepts after)
      fun _ => True := by
  induction bound generalizing before with
  | zero =>
      have ended : before.rest = [] := List.length_eq_zero_iff.1 (Nat.le_zero.1 enough)
      apply Meets.of_mode_ne
      rintro notMatter state ready rfl
      refine ⟨ready, [], List.nil_prefix, rfl, fun lexeme scanned => ?_⟩
      have fits := Lex.fits_scanIn notMatter scanned
      have := fits.within
      have := fits.positive
      rw [ended, List.length_nil] at *
      omega
  | succ bound ih =>
      rw [skipWhile, nextIs_bind]
      refine Meets.peek (fun kind piece known nonempty _ => ?_) (fun ended => ?_)
        fun _ _ => trivial
      · rw [Option.map_some, Option.any_some]
        cases accepted : accepts kind with
        | true =>
            have shorter := State.length_rest_after_lt known.ahead nonempty
            simp only [if_true]
            apply Meets.bind_runs (skip_runs known)
            refine (ih (by omega)).mono ?_ fun _ _ => trivial
            rintro _ _ ⟨others, ahead, rfl, refuses⟩
            rw [State.after_after] at refuses ⊢
            exact ⟨piece ++ others, State.prefix_append_iff.2 ⟨known.ahead, ahead⟩, rfl, refuses⟩
        | false =>
            simp only [Bool.false_eq_true, if_false]
            rintro state ready rfl
            refine ⟨ready, [], List.nil_prefix, rfl, fun lexeme scanned => ?_⟩
            have sameLexeme := Option.some.inj (Except.ok.inj (known.scanned.symm.trans scanned))
            rw [← sameLexeme]
            exact accepted
      · rintro state ready rfl
        refine ⟨ready, [], List.nil_prefix, rfl, fun lexeme scanned => ?_⟩
        cases ended.symm.trans scanned

theorem skipWhile_stops_some {accepts : TokenKind → Bool} {kind : TokenKind}
    {piece : List Char} {bound : Nat} (known : before.Next kind piece) (nonempty : piece ≠ [])
    (accepted : accepts kind = true) (enough : before.rest.length ≤ bound) :
    Meets (skipWhile accepts bound) before
      (fun _ after => ∃ piece, piece <+: before.rest ∧ piece ≠ [] ∧ after = before.after piece ∧
        NextIsNot accepts after)
      fun _ => True := by
  have shorter := State.length_rest_after_lt known.ahead nonempty
  cases bound with
  | zero => omega
  | succ bound =>
      apply Meets.bind_runs (nextIs_runs known.scanned accepts)
      rw [Option.map_some, Option.any_some, accepted]
      apply Meets.bind_runs (skip_runs known)
      refine (skipWhile_stops (by omega)).mono ?_ fun _ _ => trivial
      rintro _ _ ⟨others, ahead, rfl, refuses⟩
      rw [State.after_after] at refuses ⊢
      exact ⟨piece ++ others, State.prefix_append_iff.2 ⟨known.ahead, ahead⟩,
        List.append_ne_nil_of_left_ne_nil nonempty others, rfl, refuses⟩

theorem skipWhitespace_takes (bound : Nat) :
    Takes (skipWhitespace bound) before fun _ piece => Text.IsSpaces piece := by
  refine skipWhile_takes (fun kind piece accepted spelled => ?_) bound
  cases kind with
  | whitespace content => exact spelled.2
  | _ => simp [TokenKind.isWhitespace] at accepted

end Single

section Tags

/-- An action that takes some characters if it succeeds, no matter which. -/
abbrev Reads (action : Parser α) (before : State) : Prop :=
  Takes action before fun _ _ => True

theorem stringValue_reads (bound : Nat) : Reads (stringValue bound) before := by
  apply Takes.bind (skipWhitespace_takes bound)
  intro _ _ _ _
  refine Takes.peekKind (fun kind piece known _ _ => ?_) (failAtNext_fails _).takes
  cases kind with
  | string value => exact Takes.skip known (Takes.pure trivial)
  | _ => exact (failAtNext_fails _).takes

theorem optionalValue_reads (bound : Nat) : Reads (optionalValue bound) before := by
  apply Takes.bind (skipWhitespace_takes bound)
  intro _ _ _ _
  refine Takes.nextIs (fun kind piece known _ _ => ?_) (Takes.pure trivial)
  apply Takes.skip known
  exact Takes.bind (stringValue_reads bound) fun _ _ _ _ => Takes.pure trivial

/-- The identifiers in a tag are names. -/
theorem isPlainName_of_next {name : String} {piece : List Char} (mode : before.mode = .tag)
    (known : before.Next (.identifier name) piece) : IsPlainName name := by
  have scanned := known.scanned
  rw [mode] at scanned
  exact Lex.isPlainName_of_scanTag scanned

theorem expectIdentifier_takes_name {what : String} (mode : before.mode = .tag) :
    Takes (expectIdentifier what) before fun named piece =>
      piece = named.1.toList ∧ IsPlainName named.1 := by
  refine Takes.peek (fun kind piece known _ spelled => ?_) failExpected_fails.takes
  cases kind with
  | identifier name =>
      refine Takes.skip known (Takes.pure ?_)
      rw [List.append_nil]
      exact ⟨spelled, isPlainName_of_next mode known⟩
  | _ => exact failExpected_fails.takes

theorem bindingValue_takes (bound : Nat) (name : String) (direction : BindingDirection) :
    Takes (bindingValue bound name direction) before fun binding _ => binding.name = name := by
  apply Takes.bind (skipWhitespace_takes bound)
  intro _ _ _ _
  apply Takes.discard expectMark_takes
  intro _ _ _ _
  exact Takes.bind (stringValue_reads bound) fun _ _ _ _ => Takes.pure rfl

theorem squareBinding_takes (bound : Nat) (mode : before.mode = .tag) :
    Takes (squareBinding bound) before fun binding _ => IsPlainName binding.name := by
  refine Takes.nextIs (fun kind piece known _ _ => ?_) ?_
  · have modeThen : (before.after piece).mode = .tag := mode
    apply Takes.skip known
    apply Takes.bind (expectIdentifier_takes_name modeThen)
    intro named _ _ isName
    apply Takes.discard expectMark_takes
    intro _ _ _ _
    apply Takes.discard expectMark_takes
    exact fun _ _ _ _ => (bindingValue_takes bound _ _).mono fun _ _ same => same ▸ isName.2
  · apply Takes.bind (expectIdentifier_takes_name mode)
    intro named _ _ isName
    apply Takes.discard expectMark_takes
    exact fun _ _ _ _ => (bindingValue_takes bound _ _).mono fun _ _ same => same ▸ isName.2

theorem roundBinding_takes (bound : Nat) (mode : before.mode = .tag) :
    Takes (roundBinding bound) before fun binding _ => IsPlainName binding.name := by
  apply Takes.bind (expectIdentifier_takes_name mode)
  intro named _ _ isName
  apply Takes.discard expectMark_takes
  exact fun _ _ _ _ => (bindingValue_takes bound _ _).mono fun _ _ same => same ▸ isName.2

/-- An element has got the rest of its start tag: the name and the attributes that were
read before stay, the items have names, and the bracket that closes the tag comes last. -/
structure Completes (element tag : Element) (piece : List Char) : Prop where
  name : tag.name = element.name
  attributes : element.attributes <+: tag.attributes
  named : tag.ItemsNamed
  closed : ['>'] <:+ piece

theorem startTagItems_takes {bound : Nat} (element : Element) (mode : before.mode = .tag)
    (named : element.ItemsNamed) (enough : before.rest.length < bound) :
    Takes (startTagItems bound element) before (Completes element) := by
  induction bound generalizing before element with
  | zero => contradiction
  | succ bound ih =>
      -- What stands before the last bracket does not matter.
      have prepend : ∀ {action : Parser Element} {state : State} {taken : List Char},
          Takes action state (Completes element) →
          Takes action state fun tag piece => Completes element tag (taken ++ piece) :=
        fun takes => takes.mono fun tag piece completes =>
          { completes with closed := List.suffix_append_of_suffix completes.closed }
      refine Takes.bind (skipWhitespace_takes bound) fun _ spaces spacesAhead _ => prepend ?_
      refine Takes.peekKind (fun kind piece known nonempty spelled => ?_)
        failExpected_fails.takes
      have shorter := Nat.lt_of_lt_of_le (State.length_rest_after_lt known.ahead nonempty)
        (before.length_rest_after_le spaces)
      have modeThen : (before.after spaces).mode = .tag := mode
      have modeBehind : ((before.after spaces).after piece).mode = .tag := mode
      have further : ∀ (grown : Element) (taken : List Char), grown.name = element.name →
          element.attributes <+: grown.attributes → grown.ItemsNamed →
          Takes (startTagItems bound grown) (((before.after spaces).after piece).after taken)
            (Completes element) := by
        intro grown taken nameEq kept namedThen
        have := ((before.after spaces).after piece).length_rest_after_le taken
        refine Takes.mono (ih grown mode namedThen (by omega)) fun tag piece completes => ?_
        exact ⟨completes.name.trans nameEq, kept.trans completes.attributes, completes.named,
          completes.closed⟩
      cases kind with
      | identifier name =>
          refine Takes.skip known (prepend ?_)
          refine Takes.bind (optionalValue_reads bound) fun _ taken _ _ => prepend ?_
          exact further _ taken rfl (List.prefix_append _ _)
            (named.addAttribute (isPlainName_of_next modeThen known))
      | punctuation mark =>
          cases mark with
          | greater =>
              obtain rfl : piece = ['>'] := spelled
              exact Takes.skip known
                (Takes.pure ⟨rfl, List.prefix_refl _, named, List.suffix_refl _⟩)
          | slash =>
              refine Takes.skip known (prepend ?_)
              apply Takes.discard expectMark_takes
              rintro _ _ - ⟨rfl, -⟩
              exact Takes.pure ⟨rfl, List.prefix_refl _,
                ⟨named.attributes, named.bindings, named.directives⟩, List.suffix_refl _⟩
          | leftBracket =>
              refine Takes.skip known (prepend ?_)
              refine Takes.bind (squareBinding_takes bound modeBehind)
                fun _ taken _ isName => prepend ?_
              exact further _ taken rfl (List.prefix_refl _) (named.addBinding isName)
          | leftParen =>
              refine Takes.skip known (prepend ?_)
              refine Takes.bind (roundBinding_takes bound modeBehind)
                fun _ taken _ isName => prepend ?_
              exact further _ taken rfl (List.prefix_refl _) (named.addBinding isName)
          | star =>
              refine Takes.skip known (prepend ?_)
              refine Takes.bind (expectIdentifier_takes_name modeBehind)
                fun _ word _ isName => prepend ?_
              refine Takes.bind (optionalValue_reads bound) fun _ taken _ _ => prepend ?_
              rw [State.after_after]
              exact further _ (word ++ taken) rfl (List.prefix_refl _)
                (named.addDirective isName.2)
          | _ => exact failUnexpected_fails.takes
      | _ => exact failUnexpected_fails.takes

theorem startTag_takes {bound : Nat} (mode : before.mode = .tag)
    (enough : before.rest.length < bound) :
    Takes (startTag bound) before fun tag piece =>
      (∃ items, piece = tag.name.toList ++ items ∧ ['>'] <:+ items) ∧
        (isVoid tag.name = true → tag.selfClosing = true) ∧ tag.IsNamed := by
  apply Takes.bind (expectIdentifier_takes_name mode)
  rintro ⟨name, position⟩ _ - ⟨rfl, isName⟩
  have enoughThen :=
    Nat.lt_of_le_of_lt (before.length_rest_after_le name.toList) enough
  have modeThen : (before.after name.toList).mode = .tag := mode
  apply Takes.bind (startTagItems_takes (.named name) modeThen (.ofName name) enoughThen)
  rintro element items - completes
  have isNameThen : IsPlainName element.name := completes.name.symm ▸ isName
  refine Takes.pure ⟨⟨items, ?_, completes.closed⟩, fun isVoid => by simp [isVoid],
    ⟨completes.named.attributes, completes.named.bindings, completes.named.directives⟩,
    isNameThen⟩
  rw [List.append_nil]
  exact congrArg (·.toList ++ items) completes.name.symm

theorem endTag_takes {bound : Nat} {first : List Char}
    (known : before.Next (.punctuation .slash) first) :
    Takes (endTag bound) before fun name piece =>
      ∃ early late, Text.IsSpaces early ∧ Text.IsSpaces late ∧
        piece = first ++ (early ++ (name.toList ++ (late ++ ['>']))) := by
  apply Takes.skip known
  apply Takes.bind (skipWhitespace_takes bound)
  intro _ early _ earlySpaces
  apply Takes.bind expectIdentifier_takes
  rintro ⟨name, position⟩ _ - rfl
  apply Takes.bind (skipWhitespace_takes bound)
  intro _ late _ lateSpaces
  apply Takes.discard expectMark_takes
  rintro _ _ - ⟨rfl, -⟩
  exact Takes.pure ⟨early, late, earlySpaces, lateSpaces, by rw [List.append_nil]; rfl⟩

theorem declarationParameters_takes {bound : Nat} (enough : before.rest.length < bound) :
    Takes (declarationParameters bound) before fun _ piece => ['>'] <:+ piece := by
  induction bound generalizing before with
  | zero => contradiction
  | succ bound ih =>
      have prepend : ∀ {action : Parser (List String)} {state : State} {taken : List Char},
          Takes action state (fun _ piece => ['>'] <:+ piece) →
          Takes action state fun _ piece => ['>'] <:+ taken ++ piece :=
        fun takes => takes.mono fun _ _ => List.suffix_append_of_suffix
      refine Takes.bind (skipWhitespace_takes bound) fun _ spaces _ _ => prepend ?_
      refine Takes.peekKind (fun kind piece known nonempty spelled => ?_)
        failExpected_fails.takes
      have shorter := Nat.lt_of_lt_of_le (State.length_rest_after_lt known.ahead nonempty)
        (before.length_rest_after_le spaces)
      have parameter : ∀ value : String, Takes (do
          skip
          return value :: (← declarationParameters bound)) (before.after spaces)
          fun _ piece => ['>'] <:+ piece := by
        intro value
        refine Takes.skip known (prepend ?_)
        refine Takes.bind (ih (by omega)) fun _ others _ closed => Takes.pure ?_
        rwa [List.append_nil]
      cases kind with
      | identifier name => exact parameter name
      | string value => exact parameter value
      | punctuation mark =>
          cases mark with
          | greater =>
              obtain rfl : piece = ['>'] := spelled
              exact Takes.skip known (Takes.pure (List.suffix_refl _))
          | _ => exact failUnexpected_fails.takes
      | _ => exact failUnexpected_fails.takes

end Tags

section Expressions

open Written

/-- A name in an expression is a variable, and no longer name stands there. -/
theorem exists_variableName_of_next {name : String} {piece : List Char}
    (mode : before.mode = .expression) (known : before.Next (.identifier name) piece)
    (spelled : piece = name.toList) :
    ∃ variableName : VariableName, variableName.text = name ∧
      Lex.Stops CharClass.isVariablePart (before.after piece).rest := by
  have scanned := known.scanned
  rw [mode] at scanned
  obtain ⟨isName, notBoolean, stops⟩ := Lex.isVariableName_of_scanExpression scanned
  refine ⟨⟨name, isName, notBoolean⟩, rfl, ?_⟩
  rwa [State.rest_after, spelled]

theorem expectIdentifier_takes_variable {what : String} :
    Takes (expectIdentifier what) before fun named piece => before.mode = .expression →
      ∃ name : VariableName, name.text = named.1 ∧ name.text.toList = piece ∧
        Lex.Stops CharClass.isVariablePart (before.after piece).rest := by
  refine Takes.peek (fun kind piece known _ spelled => ?_) failExpected_fails.takes
  cases kind with
  | identifier name =>
      refine Takes.skip known (Takes.pure fun mode => ?_)
      obtain ⟨variableName, rfl, stops⟩ := exists_variableName_of_next mode known spelled
      rw [List.append_nil]
      exact ⟨variableName, rfl, spelled.symm, stops⟩
  | _ => exact failExpected_fails.takes

/-- Between two names there is white space. -/
theorem ne_nil_of_names {spaces : List Char} (name : VariableName)
    (stops : Lex.Stops CharClass.isVariablePart before.rest)
    (ahead : name.text.toList <+: (before.after spaces).rest) : spaces ≠ [] := by
  rintro rfl
  obtain ⟨c, rest, textEq, start, -⟩ := name.isName
  obtain ⟨tail, restEq⟩ := ahead
  rw [State.rest_after, List.length_nil, List.drop_zero, textEq] at restEq
  have notPart := stops c (by rw [← restEq]; rfl)
  simp only [CharClass.isVariableStart, CharClass.isVariablePart, Char.isAlphanum,
    Bool.or_eq_true, Bool.or_eq_false_iff] at start notPart
  simp [notPart] at start

/-- The positions that a number stands for are segments, and it is spelled as they are. -/
theorem exists_segments_of_positions? {spelling : List Char} {positions : List String}
    (found : positions? spelling = some positions) :
    ∃ segments : List Segment, positions = segments.map Segment.text ∧
      segmentsSource segments = '.' :: spelling := by
  have each : ∀ pieces : List (List Char),
      (pieces.all fun piece => !piece.isEmpty && piece.all Char.isDigit) = true →
        ∃ segments : List Segment, pieces.map String.ofList = segments.map Segment.text ∧
          segmentsSource segments = pieces.flatMap ('.' :: ·) := by
    intro pieces
    induction pieces with
    | nil => exact fun _ => ⟨[], rfl, rfl⟩
    | cons piece pieces ih =>
        intro digits
        simp only [List.all_cons, Bool.and_eq_true, Bool.not_eq_true', List.isEmpty_eq_false_iff,
          List.all_eq_true] at digits
        obtain ⟨⟨nonempty, isDigits⟩, others⟩ := digits
        obtain ⟨segments, textsEq, sourceEq⟩ := ih (by simpa using others)
        have pieceEq : (String.ofList piece).toList = piece := String.toList_ofList
        let digits : Digits :=
          ⟨String.ofList piece, pieceEq.symm ▸ nonempty, pieceEq.symm ▸ isDigits⟩
        refine ⟨.position digits :: segments, congrArg (_ :: ·) textsEq, ?_⟩
        rw [segmentsSource] at sourceEq
        rw [segmentsSource, List.flatMap_cons, List.flatMap_cons, sourceEq,
          show (Segment.position digits).text.toList = piece from pieceEq]
  rw [positions?] at found
  split at found
  · next digits =>
      obtain ⟨segments, textsEq, sourceEq⟩ := each _ digits
      refine ⟨segments, (Option.some.inj found).symm.trans textsEq, ?_⟩
      rw [Text.pieces_eq_splitOn] at sourceEq
      obtain ⟨first, others, splitEq⟩ :=
        List.exists_cons_of_ne_nil (List.splitOn_ne_nil '.' spelling)
      have joined : ['.'].intercalate (spelling.splitOn '.') = spelling :=
        List.intercalate_splitOn '.'
      rw [splitEq, intercalate_eq] at joined
      rw [sourceEq, splitEq, List.flatMap_cons, ← joined]
      rfl
  · contradiction

/-- Behind a point stands a segment, or a number that is some positions. -/
theorem pathSegments_takes (bound : Nat) :
    Takes (pathSegments bound) before fun result piece => before.mode = .expression →
      ∃ segments : List Segment, segments.map Segment.text = result ∧
        segmentsSource segments = piece := by
  induction bound generalizing before with
  | zero => exact Takes.pure fun _ => ⟨[], rfl, rfl⟩
  | succ bound ih =>
      refine Takes.nextIs (fun kind point known spelled isDot => ?_)
        (Takes.pure fun _ => ⟨[], rfl, rfl⟩)
      obtain rfl : kind = .punctuation .dot := by simpa using isDot
      obtain rfl : point = ['.'] := spelled
      apply Takes.skip known
      refine Takes.peekKind (fun kind piece inner _ spelled => ?_) failExpected_fails.takes
      cases kind with
      | identifier name =>
          apply Takes.skip inner
          refine Takes.bind ih fun result others _ later => Takes.pure fun mode => ?_
          obtain ⟨variableName, rfl, -⟩ := exists_variableName_of_next (by exact mode) inner spelled
          obtain ⟨segments, rfl, rfl⟩ := later mode
          refine ⟨.property variableName :: segments, rfl, ?_⟩
          rw [List.append_nil, show piece = _ from spelled]
          rfl
      | number value =>
          apply Meets.bind_runs (nextSpelling_runs inner)
          dsimp only
          split
          · next positions positionsEq =>
              obtain ⟨early, rfl, earlyEq⟩ := exists_segments_of_positions? positionsEq
              apply Takes.skip inner
              refine Takes.bind ih fun result others _ later => Takes.pure fun mode => ?_
              obtain ⟨segments, rfl, rfl⟩ := later mode
              refine ⟨early ++ segments, List.map_append, ?_⟩
              rw [segmentsSource] at earlyEq
              rw [List.append_nil, segmentsSource, List.flatMap_append, earlyEq]
              rfl
          · exact failExpected_fails.takes
      | _ => exact failExpected_fails.takes

theorem path_takes (bound : Nat) :
    Takes (path bound) before fun path piece => before.mode = .expression →
      ∃ dotted : Dotted, dotted.path = path ∧ dotted.source = piece := by
  refine Takes.bind expectIdentifier_takes_variable fun root _ _ first => ?_
  refine Takes.bind (pathSegments_takes bound) fun rest _ _ later => Takes.pure fun mode => ?_
  obtain ⟨root, rootEq, rfl, -⟩ := first mode
  obtain ⟨segments, rfl, rfl⟩ := later mode
  refine ⟨⟨root, segments⟩, by rw [Dotted.path, rootEq], ?_⟩
  rw [List.append_nil, Dotted.source_eq]

theorem path_reads (bound : Nat) : Reads (path bound) before :=
  (path_takes bound).mono fun _ _ _ => trivial

theorem expression_takes (bound : Nat) :
    Takes (expression bound) before fun value piece => before.mode = .expression →
      ∀ path, value = .path path →
        ∃ dotted : Dotted, dotted.path = path ∧ dotted.source = piece := by
  refine Takes.peekKind (fun kind piece known _ _ => ?_) failExpected_fails.takes
  cases kind with
  | identifier name =>
      refine Takes.bind (path_takes bound) fun path _ _ takes => Takes.pure fun mode => ?_
      rintro _ ⟨⟩
      rw [List.append_nil]
      exact takes mode
  | string value | templateLiteral value | number value | boolean value =>
      exact Takes.skip known (Takes.pure fun _ => nofun)
  | _ => exact failExpected_fails.takes

theorem expression_reads (bound : Nat) : Reads (expression bound) before :=
  (expression_takes bound).mono fun _ _ _ => trivial

/-- The header of a loop is taken as it is written. -/
theorem loopHeader_takes (bound : Nat) :
    Takes (loopHeader bound) before fun loop piece => loop.index = Loop.indexName ∧
      (before.mode = .expression →
        ∃ header : Header, header.loop = loop ∧ header.rest = piece) := by
  refine Takes.bind (skipWhitespace_takes bound) fun _ behindKeyword _ keywordSpaces => ?_
  apply Takes.discard expectMark_takes
  rintro _ _ - ⟨rfl, -⟩
  refine Takes.bind (skipWhitespace_takes bound) fun _ behindOpening _ openingSpaces => ?_
  refine Takes.bind expectIdentifier_takes_variable fun item _ _ takesItem => ?_
  refine Takes.bind (skipWhitespace_takes bound) fun _ behindItem _ itemSpaces => ?_
  refine Takes.bind expectIdentifier_takes_variable fun preposition _ prepositionAhead
    takesPreposition => ?_
  refine Takes.bind (skipWhitespace_takes bound) fun _ behindPreposition _ prepositionSpaces => ?_
  refine Takes.bind (path_takes bound) fun path _ pathAhead takesPath => ?_
  refine Takes.bind (skipWhitespace_takes bound) fun _ behindCollection _ collectionSpaces => ?_
  apply Takes.discard expectMark_takes
  rintro _ _ - ⟨rfl, -⟩
  refine Takes.bind (skipWhitespace_takes bound) fun _ behindClosing _ closingSpaces => ?_
  refine Takes.pure ⟨rfl, fun mode => ?_⟩
  obtain ⟨item, itemEq, rfl, itemStops⟩ := takesItem mode
  obtain ⟨preposition, prepositionEq, rfl, prepositionStops⟩ := takesPreposition mode
  obtain ⟨collection, rfl, rfl⟩ := takesPath mode
  have itemGap : behindItem ≠ [] := ne_nil_of_names preposition itemStops prepositionAhead
  have prepositionGap : behindPreposition ≠ [] := by
    rw [collection.source_eq] at pathAhead
    exact ne_nil_of_names collection.root prepositionStops
      ((List.prefix_append _ _).trans pathAhead)
  refine ⟨⟨⟨[], Text.isSpaces_nil⟩, ⟨behindKeyword, keywordSpaces⟩,
    ⟨behindOpening, openingSpaces⟩, item, ⟨behindItem, itemGap, itemSpaces⟩, preposition,
    ⟨behindPreposition, prepositionGap, prepositionSpaces⟩, collection,
    ⟨behindCollection, collectionSpaces⟩, ⟨behindClosing, closingSpaces⟩⟩, ?_, ?_⟩
  · rw [Header.loop, itemEq, prepositionEq]
  · rw [List.append_nil]
    rfl

theorem loopHeader_reads (bound : Nat) : Reads (loopHeader bound) before :=
  (loopHeader_takes bound).mono fun _ _ _ => trivial

end Expressions

end Parser

end TemplateCompiler
