import TemplateCompiler.Proofs.Parse.Discipline

/-!
# Tokens held between productions

Every production is followed with the rules for tokens that are held.  None
holds a token when it changes the mode, and one that succeeds leaves the modes
as it found them.  Productions that repeat have to be given a bound that exceeds
the number of characters left, for one that stopped in the middle would leave
the mode of it in force.
-/

namespace TemplateCompiler

namespace Parser

open Parse State

variable {α β : Type} {modes : List LexMode} {left bound : Nat}

section Productions

/-- An action stays in the modes it is run in. -/
def Quiet (action : Parser α) : Prop :=
  ∀ modes left, Keeps action (Stands modes left 1) fun _ => Stands modes left 1

/-- An action stays in the modes it is run in and leaves no token held. -/
def Clears (action : Parser α) : Prop :=
  ∀ modes left, Keeps action (Stands modes left 1) fun _ => Stands modes left 0

theorem Keeps.resume {action : Parser α} {post : α → State → Prop}
    (keeps : Keeps action (Stands modes left 1) post) : Keeps action (Stands modes left 0) post :=
  keeps.weaken fun _ stands => stands.mono (Nat.le_refl _)

theorem Quiet.further {action : Parser α} {next : α → Parser β} {post : β → State → Prop}
    (quiet : Quiet action) (keeps : ∀ result, Keeps (next result) (Stands modes left 1) post) :
    Keeps (action >>= next) (Stands modes left 1) post :=
  (quiet modes left).bind keeps

theorem Clears.further {action : Parser α} {next : α → Parser β} {post : β → State → Prop}
    (clears : Clears action) (keeps : ∀ result, Keeps (next result) (Stands modes left 0) post) :
    Keeps (action >>= next) (Stands modes left 1) post :=
  (clears modes left).bind keeps

theorem Clears.quiet {action : Parser α} (clears : Clears action) : Quiet action :=
  fun modes left => (clears modes left).strengthen fun _ _ stands => stands.mono (Nat.le_refl _)

theorem Clears.discard {action : Parser α} (clears : Clears action) :
    Clears (Functor.discard action) :=
  fun modes left => (clears modes left).discard

theorem Keeps.failAtBind {cause : Cause} {position : Position} {held : Nat} {next : α → Parser β}
    {post : β → State → Prop} (canOccur : Error.CanOccur (.grammatical cause position)) :
    Keeps (failAt cause position >>= next) (Stands modes left held) post :=
  fun _ stands => ⟨stands.ledger, canOccur⟩

/-- Taking the token that was looked at, and going on. -/
theorem Keeps.skip {token? : Option Token} {next : Unit → Parser β} {post : β → State → Prop}
    (keeps : Keeps (next ()) (Stands modes left 0) post) :
    Keeps (Parser.skip >>= next)
      (fun state => state.Stands modes left 1 ∧ state.Faces token?) post :=
  skip_keeps.looked.bind fun _ => keeps

theorem Keeps.failExpected {what : String} {token? : Option Token} {post : α → State → Prop} :
    Keeps (failExpected what : Parser α)
      (fun state => state.Stands modes left 1 ∧ state.Faces token?) post :=
  failExpected_keeps.looked

theorem Keeps.failUnexpected {place : Place} {token? : Option Token} {post : α → State → Prop}
    (canOccur : ∀ found position,
      Error.CanOccur (.grammatical (.unexpected found place) position)) :
    Keeps (failUnexpected place : Parser α)
      (fun state => state.Stands modes left 1 ∧ state.Faces token?) post :=
  (failNext_keeps (.unexpected · place) canOccur).looked

theorem skipWhile_quiet (accepts : TokenKind → Bool) (bound : Nat) :
    Quiet (skipWhile accepts bound) := by
  intro modes left
  induction bound with
  | zero => exact Keeps.pure fun _ => id
  | succ bound ih =>
      rw [skipWhile, nextIs_bind]
      refine Keeps.peek fun token? => ?_
      split
      · exact Keeps.skip ih.resume
      · exact Keeps.pure fun _ => And.left

theorem skipWhitespace_quiet (bound : Nat) : Quiet (skipWhitespace bound) :=
  skipWhile_quiet _ bound

theorem expect_clears (what : String) (accepts : TokenKind → Bool) :
    Clears (expect what accepts) := by
  intro modes left
  refine Keeps.peek fun token? => ?_
  cases token? with
  | none => exact Keeps.failExpected
  | some token =>
      dsimp only
      split
      · exact Keeps.skip (Keeps.pure fun _ => id)
      · exact Keeps.failExpected

theorem expectMark_clears (what : String) (mark : Punctuation) : Clears (expectMark what mark) :=
  expect_clears _ _

theorem expectIdentifier_clears (what : String) : Clears (expectIdentifier what) := by
  intro modes left
  refine Keeps.peek fun token? => ?_
  split
  · exact Keeps.skip (Keeps.pure fun _ => id)
  · exact Keeps.failExpected

theorem stringValue_clears (bound : Nat) : Clears (stringValue bound) := by
  intro modes left
  apply (skipWhitespace_quiet bound).further
  intro _
  refine Keeps.peekKind fun token? => ?_
  split
  · exact Keeps.skip (Keeps.pure fun _ => id)
  · exact (failNext_keeps .valueNotString fun _ _ => trivial).looked

theorem optionalValue_quiet (bound : Nat) : Quiet (optionalValue bound) := by
  intro modes left
  apply (skipWhitespace_quiet bound).further
  intro _
  rw [nextIs_bind]
  refine Keeps.peek fun token? => ?_
  split
  · apply Keeps.skip
    apply Keeps.resume
    exact (stringValue_clears bound).quiet.further fun _ => Keeps.pure fun _ => id
  · exact Keeps.pure fun _ => And.left

theorem bindingValue_clears (bound : Nat) (name : String) (direction : BindingDirection) :
    Clears (bindingValue bound name direction) := by
  intro modes left
  apply (skipWhitespace_quiet bound).further
  intro _
  apply (expectMark_clears _ _).discard.quiet.further
  intro _
  exact (stringValue_clears bound).further fun _ => Keeps.pure fun _ => id

theorem squareBinding_clears (bound : Nat) : Clears (squareBinding bound) := by
  intro modes left
  rw [squareBinding, nextIs_bind]
  refine Keeps.peek fun token? => ?_
  split
  · apply Keeps.skip
    apply Keeps.resume
    apply (expectIdentifier_clears _).quiet.further
    intro _
    apply (expectMark_clears _ _).discard.quiet.further
    intro _
    apply (expectMark_clears _ _).discard.quiet.further
    intro _
    exact bindingValue_clears _ _ _ _ _
  · apply Keeps.looked
    apply (expectIdentifier_clears _).quiet.further
    intro _
    apply (expectMark_clears _ _).discard.quiet.further
    intro _
    exact bindingValue_clears _ _ _ _ _

theorem roundBinding_clears (bound : Nat) : Clears (roundBinding bound) := by
  intro modes left
  apply (expectIdentifier_clears _).quiet.further
  intro _
  apply (expectMark_clears _ _).discard.quiet.further
  intro _
  exact bindingValue_clears _ _ _ _ _

/-- Taking the token that was looked at, which leaves less to read. -/
theorem Keeps.skipFacing {token : Token} {next : Unit → Parser β} {post : β → State → Prop}
    (keeps : ∀ fewer, fewer < left → Keeps (next ()) (Stands modes fewer 0) post) :
    Keeps (Parser.skip >>= next)
      (fun state => state.Stands modes left 1 ∧ state.Faces (some token)) post :=
  (skip_facing token).bind fun _ => Keeps.ofFewer keeps

/-- The items of a start tag are read up to its end when the bound suffices. -/
theorem startTagItems_keeps (element : Element) (enough : left < bound) :
    Keeps (startTagItems bound element) (Stands modes left 1) fun _ => Stands modes left 0 := by
  induction bound generalizing left element with
  | zero => contradiction
  | succ bound ih =>
      have further {fewer : Nat} (less : fewer < left) (longer : Element) :
          Keeps (startTagItems bound longer) (Stands modes fewer 1)
            fun _ => Stands modes left 0 :=
        (ih longer (by omega)).strengthen fun _ _ stands =>
          { stands with restLe := stands.restLe.trans (Nat.le_of_lt less) }
      apply (skipWhitespace_quiet bound).further
      intro _
      refine Keeps.peekKind fun token? => ?_
      cases token? with
      | none => exact Keeps.failExpected
      | some token =>
          obtain ⟨kind, position⟩ := token
          cases kind with
          | identifier name =>
              apply Keeps.skipFacing
              intro fewer less
              apply Keeps.resume
              exact (optionalValue_quiet bound).further fun value => further less _
          | punctuation mark =>
              cases mark with
              | greater => exact Keeps.skip (Keeps.pure fun _ => id)
              | slash =>
                  apply Keeps.skip
                  apply Keeps.resume
                  exact (expectMark_clears _ _).discard.further fun _ => Keeps.pure fun _ => id
              | leftBracket =>
                  apply Keeps.skipFacing
                  intro fewer less
                  apply Keeps.resume
                  exact (squareBinding_clears bound).quiet.further fun binding => further less _
              | leftParen =>
                  apply Keeps.skipFacing
                  intro fewer less
                  apply Keeps.resume
                  exact (roundBinding_clears bound).quiet.further fun binding => further less _
              | star =>
                  apply Keeps.skipFacing
                  intro fewer less
                  apply Keeps.resume
                  apply (expectIdentifier_clears _).quiet.further
                  intro named
                  exact (optionalValue_quiet bound).further fun value => further less _
              | _ => exact Keeps.failUnexpected fun _ _ => trivial
          | _ => exact Keeps.failUnexpected fun _ _ => trivial

theorem startTag_keeps (enough : left < bound) :
    Keeps (startTag bound) (Stands modes left 1) fun _ => Stands modes left 0 := by
  apply (expectIdentifier_clears _).quiet.further
  intro named
  exact (startTagItems_keeps _ enough).bind fun _ => Keeps.pure fun _ => id

theorem endTag_keeps (bound : Nat) : Clears (endTag bound) := by
  intro modes left
  refine skip_keeps.bind fun _ => Keeps.resume ?_
  apply (skipWhitespace_quiet bound).further
  intro _
  apply (expectIdentifier_clears _).quiet.further
  intro named
  apply (skipWhitespace_quiet bound).further
  intro _
  exact (expectMark_clears _ _).discard.further fun _ => Keeps.pure fun _ => id

theorem declarationParameters_keeps (enough : left < bound) :
    Keeps (declarationParameters bound) (Stands modes left 1) fun _ => Stands modes left 0 := by
  induction bound generalizing left with
  | zero => contradiction
  | succ bound ih =>
      have further {fewer : Nat} (less : fewer < left) (parameter : String) :
          Keeps (do return parameter :: (← declarationParameters bound)) (Stands modes fewer 1)
            fun _ => Stands modes left 0 := by
        refine (ih (by omega)).bind fun _ => Keeps.pure fun _ stands => ?_
        exact { stands with restLe := stands.restLe.trans (Nat.le_of_lt less) }
      apply (skipWhitespace_quiet bound).further
      intro _
      refine Keeps.peekKind fun token? => ?_
      cases token? with
      | none => exact Keeps.failExpected
      | some token =>
          obtain ⟨kind, position⟩ := token
          cases kind with
          | identifier name | string name =>
              apply Keeps.skipFacing
              exact fun fewer less => (further less _).resume
          | punctuation mark =>
              cases mark with
              | greater => exact Keeps.skip (Keeps.pure fun _ => id)
              | _ => exact Keeps.failUnexpected fun _ _ => trivial
          | _ => exact Keeps.failUnexpected fun _ _ => trivial

theorem nextSpelling_quiet : Quiet nextSpelling := by
  intro modes left
  refine Keeps.peek fun token? => ?_
  cases token? with
  | none => exact Keeps.pure fun _ => And.left
  | some token =>
      exact here_keeps.looked.bind fun _ => Keeps.pure fun _ => id

theorem pathSegments_quiet (bound : Nat) : Quiet (pathSegments bound) := by
  intro modes left
  induction bound with
  | zero => exact Keeps.pure fun _ => id
  | succ bound ih =>
      rw [pathSegments, nextIs_bind]
      refine Keeps.peek fun token? => ?_
      split
      · apply Keeps.skip
        apply Keeps.resume
        refine Keeps.peekKind fun token? => ?_
        split
        · apply Keeps.skip
          exact ih.resume.bind fun _ => Keeps.pure fun _ => id
        · refine (nextSpelling_quiet _ _).looked.bind fun spelling => ?_
          split
          · refine skip_keeps.bind fun _ => ?_
            exact ih.resume.bind fun _ => Keeps.pure fun _ => id
          · exact failExpected_keeps
        · exact Keeps.failExpected
      · exact Keeps.pure fun _ => And.left

theorem path_quiet (bound : Nat) : Quiet (path bound) := by
  intro modes left
  apply (expectIdentifier_clears _).quiet.further
  intro named
  apply (pathSegments_quiet bound).further
  intro properties
  exact Keeps.pure fun _ => id

theorem expression_quiet (bound : Nat) : Quiet (expression bound) := by
  intro modes left
  refine Keeps.peekKind fun token? => ?_
  split
  · refine (path_quiet bound _ _).looked.bind fun _ => ?_
    exact Keeps.pure fun _ => id
  all_goals first
    | exact Keeps.failExpected
    | exact Keeps.skip (Keeps.pure fun _ stands => stands.mono (Nat.le_refl _))

theorem loopHeader_quiet (bound : Nat) : Quiet (loopHeader bound) := by
  intro modes left
  apply (skipWhitespace_quiet bound).further
  intro _
  apply (expectMark_clears _ _).discard.quiet.further
  intro _
  apply (skipWhitespace_quiet bound).further
  intro _
  apply (expectIdentifier_clears _).quiet.further
  intro item
  apply (skipWhitespace_quiet bound).further
  intro _
  apply (expectIdentifier_clears _).quiet.further
  intro preposition
  apply (skipWhitespace_quiet bound).further
  intro _
  apply (path_quiet bound).further
  intro collection
  apply (skipWhitespace_quiet bound).further
  intro _
  apply (expectMark_clears _ _).discard.quiet.further
  intro _
  exact (skipWhitespace_quiet bound).further fun _ => Keeps.pure fun _ => id

end Productions

section Excursions

/-- Looking again at the token that was looked at changes nothing. -/
theorem Keeps.peekFacing {token : Token} {next : Option Token → Parser β}
    {post : β → State → Prop}
    (keeps : Keeps (next (some token))
      (fun state => state.Stands modes left 1 ∧ state.Faces (some token)) post) :
    Keeps (Parser.peek >>= next)
      (fun state => state.Stands modes left 1 ∧ state.Faces (some token)) post := by
  rintro state ⟨stands, faces⟩
  obtain ⟨scanned, held, tokenEq, -⟩ := faces.scannedAt stands.ready
  have looked : Parser.peek state = .ok (some token) state := by
    simp only [Parser.peek, lexing, Lexer.peek_of_held held, tokenEq]
  rw [run_bind, looked]
  exact keeps state ⟨stands, faces⟩

theorem Keeps.nextPositionFacing {token : Token} {next : Position → Parser β}
    {post : β → State → Prop}
    (keeps : Keeps (next token.position)
      (fun state => state.Stands modes left 1 ∧ state.Faces (some token)) post) :
    Keeps (nextPosition >>= next)
      (fun state => state.Stands modes left 1 ∧ state.Faces (some token)) post := by
  rw [nextPosition, bind_assoc]
  apply Keeps.peekFacing
  rw [pure_bind]
  exact keeps

/-- A production in a mode of its own enters it behind its first token, when no
token is held. -/
theorem Keeps.enter {token : Token} {mode : LexMode} {next : Position → Parser β}
    {post : β → State → Prop} (notMatter : mode ≠ .frontMatter)
    (keeps : ∀ start fewer, fewer < left →
      Keeps (next start) (Stands (mode :: modes) fewer 1) post) :
    Keeps (do
      let start ← nextPosition
      Parser.skip
      Parser.pushMode mode
      next start) (fun state => state.Stands modes left 1 ∧ state.Faces (some token)) post := by
  apply Keeps.nextPositionFacing
  apply Keeps.skipFacing
  intro fewer less
  refine (pushMode_keeps notMatter).bind fun _ => ?_
  exact (keeps _ fewer less).resume

/-- A production in a mode of its own leaves it when no token is held. -/
theorem Keeps.leave {mode : LexMode} {start : Position} {next : Position → Parser β}
    {post : β → State → Prop}
    (keeps : ∀ position, Keeps (next position) (Stands modes left 0) post) :
    Keeps (do
      Parser.popMode
      let position ← spanningFrom start
      next position) (Stands (mode :: modes) left 0) post :=
  popMode_keeps.bind fun _ => (spanningFrom_keeps start).bind keeps

theorem interpolation_keeps (bound : Nat) (token : Token) :
    Keeps (interpolation bound)
      (fun state => state.Stands modes left 1 ∧ state.Faces (some token))
      fun _ state => ∃ fewer, fewer < left ∧ state.Stands modes fewer 0 := by
  apply Keeps.enter (by decide)
  intro start fewer less
  apply (skipWhitespace_quiet bound).further
  intro _
  apply (expression_quiet bound).further
  intro value
  apply (skipWhitespace_quiet bound).further
  intro _
  apply (expect_clears _ _).discard.further
  intro _
  apply Keeps.leave
  intro position
  exact (modify_keeps (State.addLeaf_lexerFree _ _)).strengthen
    fun _ _ stands => ⟨fewer, less, stands⟩

end Excursions

section Content

/-- The kinds of tokens that a script consists of. -/
def IsOfScript : TokenKind → Prop
  | .scriptCode _ | .scriptEnd | .interpolationStart | .interpolationEnd => True
  | _ => False

theorem isOfScript_of_scan {text : List Char} {lexeme : Lex.Lexeme}
    (scanned : Lex.scanScript text = .ok (some lexeme)) : IsOfScript lexeme.kind := by
  unfold Lex.scanScript at scanned
  split at scanned
  · obtain rfl := Option.some.inj (Except.ok.inj scanned)
    trivial
  · split at scanned
    · obtain rfl := Option.some.inj (Except.ok.inj scanned)
      trivial
    · split at scanned
      · obtain rfl := Option.some.inj (Except.ok.inj scanned)
        trivial
      · split at scanned
        · simp at scanned
        · obtain rfl := Option.some.inj (Except.ok.inj scanned)
          trivial

/-- No other token is ever faced in a script. -/
theorem Keeps.ofScript {token : Token} {action : Parser α} {post : α → State → Prop}
    (impossible : ¬IsOfScript token.kind) :
    Keeps action
      (fun state => state.Stands (.script :: modes) left 1 ∧ state.Faces (some token)) post := by
  rintro state ⟨stands, faces⟩
  obtain ⟨length, scanned⟩ := faces.scanIn stands.ready
  rw [stands.mode_eq] at scanned
  exact (impossible (isOfScript_of_scan scanned)).elim

theorem failUnclosedElement_keeps {held : Nat} {post : α → State → Prop} :
    Keeps (failUnclosedElement : Parser α) (Stands modes left held) post := by
  refine Keeps.get fun state => ?_
  split
  · exact failAt_keeps trivial
  · exact failAt_keeps trivial

theorem scriptContent_keeps (enough : left < bound) :
    Keeps (scriptContent bound) (Stands (.script :: modes) left 1)
      fun _ => Stands modes left 0 := by
  induction bound generalizing left with
  | zero => contradiction
  | succ bound ih =>
      have further {fewer held : Nat} (less : fewer < left) (few : held ≤ 1) :
          Keeps (scriptContent bound) (Stands (.script :: modes) fewer held)
            fun _ => Stands modes left 0 :=
        (ih (by omega)).mono (fun _ stands => { stands with heldLe := stands.heldLe.trans few })
          fun _ _ stands => { stands with restLe := stands.restLe.trans (Nat.le_of_lt less) }
      refine Keeps.peek fun token? => ?_
      cases token? with
      | none => exact failUnclosedElement_keeps.looked
      | some token =>
          obtain ⟨kind, position⟩ := token
          cases kind with
          | scriptCode code =>
              apply Keeps.skipFacing
              intro fewer less
              refine (modify_keeps (State.addCode_lexerFree _ _)).bind fun _ => ?_
              exact further less (Nat.zero_le 1)
          | interpolationEnd =>
              apply Keeps.skipFacing
              intro fewer less
              refine (modify_keeps (State.addCode_lexerFree _ _)).bind fun _ => ?_
              exact further less (Nat.zero_le 1)
          | interpolationStart =>
              refine (interpolation_keeps bound _).bind fun _ => Keeps.ofFewer ?_
              exact fun fewer less => further less (Nat.zero_le 1)
          | scriptEnd =>
              apply Keeps.skip
              refine popMode_keeps.bind fun _ => ?_
              exact modify_keeps State.closeNode_lexerFree
          | _ => exact Keeps.ofScript id

theorem skipStyle_quiet (bound : Nat) : Quiet (skipStyle bound) := by
  intro modes left
  induction bound with
  | zero => exact Keeps.pure fun _ => id
  | succ bound ih =>
      refine Keeps.peekKind fun token? => ?_
      split
      · exact Keeps.pure fun _ => And.left
      · exact Keeps.skip ih.resume
      · exact failUnclosedElement_keeps.looked

theorem styleContent_keeps (bound : Nat) :
    Keeps (styleContent bound) (Stands (.style :: modes) left 1) fun _ => Stands modes left 0 := by
  have ended : Keeps (do skip; popMode; modify (·.closeNode)) (Stands (.style :: modes) left 1)
      fun _ => Stands modes left 0 :=
    skip_keeps.bind fun _ => popMode_keeps.bind fun _ => modify_keeps State.closeNode_lexerFree
  refine here_keeps.bind fun start => ?_
  apply (skipStyle_quiet bound).further
  intro _
  refine here_keeps.bind fun stop => ?_
  dsimp only
  split
  · refine (spanningFrom_keeps _).bind fun position => ?_
    exact (modify_keeps (State.addLeaf_lexerFree _ _)).bind fun _ => ended
  · exact ended

end Content

section Tags

theorem element_keeps (start : Position) (enough : left < bound) :
    Keeps (element bound start) (Stands (.tag :: modes) left 1) fun _ => Stands modes left 0 := by
  refine (startTag_keeps enough).bind fun tag => ?_
  apply Keeps.leave
  intro position
  split
  · exact modify_keeps (State.addLeaf_lexerFree _ _)
  · refine (modify_keeps (State.openNode_lexerFree _ _)).bind fun _ => ?_
    split
    · exact (pushMode_keeps (by decide)).bind fun _ => (scriptContent_keeps enough).resume
    · split
      · exact (pushMode_keeps (by decide)).bind fun _ => (styleContent_keeps bound).resume
      · exact Keeps.pure fun _ => id

theorem elementEnd_keeps (bound : Nat) (start : Position) :
    Keeps (elementEnd bound start) (Stands (.tag :: modes) left 1)
      fun _ => Stands modes left 0 := by
  apply (endTag_keeps bound).further
  intro name
  apply Keeps.leave
  intro position
  refine Keeps.get fun state => ?_
  split
  · split
    · exact modify_keeps State.closeNode_lexerFree
    · exact failAt_keeps trivial
  · exact failAt_keeps trivial

theorem declaration_keeps (start : Position) (enough : left < bound) :
    Keeps (declaration bound start) (Stands (.tag :: modes) left 1)
      fun _ => Stands modes left 0 := by
  refine Keeps.get fun state => ?_
  dsimp only
  split
  · exact Keeps.failAtBind trivial
  · refine skip_keeps.bind fun _ => ?_
    apply Keeps.resume
    apply (expectIdentifier_clears _).quiet.further
    intro named
    refine (declarationParameters_keeps enough).bind fun parameters => ?_
    apply Keeps.leave
    exact fun position => modify_keeps (State.declare_lexerFree _)

theorem tag_keeps (token : Token) (enough : left ≤ bound) :
    Keeps (tag bound) (fun state => state.Stands modes left 1 ∧ state.Faces (some token))
      fun _ state => ∃ fewer, fewer < left ∧ state.Stands modes fewer 0 := by
  apply Keeps.enter (by decide)
  intro start fewer less
  have shrinks {action : Parser Unit} (keeps : Keeps action (Stands (.tag :: modes) fewer 1)
      fun _ => Stands modes fewer 0) (token? : Option Token) :
      Keeps action (fun state => state.Stands (.tag :: modes) fewer 1 ∧ state.Faces token?)
        fun _ state => ∃ fewer, fewer < left ∧ state.Stands modes fewer 0 :=
    keeps.mono (fun _ => And.left) fun _ _ stands => ⟨fewer, less, stands⟩
  refine Keeps.peekKind fun token? => ?_
  split
  · exact shrinks (elementEnd_keeps bound start) _
  · exact shrinks (declaration_keeps start (by omega)) _
  · exact shrinks (element_keeps start (by omega)) _
  · exact Keeps.failExpected

end Tags

section Markup

/-- The kinds of tokens that a construct of markup begins with. -/
def IsOfMarkup : TokenKind → Prop
  | .whitespace _ | .text _ | .entity _ | .comment _ | .interpolationStart => True
  | .punctuation mark => mark ∈ [.greater, .less, .at, .leftBrace, .rightBrace]
  | _ => False

theorem isOfMarkup_of_scan {text : List Char} {lexeme : Lex.Lexeme}
    (scanned : Lex.scanMarkup text = .ok (some lexeme)) : IsOfMarkup lexeme.kind := by
  have found {kind : TokenKind} {length : Nat} (isOf : IsOfMarkup kind)
      (same : Lex.Scan.found kind length = .ok (some lexeme)) : IsOfMarkup lexeme.kind := by
    obtain rfl := Option.some.inj (Except.ok.inj same)
    exact isOf
  unfold Lex.scanMarkup at scanned
  split at scanned
  · simp at scanned
  · unfold Lex.scanMarkupComment at scanned
    split at scanned
    · exact found (by trivial) scanned
    · contradiction
  · exact found (by trivial) scanned
  · unfold Lex.scanEntity at scanned
    simp only at scanned
    split at scanned
    · split at scanned
      · contradiction
      · exact found (by trivial) scanned
    · contradiction
  · exact found (by simp [IsOfMarkup]) scanned
  · exact found (by simp [IsOfMarkup]) scanned
  · exact found (by simp [IsOfMarkup]) scanned
  · exact found (by simp [IsOfMarkup]) scanned
  · exact found (by simp [IsOfMarkup]) scanned
  · split at scanned
    · exact found (by trivial) scanned
    · exact found (by trivial) scanned

/-- No other token is ever faced between constructs. -/
theorem Keeps.ofMarkup {token : Token} {action : Parser α} {post : α → State → Prop}
    (impossible : ¬IsOfMarkup token.kind) :
    Keeps action (fun state => state.Stands [] left 1 ∧ state.Faces (some token)) post := by
  rintro state ⟨stands, faces⟩
  obtain ⟨length, scanned⟩ := faces.scanIn stands.ready
  have modeEq : state.lexer.mode = .markup := congrArg (·.headD .markup) stands.modesEq
  rw [modeEq] at scanned
  exact (impossible (isOfMarkup_of_scan scanned)).elim

theorem textRun_quiet (bound : Nat) : Quiet (textRun bound) := by
  intro modes left
  refine here_keeps.bind fun start => ?_
  apply (skipWhile_quiet _ bound).further
  intro _
  refine here_keeps.bind fun stop => ?_
  exact (spanningFrom_keeps _).bind fun position => modify_keeps (State.addLeaf_lexerFree _ _)

theorem textRun_keeps {token : Token} (textual : isTextual token.kind = true)
    (enough : left ≤ bound) :
    Keeps (textRun bound) (fun state => state.Stands modes left 1 ∧ state.Faces (some token))
      fun _ state => ∃ fewer, fewer < left ∧ state.Stands modes fewer 1 := by
  have skips : Keeps (skipWhile isTextual bound)
      (fun state => state.Stands modes left 1 ∧ state.Faces (some token))
      fun _ state => ∃ fewer, fewer < left ∧ state.Stands modes fewer 1 := by
    refine Keeps.assume fun state ⟨stands, faces⟩ => ?_
    obtain ⟨scanned, -, -, scannedAt⟩ := faces.scannedAt stands.ready
    have shorter := Lexer.shorter_of_scannedAt stands.ready.mode_ne scannedAt
    have someLeft := stands.restLe
    obtain ⟨bound, rfl⟩ : ∃ fewer, bound = fewer + 1 := ⟨bound - 1, by omega⟩
    rw [skipWhile, nextIs_bind]
    apply Keeps.peekFacing
    simp only [Option.map_some, Option.any_some, textual, if_true]
    apply Keeps.skipFacing
    intro fewer less
    exact (skipWhile_quiet _ _ _ _).resume.strengthen fun _ _ stands => ⟨fewer, less, stands⟩
  refine Keeps.get fun known => ?_
  refine skips.bind fun _ => Keeps.ofFewer fun fewer less => ?_
  refine here_keeps.bind fun stop => ?_
  refine (spanningFrom_keeps _).bind fun position => ?_
  exact (modify_keeps (State.addLeaf_lexerFree _ _)).strengthen
    fun _ _ stands => ⟨fewer, less, stands⟩

theorem comment_keeps (content : String) (token : Token) :
    Keeps (comment content token.position)
      (fun state => state.Stands modes left 1 ∧ state.Faces (some token))
      fun _ state => ∃ fewer, fewer < left ∧ state.Stands modes fewer 0 := by
  apply Keeps.skipFacing
  intro fewer less
  exact (modify_keeps (State.addLeaf_lexerFree _ _)).strengthen
    fun _ _ stands => ⟨fewer, less, stands⟩

theorem statement_keeps (bound : Nat) (token : Token) :
    Keeps (statement bound) (fun state => state.Stands modes left 1 ∧ state.Faces (some token))
      fun _ state => ∃ fewer, fewer < left ∧ state.Stands modes fewer 0 := by
  apply Keeps.enter (by decide)
  intro start fewer less
  apply (skipWhitespace_quiet bound).further
  intro _
  apply (expectIdentifier_clears _).quiet.further
  rintro ⟨keyword, place⟩
  dsimp only
  split
  · exact Keeps.failAtBind trivial
  · apply (loopHeader_quiet bound).further
    intro header
    apply (expectMark_clears _ _).further
    intro brace
    apply Keeps.leave
    intro position
    refine (modify_keeps (State.openNode_lexerFree _ _)).bind fun _ => ?_
    exact (modify_keeps (State.openNode_lexerFree _ _)).strengthen
      fun _ _ stands => ⟨fewer, less, stands⟩

theorem blockStart_keeps (token : Token) :
    Keeps blockStart (fun state => state.Stands modes left 1 ∧ state.Faces (some token))
      fun _ state => ∃ fewer, fewer < left ∧ state.Stands modes fewer 0 := by
  apply Keeps.nextPositionFacing
  apply Keeps.skipFacing
  intro fewer less
  exact (modify_keeps (State.openNode_lexerFree _ _)).strengthen
    fun _ _ stands => ⟨fewer, less, stands⟩

theorem blockEnd_keeps (token : Token) :
    Keeps blockEnd (fun state => state.Stands modes left 1 ∧ state.Faces (some token))
      fun _ state => ∃ fewer, fewer < left ∧ state.Stands modes fewer 0 := by
  apply Keeps.nextPositionFacing
  apply Keeps.skipFacing
  intro fewer less
  refine Keeps.strengthen ?_ fun _ _ stands => ⟨fewer, less, stands⟩
  refine Keeps.get fun state => ?_
  split
  · refine (modify_keeps State.closeNode_lexerFree).bind fun _ => Keeps.get fun closed => ?_
    split
    · exact modify_keeps State.closeNode_lexerFree
    · exact Keeps.pure fun _ => id
  · exact failAt_keeps trivial

theorem construct_keeps (token : Token) (enough : left ≤ bound) :
    Keeps (construct bound token)
      (fun state => state.Stands [] left 1 ∧ state.Faces (some token))
      fun _ state => ∃ fewer, fewer < left ∧ state.Stands [] fewer 1 := by
  have settles {action : Parser Unit}
      (keeps : Keeps action (fun state => state.Stands [] left 1 ∧ state.Faces (some token))
        fun _ state => ∃ fewer, fewer < left ∧ state.Stands [] fewer 0) :
      Keeps action (fun state => state.Stands [] left 1 ∧ state.Faces (some token))
        fun _ state => ∃ fewer, fewer < left ∧ state.Stands [] fewer 1 :=
    keeps.strengthen fun _ _ ⟨fewer, less, stands⟩ => ⟨fewer, less, stands.mono (Nat.le_refl _)⟩
  obtain ⟨kind, position⟩ := token
  cases kind with
  | whitespace content | text content | entity content => exact textRun_keeps rfl enough
  | comment content => exact settles (comment_keeps content _)
  | interpolationStart => exact settles (interpolation_keeps bound _)
  | punctuation mark =>
      cases mark with
      | greater => exact textRun_keeps rfl enough
      | less => exact settles (tag_keeps _ enough)
      | «at» => exact settles (statement_keeps bound _)
      | leftBrace => exact settles (blockStart_keeps _)
      | rightBrace => exact settles (blockEnd_keeps _)
      | _ => exact Keeps.ofMarkup (by simp [IsOfMarkup])
  | _ => exact Keeps.ofMarkup id

theorem markup_keeps (enough : left < bound) :
    Keeps (markup bound) (Stands [] left 1) fun _ => Stands [] left 0 := by
  induction bound generalizing left with
  | zero => contradiction
  | succ bound ih =>
      refine Keeps.peek fun token? => ?_
      cases token? with
      | none =>
          rintro state ⟨stands, faces⟩
          have empty : state.lexer.lookahead = [] := List.map_eq_nil_iff.1 faces
          exact { stands with heldLe := by rw [empty]; exact Nat.le_refl 0 }
      | some token =>
          refine (construct_keeps token (Nat.le_of_lt_succ enough)).bind fun _ => ?_
          refine Keeps.ofFewer fun fewer less => ?_
          refine (ih (by omega)).strengthen fun _ _ stands => ?_
          exact { stands with restLe := stands.restLe.trans (Nat.le_of_lt less) }

end Markup

end Parser

end TemplateCompiler
