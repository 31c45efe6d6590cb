import TemplateCompiler.Proofs.Lex.Simulation
import Mathlib.Logic.Relation

/-!
# Lexers make progress

Whatever a lexer does between two changes of its mode comes down to two steps:
one more token is scanned and held, or the first token held is given out.
Neither skips a character nor reads one twice, so the tokens that were given out
tile the source up to the place the lexer has come to, whatever its modes were
on the way.

No step raises the number of tokens given out plus the number of those that can
still come.  In most modes as many can come as there are characters, since a
token takes at least one; front matter may take none, but nothing follows it in
its own mode.  So reading on comes to an end in every mode.
-/

namespace TemplateCompiler

/-- The token that an entry of a log says was given out, and the mode in force
then. -/
def LexEvent.taken? : LexEvent → Option (LexMode × Token)
  | .taken mode token => some (mode, token)
  | _ => none

namespace Lex

/-- A scan comes to a decision: there is a token, or there is a fault. -/
def Decides (scan : Scan) : Prop :=
  scan ≠ .ok none

section Decisions

theorem decides_found (kind : TokenKind) (length : Nat) : Decides (.found kind length) := by
  simp [Decides, Scan.found]

theorem decides_mark (mark : Punctuation) : Decides (.mark mark) :=
  decides_found _ _

theorem decides_error (fault : Fault) : Decides (.error fault) := by
  simp [Decides]

theorem decides_quoted (kind : String → TokenKind) (cause : Cause) (text : List Char)
    (body : QuotedBody) : Decides (body.scan kind cause text) := by
  cases body with
  | closed value length => exact decides_found _ _
  | badEscape escape before => exact decides_error _
  | unclosed => exact decides_error _

theorem decides_tried {condition : Prop} [Decidable condition] {kind : String → TokenKind}
    {cause : Cause} {text : List Char} {body : QuotedBody} {scan : Scan}
    (tried : (if condition then some (body.scan kind cause text) else none) = some scan) :
    Decides scan := by
  obtain ⟨-, found⟩ := Option.ite_none_right_eq_some.1 tried
  exact Option.some.inj found ▸ decides_quoted _ _ _ _

theorem decides_string {text : List Char} {scan : Scan} (tried : scanString? text = some scan) :
    Decides scan := by
  cases text with
  | nil => contradiction
  | cons c text => exact decides_tried tried

theorem decides_protectedString {text : List Char} {scan : Scan}
    (tried : scanProtectedString? text = some scan) : Decides scan := by
  cases text with
  | nil => contradiction
  | cons c text => exact decides_tried tried

theorem decides_template {text : List Char} {scan : Scan} (tried : scanTemplate? text = some scan) :
    Decides scan := by
  cases text with
  | nil => contradiction
  | cons c text => exact decides_tried tried

theorem decides_scanTag (c : Char) (text : List Char) : Decides (scanTag (c :: text)) := by
  unfold scanTag
  simp only
  split
  · exact decides_found _ _
  · split
    · exact decides_mark _
    · split
      · exact decides_found _ _
      · split
        · next scan tried => exact decides_string tried
        · split
          · exact decides_found _ _
          · exact decides_error _

theorem decides_scanExpressionMark (c : Char) (text : List Char) :
    Decides (scanExpressionMark c text) := by
  unfold scanExpressionMark
  split
  · exact decides_mark _
  · split
    · exact decides_mark _
    · exact decides_error _

theorem decides_scanExpression (c : Char) (text : List Char) :
    Decides (scanExpression (c :: text)) := by
  unfold scanExpression
  simp only
  split
  · exact decides_found _ _
  · split
    · exact decides_found _ _
    · split
      · exact decides_found _ _
      · unfold scanExpressionLiteral
        split
        · next scan tried => exact decides_template tried
        · split
          · next scan tried => exact decides_string tried
          · split
            · split
              · exact decides_found _ _
              · exact decides_scanExpressionMark c text
            · exact decides_scanExpressionMark c text

theorem decides_scanStyleWord (c : Char) (text : List Char) :
    Decides (scanStyleWord c text) := by
  unfold scanStyleWord
  split
  · unfold scanDimension
    split <;> exact decides_found _ _
  · split
    · exact decides_found _ _
    · split
      · exact decides_mark _
      · exact decides_error _

theorem decides_scanStyle (c : Char) (text : List Char) : Decides (scanStyle (c :: text)) := by
  unfold scanStyle
  simp only
  split
  · exact decides_found _ _
  · split
    · exact decides_found _ _
    · split
      · unfold scanStyleComment
        split
        · exact decides_found _ _
        · exact decides_error _
      · split
        · next scan tried => exact decides_protectedString tried
        · split
          · split
            · exact decides_found _ _
            · exact decides_scanStyleWord c text
          · exact decides_scanStyleWord c text

theorem decides_scanScript (c : Char) (text : List Char) : Decides (scanScript (c :: text)) := by
  unfold scanScript
  split
  · exact decides_found _ _
  · split
    · exact decides_found _ _
    · split
      · exact decides_found _ _
      · exact decides_found _ _

end Decisions

theorem scanIn_nil {mode : LexMode} (notMatter : mode ≠ .frontMatter) :
    scanIn mode [] = .ok none := by
  cases mode <;> first | contradiction | rfl

/-- There is always a token or a fault, but for the end of the text. -/
theorem eq_nil_of_scanIn {mode : LexMode} {text : List Char}
    (ended : scanIn mode text = .ok none) : text = [] := by
  cases text with
  | nil => rfl
  | cons c text =>
      cases mode with
      | frontMatter =>
          obtain ⟨content, length, impossible⟩ := exists_of_scanFrontMatter ended
          simp at impossible
      | markup => exact eq_nil_of_scanMarkup ended
      | tag => exact (decides_scanTag c text ended).elim
      | style => exact (decides_scanStyle c text ended).elim
      | script => exact (decides_scanScript c text ended).elim
      | expression => exact (decides_scanExpression c text ended).elim

end Lex

/-- Tokens take a text piece by piece, from a byte offset on, up to what is left
of it.  Only front matter may take nothing. -/
def Token.Tile : (offset : Nat) → List Token → (text rest : List Char) → Prop
  | _, [], text, rest => text = rest
  | offset, token :: later, text, rest =>
      ∃ piece behind, text = piece ++ behind ∧
        token.position.offset = offset ∧
        token.position.length = some (Text.byteLength piece) ∧
        (piece = [] → token.isFrontMatter = true) ∧
        Tile (offset + Text.byteLength piece) later behind rest

theorem Token.Tile.concat {offset : Nat} {tokens : List Token} {text piece rest : List Char}
    {token : Token} (tile : Tile offset tokens text (piece ++ rest))
    (offsetEq : token.position.offset + Text.byteLength (piece ++ rest) =
      offset + Text.byteLength text)
    (lengthEq : token.position.length = some (Text.byteLength piece))
    (matter : piece = [] → token.isFrontMatter = true) :
    Tile offset (tokens ++ [token]) text rest := by
  induction tokens generalizing offset text with
  | nil =>
      obtain rfl : text = piece ++ rest := tile
      exact ⟨piece, rest, rfl, Nat.add_right_cancel offsetEq, lengthEq, matter, rfl⟩
  | cons first tokens ih =>
      obtain ⟨own, behind, rfl, firstOffset, firstLength, firstMatter, later⟩ := tile
      refine ⟨own, behind, rfl, firstOffset, firstLength, firstMatter, ih later ?_⟩
      rw [offsetEq, Text.byteLength_append, Nat.add_assoc]

namespace Lexer

open Reader

variable {source : List Char} {lexer after : Lexer} {α β : Type}

/-- The tokens given out so far, the first one first. -/
def tokens (lexer : Lexer) : List Token :=
  (lexer.history.filterMap LexEvent.taken?).reverse.map (·.2)

@[simp]
theorem tokens_hold (lexer : Lexer) (scanned : Scanned) :
    (lexer.hold scanned).tokens = lexer.tokens := by
  simp [tokens, hold, List.filterMap_cons, LexEvent.taken?]

@[simp]
theorem tokens_giveOut (lexer : Lexer) (scanned : Scanned) (later : List Scanned) :
    (lexer.giveOut scanned later).tokens = lexer.tokens ++ [scanned.token] := by
  simp [tokens, giveOut, LexEvent.taken?]

@[simp]
theorem tokens_pushMode (lexer : Lexer) (mode : LexMode) :
    (lexer.pushMode mode).tokens = lexer.tokens := by
  simp [tokens, pushMode, rewind, List.filterMap_cons, LexEvent.taken?]

@[simp]
theorem tokens_popMode (lexer : Lexer) : lexer.popMode.tokens = lexer.tokens := by
  simp [tokens, popMode, rewind, List.filterMap_cons, LexEvent.taken?]

section Steps

/-- One step of reading on in a mode. -/
inductive Step : Lexer → Lexer → Prop
  | held {lexer after : Lexer} {scanned : Scanned}
      (found : scan lexer = .ok (some scanned) after) : Step lexer (lexer.hold scanned)
  | took {lexer : Lexer} {scanned : Scanned} {later : List Scanned}
      (held : lexer.lookahead = scanned :: later) : Step lexer (lexer.giveOut scanned later)

/-- Reading on in a mode. -/
abbrev Steps : Lexer → Lexer → Prop :=
  Relation.ReflTransGen Step

theorem scan_ended (ended : scan lexer = .ok none after) : after = lexer := by
  unfold scan at ended
  split at ended
  · exact (EStateM.Result.ok.inj ended).2.symm
  · simp only at ended
    split at ended
    · exact (EStateM.Result.ok.inj ended).2.symm
    · simp at ended
    · simp at ended

/-- The next token is given out after some steps, or there is none. -/
theorem next_cases (lexer : Lexer) :
    (next lexer = .ok none lexer ∧ lexer.lookahead = [] ∧ scan lexer = .ok none lexer) ∨
    (∃ token after, next lexer = .ok (some token) after ∧ Steps lexer after ∧
      after.tokens = lexer.tokens ++ [token]) ∨
    ∃ error after, next lexer = .error error after := by
  cases held : lexer.lookahead with
  | cons scanned later =>
      exact .inr (.inl ⟨_, _, next_of_held held, .single (.took held), tokens_giveOut _ _ _⟩)
  | nil =>
      cases found : scan lexer with
      | error error after => exact .inr (.inr ⟨_, _, next_of_failed held found⟩)
      | ok scanned? after =>
          cases scanned? with
          | none =>
              obtain rfl := scan_ended found
              exact .inl ⟨next_of_ended held found, rfl, rfl⟩
          | some scanned =>
              have took : Step (lexer.hold scanned) ((lexer.hold scanned).giveOut scanned []) :=
                .took (by rw [hold, held]; rfl)
              refine .inr (.inl ⟨_, _, next_of_found held found,
                .tail (.single (.held found)) took, ?_⟩)
              rw [tokens_giveOut, tokens_hold]

theorem next_eq_none (none : next lexer = .ok none after) :
    after = lexer ∧ lexer.lookahead = [] ∧ scan lexer = .ok .none lexer := by
  obtain ⟨same, empty, ended⟩ | ⟨token, other, some, -, -⟩ | ⟨error, other, fails⟩ :=
    next_cases lexer
  · rw [same] at none
    exact ⟨(EStateM.Result.ok.inj none).2.symm, empty, ended⟩
  · simp [some] at none
  · simp [fails] at none

theorem next_eq_some {token : Token} (some : next lexer = .ok (some token) after) :
    Steps lexer after ∧ after.tokens = lexer.tokens ++ [token] := by
  obtain ⟨none, -, -⟩ | ⟨found, other, same, steps, tokensEq⟩ | ⟨error, other, fails⟩ :=
    next_cases lexer
  · simp [none] at some
  · rw [same] at some
    obtain ⟨sameToken, rfl⟩ := EStateM.Result.ok.inj some
    exact ⟨steps, Option.some.inj sameToken ▸ tokensEq⟩
  · simp [fails] at some

/-- Taking a token fails only when none is held and the scan for one fails. -/
theorem next_eq_error {error : Lex.Error} (failed : next lexer = .error error after) :
    lexer.lookahead = [] ∧ scan lexer = .error error after := by
  cases held : lexer.lookahead with
  | cons scanned later => simp [next_of_held held] at failed
  | nil =>
      cases found : scan lexer with
      | error scanError reached =>
          rw [next_of_failed held found] at failed
          obtain ⟨rfl, rfl⟩ := EStateM.Result.error.inj failed
          exact ⟨rfl, rfl⟩
      | ok scanned? reached =>
          cases scanned? with
          | none => simp [next_of_ended held found] at failed
          | some scanned => simp [next_of_found held found] at failed

/-- An action reads on: when it succeeds, it has taken some steps. -/
def Proceeds (action : Lexing α) : Prop :=
  ∀ lexer result after, action lexer = .ok result after → Steps lexer after

namespace Proceeds

theorem pure (result : α) : Proceeds (Pure.pure result) :=
  fun _ _ _ ended => (EStateM.Result.ok.inj ended).2 ▸ .refl

theorem bind {action : Lexing α} {following : α → Lexing β} (first : Proceeds action)
    (second : ∀ result, Proceeds (following result)) : Proceeds (action >>= following) := by
  intro lexer result after ended
  obtain ⟨between, middle, ranFirst, ranSecond⟩ := bind_eq_ok lexer ended
  exact (first _ _ _ ranFirst).trans (second _ _ _ _ ranSecond)

theorem get : Proceeds (MonadState.get : Lexing Lexer) :=
  fun _ _ _ ended => (EStateM.Result.ok.inj ended).2 ▸ .refl

end Proceeds

theorem next_proceeds : Proceeds next := by
  intro lexer token? after ended
  cases token? with
  | none => exact (next_eq_none ended).1 ▸ .refl
  | some token => exact (next_eq_some ended).1

theorem consume_proceeds (count : Nat) : Proceeds (consume count) := by
  induction count with
  | zero => exact .pure ()
  | succ count ih =>
      refine next_proceeds.bind fun token? => ?_
      cases token? with
      | none => exact .pure ()
      | some token => exact ih

theorem collectAtMost_proceeds (bound : Nat) : Proceeds (collectAtMost bound) := by
  induction bound with
  | zero => exact .pure []
  | succ bound ih =>
      refine next_proceeds.bind fun token? => ?_
      cases token? with
      | none => exact .pure []
      | some token => exact ih.bind fun later => .pure (token :: later)

theorem lookFurther_proceeds (count : Nat) : Proceeds (lookFurther count) := by
  induction count with
  | zero => exact .pure ()
  | succ count ih =>
      intro lexer result after ended
      obtain ⟨scanned?, middle, found, rest⟩ := bind_eq_ok lexer ended
      cases scanned? with
      | none =>
          obtain rfl := scan_ended found
          exact (EStateM.Result.ok.inj rest).2 ▸ .refl
      | some scanned =>
          obtain ⟨-, -, rfl⟩ := scan_found found
          exact .head (.held found) (ih _ _ _ rest)

theorem peek_proceeds (places : Nat) : Proceeds (peek places) :=
  Proceeds.get.bind fun _ => (lookFurther_proceeds _).bind fun _ =>
    Proceeds.get.bind fun _ => .pure _

/-- Every operation but a change of mode reads on. -/
theorem perform_proceeds {operation : LexOperation} (stays : operation.changesMode = false) :
    Proceeds (perform operation) := by
  cases operation with
  | pushMode mode => contradiction
  | popMode => contradiction
  | peek places => exact (peek_proceeds places).bind fun _ => .pure _
  | next => exact next_proceeds.bind fun _ => .pure _
  | consume count => exact (consume_proceeds count).bind fun _ => .pure _
  | collect =>
      exact (Proceeds.get.bind fun _ => collectAtMost_proceeds _).bind fun _ => .pure _
  | last => exact Proceeds.get.bind fun _ => .pure _
  | position => exact Proceeds.get.bind fun _ => .pure _

theorem transcript_proceeds {operations : List LexOperation}
    (stays : ∀ operation ∈ operations, operation.changesMode = false) :
    Proceeds (transcript perform operations) := by
  induction operations with
  | nil => exact .pure []
  | cons operation later ih =>
      refine (perform_proceeds (stays _ List.mem_cons_self)).bind fun answer => ?_
      exact (ih fun other member => stays _ (List.mem_cons_of_mem _ member)).bind
        fun answers => .pure _

end Steps

section Counting

/-- The most tokens that can still come in the mode of a lexer. -/
def pending (lexer : Lexer) : Nat :=
  lexer.lookahead.length +
    if lexer.mode = .frontMatter then
      if lexer.followsFrontMatter then 0 else 1
    else lexer.ahead.rest.length

/-- What is scanned in the mode of front matter is front matter. -/
theorem isFrontMatter_of_scanAt {cursor : Cursor} {lexeme : Lex.Lexeme}
    (found : scanAt .frontMatter cursor = .ok (some lexeme)) :
    (scannedOf cursor lexeme).token.isFrontMatter = true := by
  obtain ⟨content, length, kindEq⟩ := Lex.exists_of_scanFrontMatter found
  obtain rfl := Option.some.inj kindEq
  rfl

theorem followsFrontMatter_eq (lexer : Lexer) :
    lexer.followsFrontMatter =
      ((lexer.lookahead.getLast?.map (·.token)).or lexer.last).any Token.isFrontMatter := by
  rw [followsFrontMatter]
  cases lexer.lookahead.getLast? <;> rfl

theorem followsFrontMatter_hold (lexer : Lexer) (scanned : Scanned) :
    (lexer.hold scanned).followsFrontMatter = scanned.token.isFrontMatter := by
  simp [followsFrontMatter_eq, hold]

theorem followsFrontMatter_giveOut {scanned : Scanned} {later : List Scanned}
    (held : lexer.lookahead = scanned :: later) :
    (lexer.giveOut scanned later).followsFrontMatter = lexer.followsFrontMatter := by
  rw [followsFrontMatter_eq, followsFrontMatter_eq, held, List.getLast?_cons, giveOut]
  cases later.getLast? <;> rfl

theorem fits_scanAt {mode : LexMode} (notMatter : mode ≠ .frontMatter) {cursor : Cursor}
    {lexeme : Lex.Lexeme} (found : scanAt mode cursor = .ok (some lexeme)) :
    lexeme.Fits cursor.rest :=
  Lex.fits_scanIn notMatter (scanAt_eq notMatter cursor ▸ found)

theorem Step.modes_eq (step : Step lexer after) : after.modes = lexer.modes := by
  cases step <;> rfl

theorem Steps.modes_eq (steps : Steps lexer after) : after.modes = lexer.modes := by
  induction steps with
  | refl => rfl
  | tail _ step ih => exact step.modes_eq.trans ih

/-- No step adds to the tokens given out together with those that can come. -/
theorem Step.count_le (step : Step lexer after) :
    after.tokens.length + after.pending ≤ lexer.tokens.length + lexer.pending := by
  cases step with
  | @held _ scanned found =>
      obtain ⟨unfinished, ⟨lexeme, scannedAt, rfl⟩, -⟩ := scan_found found
      have modeEq : (lexer.hold (scannedOf lexer.ahead lexeme)).mode = lexer.mode := rfl
      by_cases matter : lexer.mode = .frontMatter
      · rw [matter] at scannedAt
        have follows := followsFrontMatter_hold lexer (scannedOf lexer.ahead lexeme)
        rw [isFrontMatter_of_scanAt scannedAt] at follows
        have unfollowed : lexer.followsFrontMatter = false := by simpa [matter] using unfinished
        simp only [pending, modeEq, matter, if_true, follows, unfollowed, tokens_hold]
        simp [hold]
      · have fits := fits_scanAt matter scannedAt
        have positive := fits.positive
        have within := fits.within
        simp only [pending, modeEq, matter, if_false, tokens_hold]
        simp only [hold, scannedOf, Cursor.advanceBy_rest, List.length_append, List.length_drop,
          List.length_singleton]
        omega
  | @took scanned later held =>
      have modeEq : (lexer.giveOut scanned later).mode = lexer.mode := rfl
      have aheadEq : (lexer.giveOut scanned later).ahead = lexer.ahead := rfl
      have laterEq : (lexer.giveOut scanned later).lookahead = later := rfl
      rw [pending, pending, modeEq, aheadEq, laterEq, followsFrontMatter_giveOut held,
        tokens_giveOut, held, List.length_append, List.length_singleton, List.length_cons]
      omega

theorem Steps.count_le (steps : Steps lexer after) :
    after.tokens.length + after.pending ≤ lexer.tokens.length + lexer.pending := by
  induction steps with
  | refl => exact Nat.le_refl _
  | tail _ step ih => exact step.count_le.trans ih

theorem Step.tokens_eq (step : Step lexer after) : lexer.tokens <+: after.tokens := by
  cases step with
  | held found => simp
  | took held =>
      rw [tokens_giveOut]
      exact List.prefix_append _ _

theorem Steps.tokens_eq (steps : Steps lexer after) : lexer.tokens <+: after.tokens := by
  induction steps with
  | refl => exact List.prefix_refl _
  | tail _ step ih => exact ih.trans step.tokens_eq

/-- When no token can come, there is none. -/
theorem next_of_pending (exhausted : lexer.pending = 0) : next lexer = .ok none lexer := by
  obtain ⟨empty, ended⟩ := Nat.add_eq_zero_iff.1 exhausted
  have nothing : lexer.lookahead = [] := List.length_eq_zero_iff.1 empty
  apply next_of_ended nothing
  by_cases matter : lexer.mode = .frontMatter
  · have follows : lexer.followsFrontMatter = true := by simpa [matter] using ended
    simp [scan, matter, follows]
  · have finished : lexer.ahead.rest = [] := by simpa [matter] using ended
    have scannedAt : scanAt lexer.mode lexer.ahead = .ok none := by
      rw [scanAt_eq matter, finished, Lex.scanIn_nil matter]
    simp [scan, matter, scannedAt]

/-- Taking tokens until there are none comes to an end. -/
inductive Drains : Lexer → EStateM.Result Lex.Error Lexer (List Token) → Prop
  | ended {lexer after : Lexer} (none : next lexer = .ok none after) : Drains lexer (.ok [] after)
  | failed {lexer after : Lexer} {error : Lex.Error} (fails : next lexer = .error error after) :
      Drains lexer (.error error after)
  | took {lexer after last : Lexer} {token : Token} {later : List Token}
      (some : next lexer = .ok (some token) after) (drains : Drains after (.ok later last)) :
      Drains lexer (.ok (token :: later) last)
  | tookThenFailed {lexer after last : Lexer} {token : Token} {error : Lex.Error}
      (some : next lexer = .ok (some token) after) (drains : Drains after (.error error last)) :
      Drains lexer (.error error last)

/-- A bound on the tokens to take does not matter if fewer can come. -/
theorem drains_collectAtMost {bound : Nat} (enough : lexer.pending < bound) :
    Drains lexer (collectAtMost bound lexer) := by
  induction bound generalizing lexer with
  | zero => contradiction
  | succ bound ih =>
      rw [collectAtMost, run_bind]
      obtain ⟨none, -, -⟩ | ⟨token, after, some, steps, tokensEq⟩ | ⟨error, after, fails⟩ :=
        next_cases lexer
      · rw [none]
        exact .ended none
      · have count := steps.count_le
        rw [tokensEq, List.length_append, List.length_singleton] at count
        have later : Drains after (collectAtMost bound after) := ih (by omega)
        rw [some]
        simp only [run_bind]
        cases ran : collectAtMost bound after with
        | ok tokens last => exact .took some (ran ▸ later)
        | error error last => exact .tookThenFailed some (ran ▸ later)
      · rw [fails]
        exact .failed fails

/-- There are always enough characters left to take all tokens that can come. -/
theorem drains_collect (lexer : Lexer) : Drains lexer (collect lexer) := by
  apply drains_collectAtMost
  rw [pending]
  split
  · split <;> omega
  · omega

/-- How taking tokens ends does not depend on how it is found out. -/
theorem Drains.unique {first second : EStateM.Result Lex.Error Lexer (List Token)}
    (drains : Drains lexer first) (other : Drains lexer second) : first = second := by
  induction drains generalizing second with
  | ended none => cases other <;> simp_all
  | failed fails => cases other <;> simp_all
  | took some drains ih =>
      cases other with
      | took otherSome otherDrains =>
          obtain ⟨sameToken, rfl⟩ := EStateM.Result.ok.inj (some.symm.trans otherSome)
          obtain rfl := Option.some.inj sameToken
          obtain ⟨rfl, rfl⟩ := EStateM.Result.ok.inj (ih otherDrains)
          rfl
      | tookThenFailed otherSome otherDrains =>
          obtain ⟨-, rfl⟩ := EStateM.Result.ok.inj (some.symm.trans otherSome)
          exact (nomatch ih otherDrains)
      | ended otherNone => simp_all
      | failed otherFails => simp_all
  | tookThenFailed some drains ih =>
      cases other with
      | took otherSome otherDrains =>
          obtain ⟨-, rfl⟩ := EStateM.Result.ok.inj (some.symm.trans otherSome)
          exact (nomatch ih otherDrains)
      | tookThenFailed otherSome otherDrains =>
          obtain ⟨-, rfl⟩ := EStateM.Result.ok.inj (some.symm.trans otherSome)
          exact ih otherDrains
      | ended otherNone => simp_all
      | failed otherFails => simp_all

/-- What is behind the last token, and that all that came was given out. -/
theorem Drains.ended_next {tokens : List Token} (drains : Drains lexer (.ok tokens after)) :
    next after = .ok none after ∧ Steps lexer after ∧ after.tokens = lexer.tokens ++ tokens := by
  generalize resultEq : EStateM.Result.ok tokens after = result at drains
  induction drains generalizing tokens with
  | ended none =>
      obtain ⟨rfl, rfl⟩ := EStateM.Result.ok.inj resultEq
      obtain ⟨rfl, -, -⟩ := next_eq_none none
      exact ⟨none, .refl, (List.append_nil _).symm⟩
  | failed fails => contradiction
  | took some drains ih =>
      obtain ⟨rfl, rfl⟩ := EStateM.Result.ok.inj resultEq
      obtain ⟨ended, steps, tokensEq⟩ := ih rfl
      obtain ⟨first, firstEq⟩ := next_eq_some some
      exact ⟨ended, first.trans steps, by rw [tokensEq, firstEq, List.append_assoc]; rfl⟩
  | tookThenFailed some drains ih => contradiction

end Counting

end Lexer

namespace Reader

variable {source : List Char} {reader : Reader}

/-- The token at the place of a reader takes the piece of the source in front of
the place behind it, and only front matter takes nothing. -/
theorem scanned_takes {scanned : Scanned}
    (found : reader.scanned source = .ok (some scanned)) :
    ∃ piece, (reader.cursor source).rest = piece ++ scanned.stop.rest ∧
      scanned.token.position.offset = (reader.cursor source).mark.offset ∧
      scanned.token.position.length = some (Text.byteLength piece) ∧
      (reader.mode = .frontMatter → scanned.token.isFrontMatter = true) ∧
      (reader.mode ≠ .frontMatter → piece ≠ []) := by
  obtain ⟨-, lexeme, scannedAt, rfl⟩ := exists_lexeme found
  refine ⟨(reader.cursor source).rest.take lexeme.length, ?_, rfl, ?_, ?_, ?_⟩
  · rw [Lexer.scannedOf, Cursor.advanceBy_rest, List.take_append_drop]
  · rw [Lexer.scannedOf]
    simp only [Position.withLength, Cursor.advanceBy_offset, Nat.add_sub_cancel_left]
  · intro matter
    rw [matter] at scannedAt
    exact Lexer.isFrontMatter_of_scanAt scannedAt
  · intro notMatter
    have fits := Lexer.fits_scanAt notMatter scannedAt
    have positive := fits.positive
    have within := fits.within
    apply List.ne_nil_of_length_pos
    rw [List.length_take]
    omega

/-- In most modes there are no more tokens held than characters between. -/
theorem Foresees.length_le {held : List Scanned} (foresees : reader.Foresees source held)
    (within : reader.Within source) (notMatter : reader.mode ≠ .frontMatter) :
    held.length + ((reader.movedAll held).cursor source).rest.length ≤
      (reader.cursor source).rest.length := by
  induction held generalizing reader with
  | nil => exact Nat.le_of_eq (Nat.zero_add _)
  | cons scanned held ih =>
      have later := ih foresees.2 (within.moved foresees.1) notMatter
      rw [(within.stop_eq foresees.1).2] at later
      obtain ⟨piece, restEq, -, -, -, nonempty⟩ := scanned_takes foresees.1
      have positive := List.length_pos_iff.2 (nonempty notMatter)
      rw [restEq, List.length_append, List.length_cons]
      have movedEq : reader.movedAll (scanned :: held) = (reader.moved scanned).movedAll held :=
        rfl
      rw [movedEq]
      omega

/-- In the mode of front matter one token is held at most. -/
theorem Foresees.matter_le {held : List Scanned} (foresees : reader.Foresees source held)
    (matter : reader.mode = .frontMatter) :
    held.length + (if (reader.movedAll held).last.any Token.isFrontMatter then 0 else 1) ≤ 1 := by
  cases held with
  | nil =>
      rw [List.length_nil, Nat.zero_add]
      split <;> omega
  | cons scanned held =>
      obtain ⟨found, later⟩ := foresees
      obtain ⟨-, -, -, -, isMatter, -⟩ := scanned_takes found
      cases held with
      | nil => simp [movedAll, Reader.moved, isMatter matter]
      | cons second held =>
          obtain ⟨unfinished, -⟩ := exists_lexeme later.1
          exact (unfinished ⟨matter, isMatter matter⟩).elim

end Reader

namespace Lexer

open Reader

variable {source : List Char} {lexer after : Lexer}

section Sessions

variable {reader : Reader}

theorem Shadows.scanned_eq {scanned : Scanned} (shadows : lexer.Shadows source reader)
    (found : scan lexer = .ok (some scanned) after) :
    (reader.movedAll lexer.lookahead).scanned source = .ok (some scanned) := by
  have ran := shadows.scan_eq
  cases same : (reader.movedAll lexer.lookahead).scanned source with
  | error error =>
      rw [same] at ran
      obtain ⟨other, failed⟩ := ran
      simp [failed] at found
  | ok scanned? =>
      rw [same] at ran
      cases scanned? with
      | none =>
          simp only at ran
          simp [ran] at found
      | some other =>
          simp only at ran
          rw [ran] at found
          rw [(EStateM.Result.ok.inj found).1]

/-- How many tokens can come where a reader stands. -/
theorem Shadows.pending_le (shadows : lexer.Shadows source reader) :
    lexer.pending ≤ if lexer.mode = .frontMatter then 1 else lexer.taken.rest.length := by
  rw [pending, shadows.mode_eq]
  split
  · next matter =>
      have held := shadows.foresees.matter_le matter
      have followsEq : (reader.movedAll lexer.lookahead).last.any Token.isFrontMatter =
          lexer.followsFrontMatter := by
        rw [last_movedAll, followsFrontMatter_eq, shadows.lastEq]
      rwa [followsEq] at held
  · next notMatter =>
      rw [shadows.aheadEq, shadows.takenEq]
      exact shadows.foresees.length_le shadows.within notMatter

/-- A lexer stands where a reader stands, and the tokens it gave out tile the
source up to there. -/
structure Accounts (source : List Char) (lexer : Lexer) : Prop where
  shadows : ∃ reader, lexer.Shadows source reader
  tile : Token.Tile 0 lexer.tokens source lexer.taken.rest

theorem accounts_ofText (source : List Char) : Accounts source (ofText source) :=
  ⟨⟨_, shadows_ofText source⟩, rfl⟩

theorem Accounts.step (accounts : Accounts source lexer) (step : Step lexer after) :
    Accounts source after := by
  obtain ⟨⟨reader, shadows⟩, tile⟩ := accounts
  cases step with
  | held found =>
      refine ⟨⟨reader, shadows.hold (shadows.scanned_eq found)⟩, ?_⟩
      rwa [tokens_hold]
  | @took scanned later held =>
      refine ⟨⟨_, shadows.giveOut held⟩, ?_⟩
      have found := shadows.foresees
      rw [held] at found
      obtain ⟨piece, restEq, offsetEq, lengthEq, isMatter, nonempty⟩ :=
        scanned_takes found.1
      have takenRest : lexer.taken.rest = piece ++ scanned.stop.rest := shadows.takenEq ▸ restEq
      obtain ⟨-, read, sourceEq, readOffset⟩ := shadows.within
      rw [takenRest] at tile
      rw [tokens_giveOut]
      refine tile.concat ?_ lengthEq fun empty => isMatter ?_
      · rw [offsetEq, readOffset, Nat.zero_add, ← Text.byteLength_append, ← restEq, ← sourceEq]
      · by_contra notMatter
        exact nonempty notMatter empty

theorem Accounts.steps (accounts : Accounts source lexer) (steps : Steps lexer after) :
    Accounts source after := by
  induction steps with
  | refl => exact accounts
  | tail _ step ih => exact ih.step step

/-- An operation takes the tokens it tells to have taken, and it skips none. -/
theorem Accounts.perform {operation : LexOperation} {answer : LexAnswer}
    (accounts : Accounts source lexer) (ran : perform operation lexer = .ok answer after) :
    Accounts source after ∧ ∃ more, after.tokens = lexer.tokens ++ more ∧
      (LexOperation.tokensTaken (operation, answer)).Sublist more := by
  have reading (stays : operation.changesMode = false)
      (silent : LexOperation.tokensTaken (operation, answer) = []) :
      Accounts source after ∧ ∃ more, after.tokens = lexer.tokens ++ more ∧
        (LexOperation.tokensTaken (operation, answer)).Sublist more := by
    have steps := perform_proceeds stays lexer answer after ran
    obtain ⟨more, tokensEq⟩ := steps.tokens_eq
    exact ⟨accounts.steps steps, more, tokensEq.symm, silent ▸ List.nil_sublist more⟩
  obtain ⟨⟨reader, shadows⟩, tile⟩ := accounts
  cases operation with
  | pushMode mode =>
      obtain ⟨rfl, rfl⟩ := EStateM.Result.ok.inj ran
      refine ⟨⟨⟨_, shadows.pushMode mode⟩, ?_⟩, [], ?_, .slnil⟩
      · rwa [tokens_pushMode]
      · rw [tokens_pushMode, List.append_nil]
  | popMode =>
      obtain ⟨rfl, rfl⟩ := EStateM.Result.ok.inj ran
      refine ⟨⟨⟨_, shadows.popMode⟩, ?_⟩, [], ?_, .slnil⟩
      · rwa [tokens_popMode]
      · rw [tokens_popMode, List.append_nil]
  | peek places => exact reading rfl rfl
  | next =>
      obtain ⟨token?, reached, took, ended⟩ := bind_eq_ok lexer ran
      obtain ⟨rfl, rfl⟩ := EStateM.Result.ok.inj ended
      cases token? with
      | none => exact reading rfl rfl
      | some token =>
          obtain ⟨steps, tokensEq⟩ := next_eq_some took
          exact ⟨Accounts.steps ⟨⟨reader, shadows⟩, tile⟩ steps, _, tokensEq, .refl _⟩
  | consume count => exact reading rfl rfl
  | collect =>
      obtain ⟨collected, reached, took, ended⟩ := bind_eq_ok lexer ran
      obtain ⟨rfl, rfl⟩ := EStateM.Result.ok.inj ended
      obtain ⟨-, steps, tokensEq⟩ := (took ▸ drains_collect lexer).ended_next
      exact ⟨Accounts.steps ⟨⟨reader, shadows⟩, tile⟩ steps, _, tokensEq, .refl _⟩
  | last => exact reading rfl rfl
  | position => exact reading rfl rfl

theorem Accounts.transcript {operations : List LexOperation}
    {entries : List (LexOperation × LexAnswer)} (accounts : Accounts source lexer)
    (ran : transcript Lexer.perform operations lexer = .ok entries after) :
    Accounts source after ∧ ∃ more, after.tokens = lexer.tokens ++ more ∧
      (entries.flatMap LexOperation.tokensTaken).Sublist more := by
  induction operations generalizing lexer entries with
  | nil =>
      obtain ⟨rfl, rfl⟩ := EStateM.Result.ok.inj ran
      exact ⟨accounts, [], (List.append_nil _).symm, .slnil⟩
  | cons operation later ih =>
      obtain ⟨answer, middle, first, rest⟩ := bind_eq_ok lexer ran
      obtain ⟨answers, last, second, ended⟩ := bind_eq_ok middle rest
      obtain ⟨rfl, rfl⟩ := EStateM.Result.ok.inj ended
      obtain ⟨accountsFirst, taken, takenEq, told⟩ := accounts.perform first
      obtain ⟨accountsLast, more, moreEq, toldLater⟩ := ih accountsFirst second
      refine ⟨accountsLast, taken ++ more, ?_, ?_⟩
      · rw [moreEq, takenEq, List.append_assoc]
      · rw [List.flatMap_cons]
        exact told.append toldLater

/-- A stay in one mode takes a limited number of tokens. -/
theorem Accounts.stay {operations : List LexOperation}
    {entries : List (LexOperation × LexAnswer)} (accounts : Accounts source lexer)
    (stays : ∀ operation ∈ operations, operation.changesMode = false)
    (ran : TemplateCompiler.transcript Lexer.perform operations lexer = .ok entries after) :
    ∃ more, after.tokens = lexer.tokens ++ more ∧
      more.length ≤ Text.byteLength lexer.taken.rest + 1 ∧
      (lexer.mode = .frontMatter →
        more.length ≤ 1 ∧ (more ≠ [] → next after = .ok none after)) := by
  have steps := transcript_proceeds stays lexer entries after ran
  obtain ⟨more, tokensEq⟩ := steps.tokens_eq
  have count := steps.count_le
  rw [← tokensEq, List.length_append] at count
  obtain ⟨⟨reader, shadows⟩, -⟩ := accounts
  have pending := shadows.pending_le
  have bytes := Text.length_le_byteLength lexer.taken.rest
  refine ⟨more, tokensEq.symm, ?_, fun matter => ?_⟩
  · split at pending <;> omega
  · rw [if_pos matter] at pending
    refine ⟨by omega, fun some => next_of_pending ?_⟩
    have positive := List.length_pos_iff.2 some
    omega

/-- Taking all tokens outside of front matter comes to the end of the source. -/
theorem Accounts.collect {collected : List Token} (accounts : Accounts source lexer)
    (notMatter : lexer.mode ≠ .frontMatter)
    (ran : Lexer.collect lexer = .ok collected after) :
    after.taken.rest = [] ∧ Token.Tile 0 after.tokens source [] := by
  obtain ⟨ended, steps, -⟩ := (ran ▸ drains_collect lexer).ended_next
  obtain ⟨⟨reader, shadows⟩, tile⟩ := accounts.steps steps
  obtain ⟨-, empty, scanned⟩ := next_eq_none ended
  have modeEq : after.mode = lexer.mode := congrArg (·.headD .markup) steps.modes_eq
  have aheadEq : after.ahead = after.taken := by
    rw [shadows.aheadEq, shadows.takenEq, empty]
    rfl
  have nothing : scanAt after.mode after.ahead = .ok none := by
    simp only [scan, modeEq, notMatter, false_and, if_false] at scanned
    rw [modeEq]
    split at scanned
    · assumption
    · simp at scanned
    · simp at scanned
  rw [modeEq, scanAt_eq notMatter, aheadEq] at nothing
  have finished := Lex.eq_nil_of_scanIn nothing
  exact ⟨finished, finished ▸ tile⟩

/-- Whatever was asked of a lexer, and as long as nothing failed: the tokens it
gave out tile its source from the start to the place it has come to; no stay in
a mode takes more tokens than there are bytes left and one more, and a stay in
front matter takes one at most; taking all tokens comes to an end, and outside
of front matter that is the end of the source. -/
theorem tiles_of_transcript {operations : List LexOperation}
    {entries : List (LexOperation × LexAnswer)}
    (ran : transcript perform operations (ofText source) = .ok entries lexer) :
    (Token.Tile 0 lexer.tokens source lexer.taken.rest ∧
      (entries.flatMap LexOperation.tokensTaken).Sublist lexer.tokens) ∧
    (∀ stay answers after, (∀ operation ∈ stay, operation.changesMode = false) →
      transcript perform stay lexer = .ok answers after →
      ∃ more, after.tokens = lexer.tokens ++ more ∧
        more.length ≤ Text.byteLength lexer.taken.rest + 1 ∧
        (lexer.mode = .frontMatter →
          more.length ≤ 1 ∧ (more ≠ [] → next after = .ok none after))) ∧
    Drains lexer (collect lexer) ∧
    (lexer.mode ≠ .frontMatter → ∀ collected after, collect lexer = .ok collected after →
      after.taken.rest = [] ∧ Token.Tile 0 after.tokens source []) := by
  obtain ⟨accounts, more, tokensEq, told⟩ := (accounts_ofText source).transcript ran
  have allTokens : lexer.tokens = more := tokensEq
  exact ⟨⟨accounts.tile, allTokens ▸ told⟩, fun _ _ _ stays stayed => accounts.stay stays stayed,
    drains_collect lexer, fun notMatter _ _ collected => accounts.collect notMatter collected⟩

/-- The source of an empty block before an element. -/
def matterBeforeElement : List Char :=
  "---\n---\n<a>b".toList

/-- Reads the front matter, twice, and the beginning of the element. -/
def matterBeforeElementSession : List LexOperation :=
  [.pushMode .frontMatter, .peek 1, .next, .next, .popMode, .peek 3, .next, .pushMode .tag,
    .peek 1, .consume 1]

/-- Whether a session succeeds, ends outside of front matter, and all tokens can be
taken then. -/
def readsToTheEnd (operations : List LexOperation) (source : List Char) : Bool :=
  match transcript perform operations (ofText source) with
  | .ok _ lexer => decide (lexer.mode ≠ .frontMatter) && (outcome (collect lexer)).isOk
  | .error _ _ => false

theorem of_readsToTheEnd {operations : List LexOperation}
    (reads : readsToTheEnd operations source = true) :
    ∃ entries lexer collected after,
      transcript perform operations (ofText source) = .ok entries lexer ∧
      lexer.mode ≠ .frontMatter ∧ collect lexer = .ok collected after := by
  unfold readsToTheEnd at reads
  split at reads
  · next entries lexer ran =>
      obtain ⟨notMatter, collects⟩ := Bool.and_eq_true_iff.1 reads
      obtain ⟨collected, after, ended⟩ := eq_ok_of_isOk collects
      exact ⟨entries, lexer, collected, after, ran, of_decide_eq_true notMatter, ended⟩
  · contradiction

theorem tiles_matterBeforeElement :
    ∃ entries lexer collected after,
      transcript perform matterBeforeElementSession (ofText matterBeforeElement) =
        .ok entries lexer ∧
      Token.Tile 0 lexer.tokens matterBeforeElement lexer.taken.rest ∧
      collect lexer = .ok collected after ∧
      after.taken.rest = [] ∧ Token.Tile 0 after.tokens matterBeforeElement [] := by
  have reads : readsToTheEnd matterBeforeElementSession matterBeforeElement = true := by
    decide +kernel
  obtain ⟨entries, lexer, collected, after, ran, notMatter, ended⟩ := of_readsToTheEnd reads
  obtain ⟨⟨tile, -⟩, -, -, whole⟩ := tiles_of_transcript ran
  exact ⟨entries, lexer, collected, after, ran, tile, ended, whole notMatter collected after ended⟩

end Sessions

end Lexer

end TemplateCompiler
