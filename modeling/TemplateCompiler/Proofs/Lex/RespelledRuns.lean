import TemplateCompiler.Proofs.Lex.Progress
import TemplateCompiler.Proofs.Lex.RespelledBlocks

/-!
# Runs on other platforms

Collecting the tokens of a text in a mode, and of the same text with its line breaks in
another style.  The two lexers take the same steps: whenever one takes a token from a
piece of the text, the other takes a token of the same kind, on the same line and in the
same column, from that piece in the other style.
-/

namespace TemplateCompiler

open Text

variable {style : BreakStyle} {mode : LexMode} {text read piece : List Char}

/-- Whether a kind is script code with a string that goes on behind a line feed because a
backslash stands before it. -/
def TokenKind.protectsBreak : TokenKind → Bool
  | .scriptCode code => Lex.protectsBreak .code code.toList
  | _ => false

/-- The style of line breaks does not change what a token is called. -/
@[simp]
theorem TokenKind.name_written (kind : TokenKind) :
    (kind.written style mode piece).name = kind.name := by
  cases kind <;> rfl

theorem TokenKind.isFrontMatter_written (kind : TokenKind) (position otherPosition : Position) :
    Token.isFrontMatter ⟨kind.written style mode piece, otherPosition⟩ =
      Token.isFrontMatter ⟨kind, position⟩ := by
  cases kind <;> rfl

/-- A token that was read from a piece behind some other text, and the token that was read
from the piece in another style. -/
structure Token.RespelledAt (style : BreakStyle) (mode : LexMode) (before piece : List Char)
    (token other : Token) : Prop where
  lineEq : other.position.line = token.position.line
  columnEq : other.position.column = token.position.column
  offsetEq : token.position.offset = byteLength before
  lengthEq : token.position.length = some (byteLength piece)
  otherOffsetEq : other.position.offset = byteLength (respell style before)
  otherLengthEq : other.position.length = some (byteLength (respell style piece))
  kindEq : token.kind = token.kind.written .feed mode piece
  otherKindEq : other.kind = token.kind.written style mode piece

/-- A token of a text, and the token of the text in another style. -/
def Token.Respelled (style : BreakStyle) (mode : LexMode) (text : List Char)
    (token other : Token) : Prop :=
  ∃ before piece, before ++ piece <+: text ∧ token.RespelledAt style mode before piece other

theorem Token.Respelled.name_eq {token other : Token}
    (respelled : token.Respelled style mode text other) : other.kind.name = token.kind.name := by
  obtain ⟨before, piece, -, read⟩ := respelled
  rw [read.otherKindEq, TokenKind.name_written]

theorem Token.map_name_of_respelled {tokens others : List Token}
    (pairs : List.Forall₂ (Token.Respelled style mode text) tokens others) :
    others.map (·.kind.name) = tokens.map (·.kind.name) := by
  induction pairs with
  | nil => rfl
  | cons respelled _ ih => rw [List.map_cons, List.map_cons, ih, respelled.name_eq]

namespace Lexer

variable {lexer other after : Lexer} {token : Token} {tokens : List Token}

/-- Two lexers that have read the same of a text and of the text in another style, and
hold nothing. -/
structure Respells (style : BreakStyle) (text read : List Char) (lexer other : Lexer) :
    Prop where
  ahead : Cursor.Respells style text read lexer.ahead other.ahead
  modesEq : other.modes = lexer.modes
  empty : lexer.lookahead = []
  otherEmpty : other.lookahead = []
  followsEq : other.followsFrontMatter = lexer.followsFrontMatter

theorem Respells.noReturn_ahead (respells : lexer.Respells style text read other)
    (noReturn : '\r' ∉ text) : '\r' ∉ lexer.ahead.rest := fun mem =>
  noReturn (respells.ahead.hasRead.sourceEq ▸ List.mem_append_right read mem)

theorem respells_pushMode (style : BreakStyle) (mode : LexMode) (text : List Char) :
    Respells style text [] ((ofText text).pushMode mode)
      ((ofText (respell style text)).pushMode mode) :=
  ⟨Cursor.respells_ofText style text, rfl, rfl, rfl, rfl⟩

theorem Respells.mode_eq (respells : lexer.Respells style text read other) :
    other.mode = lexer.mode := by
  rw [mode, mode, respells.modesEq]

/-- A lexer that holds nothing takes a token by scanning it. -/
theorem scan_of_next (empty : lexer.lookahead = [])
    (taken : next lexer = .ok (some token) after) :
    ∃ scanned later, scan lexer = .ok (some scanned) later ∧ token = scanned.token ∧
      after = (lexer.hold scanned).giveOut scanned [] := by
  cases found : scan lexer with
  | error error failed => simp [next_of_failed empty found] at taken
  | ok scanned? later =>
      cases scanned? with
      | none => simp [next_of_ended empty found] at taken
      | some scanned =>
          rw [next_of_found empty found] at taken
          obtain ⟨tokenEq, rfl⟩ := EStateM.Result.ok.inj taken
          exact ⟨scanned, later, rfl, (Option.some.inj tokenEq).symm, rfl⟩

theorem scan_of_scanAt {lexeme : Lex.Lexeme}
    (unfinished : ¬(lexer.mode = .frontMatter ∧ lexer.followsFrontMatter = true))
    (scanned : scanAt lexer.mode lexer.ahead = .ok (some lexeme)) :
    ∃ later, scan lexer = .ok (some (scannedOf lexer.ahead lexeme)) later := by
  rw [scan]
  simp only [if_neg unfinished, scanned]
  exact ⟨_, rfl⟩

/-- What the scan of one lexer finds, the scan of the other finds in its style. -/
theorem Respells.scanAt_eq (respells : lexer.Respells style text read other)
    (noReturn : '\r' ∉ text) {lexeme : Lex.Lexeme}
    (found : scanAt lexer.mode lexer.ahead = .ok (some lexeme))
    (kept : lexeme.kind.protectsBreak = false) :
    scanAt other.mode other.ahead =
      .ok (some ⟨lexeme.kind.written style lexer.mode (lexer.ahead.rest.take lexeme.length),
        (respell style (lexer.ahead.rest.take lexeme.length)).length⟩) := by
  have scans := respells_scanAt lexer.mode respells.ahead (respells.noReturn_ahead noReturn)
    fun code length isCode => by
      rw [found] at isCode
      obtain rfl := Option.some.inj (Except.ok.inj isCode)
      exact kept
  rw [found] at scans
  rw [respells.mode_eq]
  exact scans

theorem Respells.refl (respells : lexer.Respells style text read other) :
    lexer.Respells .feed text read lexer where
  ahead := ⟨respells.ahead.hasRead, by simpa only [respell_feed] using respells.ahead.hasRead, rfl,
    rfl⟩
  modesEq := rfl
  empty := respells.empty
  otherEmpty := respells.empty
  followsEq := rfl

theorem scannedOf_advanceBy (cursor : Cursor) (lexeme : Lex.Lexeme) :
    scannedOf cursor lexeme =
      ⟨⟨lexeme.kind, cursor.mark.position.withLength
        (byteLength (cursor.rest.take lexeme.length))⟩, Cursor.advanceBy lexeme.length cursor⟩ := by
  simp only [scannedOf, Cursor.advanceBy_offset, Nat.add_sub_cancel_left]

/-- Where one lexer takes a token, the other takes the token in its style. -/
theorem Respells.next_some (respells : lexer.Respells style text read other)
    (noReturn : '\r' ∉ text) (taken : next lexer = .ok (some token) after)
    (kept : token.kind.protectsBreak = false) :
    ∃ piece otherToken otherAfter, next other = .ok (some otherToken) otherAfter ∧
      after.Respells style text (read ++ piece) otherAfter ∧ read ++ piece <+: text ∧
      token.RespelledAt style lexer.mode read piece otherToken := by
  obtain ⟨scanned, later, found, rfl, rfl⟩ := scan_of_next respells.empty taken
  obtain ⟨unfinished, ⟨lexeme, scannedAt, rfl⟩, -⟩ := scan_found found
  -- That the token itself is what is written in the piece is the case of the same style.
  have kindEq := respells.refl.scanAt_eq noReturn scannedAt kept
  have otherEq := respells.scanAt_eq noReturn scannedAt kept
  have otherUnfinished : ¬(other.mode = .frontMatter ∧ other.followsFrontMatter = true) := by
    rwa [respells.mode_eq, respells.followsEq]
  obtain ⟨otherLater, otherFound⟩ := scan_of_scanAt otherUnfinished otherEq
  obtain ⟨piece, pieceEq⟩ : ∃ piece, lexer.ahead.rest.take lexeme.length = piece := ⟨_, rfl⟩
  have aheadEq : (scannedOf lexer.ahead lexeme).stop =
      Cursor.advanceBy piece.length lexer.ahead := by
    rw [← pieceEq, Cursor.advanceBy_take]
    rfl
  have within : piece <+: lexer.ahead.rest := pieceEq ▸ List.take_prefix _ _
  have noReturnPiece : '\r' ∉ piece := fun mem =>
    respells.noReturn_ahead noReturn (within.subset mem)
  have aheadAfter := respells.ahead.advanceBy noReturnPiece within
  rw [← aheadEq] at aheadAfter
  rw [pieceEq] at kindEq otherFound
  rw [respell_feed] at kindEq
  refine ⟨piece, _, _, next_of_found respells.otherEmpty otherFound, ?_, ?_, ?_⟩
  · exact ⟨aheadAfter, respells.modesEq, rfl, rfl,
      TokenKind.isFrontMatter_written _ _ _⟩
  · obtain ⟨tail, restEq⟩ := within
    exact ⟨tail, by rw [List.append_assoc, restEq, respells.ahead.hasRead.sourceEq]⟩
  · have otherWithin :
        other.ahead.rest.take (respell style piece).length = respell style piece := by
      rw [respells.ahead.rest_eq, ← pieceEq, take_respell]
    rw [scannedOf_advanceBy, scannedOf_advanceBy, pieceEq, otherWithin]
    exact
      { lineEq := respells.ahead.lineEq
        columnEq := respells.ahead.columnEq
        offsetEq := respells.ahead.hasRead.offsetEq
        lengthEq := rfl
        otherOffsetEq := respells.ahead.otherHasRead.offsetEq
        otherLengthEq := rfl
        kindEq := congrArg Lex.Lexeme.kind
          (Option.some.inj (Except.ok.inj (scannedAt.symm.trans kindEq)))
        otherKindEq := rfl }

/-- Where one lexer is at the end, the other is at the end. -/
theorem Respells.next_none (respells : lexer.Respells style text read other)
    (noReturn : '\r' ∉ text) (ended : next lexer = .ok none after) :
    next other = .ok none other := by
  obtain ⟨-, -, scanned⟩ := next_eq_none ended
  apply next_of_ended respells.otherEmpty
  unfold scan at scanned ⊢
  rw [respells.mode_eq, respells.followsEq]
  split at scanned
  · next finished => rw [if_pos finished]
  · next unfinished =>
      rw [if_neg unfinished]
      simp only at scanned ⊢
      split at scanned
      · next found =>
          have scans := respells_scanAt lexer.mode respells.ahead
            (respells.noReturn_ahead noReturn) fun code length isCode => by
              simp [found, Lex.Scan.found] at isCode
          rw [found] at scans
          rw [show scanAt lexer.mode other.ahead = .ok none from scans]
      · simp at scanned
      · simp at scanned

/-- Where taking tokens from one lexer comes to an end, so does taking them from the
other. -/
theorem Drains.respelled {tokens : List Token} (drains : Drains lexer (.ok tokens after))
    (respells : lexer.Respells style text read other) (noReturn : '\r' ∉ text)
    (kept : ∀ token ∈ tokens, token.kind.protectsBreak = false) :
    ∃ others behind, Drains other (.ok others behind) ∧
      List.Forall₂ (Token.Respelled style lexer.mode text) tokens others := by
  generalize resultEq : EStateM.Result.ok tokens after = result at drains
  induction drains generalizing tokens read other with
  | ended none =>
      obtain ⟨rfl, rfl⟩ := EStateM.Result.ok.inj resultEq
      exact ⟨[], other, .ended (respells.next_none noReturn none), .nil⟩
  | failed fails => contradiction
  | @took lexer between last token later taken drains ih =>
      obtain ⟨rfl, rfl⟩ := EStateM.Result.ok.inj resultEq
      obtain ⟨piece, otherToken, otherBetween, otherTaken, respellsThen, within, respelled⟩ :=
        respells.next_some noReturn taken (kept token List.mem_cons_self)
      obtain ⟨others, behind, otherDrains, pairs⟩ :=
        ih respellsThen (fun token mem => kept token (List.mem_cons_of_mem _ mem)) rfl
      obtain ⟨steps, -⟩ := next_eq_some taken
      rw [mode, steps.modes_eq, ← mode] at pairs
      exact ⟨otherToken :: others, behind, .took otherTaken otherDrains,
        .cons ⟨read, piece, within, respelled⟩ pairs⟩
  | tookThenFailed taken drains ih => contradiction

/-- Collecting the tokens of a text whose lines end with line feeds, and of the text with
its line breaks in another style: if the one succeeds the other does, with the same kinds of
tokens on the same lines and in the same columns, read from the same pieces. -/
theorem collect_respelled {mode : LexMode} (noReturn : '\r' ∉ text)
    (collected : collect ((ofText text).pushMode mode) = .ok tokens after)
    (kept : ∀ token ∈ tokens, token.kind.protectsBreak = false) (style : BreakStyle) :
    ∃ others behind, collect ((ofText (respell style text)).pushMode mode) = .ok others behind ∧
      others.map (·.kind.name) = tokens.map (·.kind.name) ∧
      List.Forall₂ (Token.Respelled style mode text) tokens others := by
  obtain ⟨others, behind, drains, pairs⟩ := (collected ▸ drains_collect _).respelled
    (respells_pushMode style mode text) noReturn kept
  exact ⟨others, behind, (drains_collect _).unique drains, Token.map_name_of_respelled pairs,
    pairs⟩

/-- The kinds of the tokens of a text in a mode. -/
def collectedKinds? (mode : LexMode) (text : List Char) : Option (List TokenKind) :=
  match collect ((ofText text).pushMode mode) with
  | .ok tokens _ => some (tokens.map (·.kind))
  | .error _ _ => none

theorem collectedKinds?_eq (collected : collect ((ofText text).pushMode mode) = .ok tokens after) :
    collectedKinds? mode text = some (tokens.map (·.kind)) := by
  rw [collectedKinds?, collected]

theorem exists_of_collectedKinds? {kinds : List TokenKind}
    (collected : collectedKinds? mode text = some kinds)
    (kept : kinds.all fun kind => !kind.protectsBreak) :
    ∃ tokens after, collect ((ofText text).pushMode mode) = .ok tokens after ∧
      tokens.map (·.kind) = kinds ∧ ∀ token ∈ tokens, token.kind.protectsBreak = false := by
  rw [collectedKinds?] at collected
  cases ran : collect ((ofText text).pushMode mode) with
  | error error after => simp [ran] at collected
  | ok tokens after =>
      obtain rfl : tokens.map (·.kind) = kinds := by simpa [ran] using collected
      exact ⟨tokens, after, rfl, rfl, by simpa using kept⟩

/-- A string with a line break and with a line feed that is written as an escape. -/
def brokenString : List Char :=
  "\"a\n\\n\" \n".toList

/-- Script code with a backslash before a line break in a template literal and in a
comment. -/
def brokenScript : List Char :=
  "\x60\\\n\x60 // \\\n'\\''".toList

theorem collect_respelled_broken :
    (∃ tokens after others behind, '\r' ∉ brokenString ∧
      collect ((ofText brokenString).pushMode .tag) = .ok tokens after ∧
      (∀ token ∈ tokens, token.kind.protectsBreak = false) ∧
      tokens.map (·.kind) = [.string "a\n\n", .whitespace " \n"] ∧
      collect ((ofText (respell .pair brokenString)).pushMode .tag) = .ok others behind ∧
      others.map (·.kind) = [.string "a\r\n\n", .whitespace " \r\n"] ∧
      List.Forall₂ (Token.Respelled .pair .tag brokenString) tokens others) ∧
    ∃ tokens after others behind, '\r' ∉ brokenScript ∧
      collect ((ofText brokenScript).pushMode .script) = .ok tokens after ∧
      (∀ token ∈ tokens, token.kind.protectsBreak = false) ∧
      collect ((ofText (respell .pair brokenScript)).pushMode .script) = .ok others behind ∧
      List.Forall₂ (Token.Respelled .pair .script brokenScript) tokens others := by
  have stringKinds : collectedKinds? .tag brokenString =
      some [.string "a\n\n", .whitespace " \n"] := by decide +kernel
  have otherStringKinds : collectedKinds? .tag (respell .pair brokenString) =
      some [.string "a\r\n\n", .whitespace " \r\n"] := by decide +kernel
  have scriptKinds : collectedKinds? .script brokenScript =
      some [.scriptCode (String.ofList brokenScript)] := by decide +kernel
  constructor
  · obtain ⟨tokens, after, collected, kindsEq, kept⟩ := exists_of_collectedKinds? stringKinds rfl
    obtain ⟨others, behind, otherCollected, -, pairs⟩ :=
      collect_respelled (by decide) collected kept .pair
    have otherKindsEq := (collectedKinds?_eq otherCollected).symm.trans otherStringKinds
    exact ⟨tokens, after, others, behind, by decide, collected, kept, kindsEq, otherCollected,
      Option.some.inj otherKindsEq, pairs⟩
  · obtain ⟨tokens, after, collected, -, kept⟩ :=
      exists_of_collectedKinds? scriptKinds (by decide +kernel)
    obtain ⟨others, behind, otherCollected, -, pairs⟩ :=
      collect_respelled (by decide) collected kept .pair
    exact ⟨tokens, after, others, behind, by decide, collected, kept, otherCollected, pairs⟩

/-- A line feed that is written as an escape is the same in every style, and a string of
a script that goes on behind a line feed is cut short when the line break is a pair. -/
theorem collect_not_respelled :
    (collectedKinds? .tag "\"\\n\"\n".toList = some [.string "\n", .whitespace "\n"] ∧
      collectedKinds? .tag (respell .pair "\"\\n\"\n".toList) ≠
        some ([.string "\n", .whitespace "\n"].map (TokenKind.respell .pair))) ∧
    collectedKinds? .script "\"\\\n\x7d\x7d\"".toList =
      some [.scriptCode "\"\\\n\x7d\x7d\""] ∧
    collectedKinds? .script (respell .pair "\"\\\n\x7d\x7d\"".toList) =
      some [.scriptCode "\"\\\r\n", .interpolationEnd, .scriptCode "\""] := by
  decide +kernel

end Lexer

end TemplateCompiler
