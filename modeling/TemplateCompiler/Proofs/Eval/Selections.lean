import TemplateCompiler.Proofs.Eval.Diagnostics
import TemplateCompiler.Proofs.Lex.Faults
import TemplateCompiler.Proofs.Source.Boundaries

/-!
# What diagnostics select

The span of a diagnostic is meant to select whole characters of the source.  Spans
that are built from tokens do.  A lexical error is one byte wide wherever it is
reported, which selects one character if that character is an ASCII one.  It always is,
except where a character outside of ASCII begins no token: then the span ends inside
of the character.
-/

namespace TemplateCompiler

open Text

namespace Position

/-- Whether the bytes that a place covers begin and end at boundaries of a text. -/
def IsWhole (text : List Char) (position : Position) : Prop :=
  IsBoundary text position.offset ∧ IsBoundary text (position.offset + position.length.getD 0)

variable {text : List Char} {position : Position}

theorem span_eq_of_le (short : byteLength text ≤ maxOffset)
    (le : position.offset + position.length.getD 0 ≤ byteLength text) :
    position.span = ⟨position.offset, position.offset + position.length.getD 0⟩ := by
  rw [span, Nat.min_eq_left (le.trans short)]

theorem IsWhole.withLength {stop : Nat} (whole : position.IsWhole text)
    (boundary : IsBoundary text stop) :
    (position.withLength (stop - position.offset)).IsWhole text := by
  refine ⟨whole.1, ?_⟩
  have stopEq : position.offset + (stop - position.offset) = max position.offset stop := by
    omega
  change IsBoundary text (position.offset + (stop - position.offset))
  rw [stopEq]
  exact whole.1.max boundary

theorem IsWhole.endOffset (whole : position.IsWhole text) (short : byteLength text ≤ maxOffset) :
    IsBoundary text position.endOffset := by
  rw [Position.endOffset, span_eq_of_le short whole.2.le]
  exact whole.2

theorem IsWhole.selects (whole : position.IsWhole text) (short : byteLength text ≤ maxOffset) :
    ∃ piece, position.span.Selects text piece := by
  rw [span_eq_of_le short whole.2.le]
  exact Span.exists_selects (Nat.le_add_right _ _) whole.1 whole.2

end Position

theorem Cursor.Within.isWhole {text : List Char} {cursor : Cursor} (within : cursor.Within text) :
    cursor.mark.position.IsWhole text := by
  obtain ⟨-, read, hasRead⟩ := within
  have boundary : IsBoundary text cursor.mark.offset :=
    ⟨read, cursor.rest, hasRead.sourceEq, hasRead.offsetEq⟩
  exact ⟨boundary, boundary⟩

/-- Whether a lexical error is reported, one byte wide, at a character of a text, and
at an ASCII one unless no token begins with the character. -/
def Lex.Error.IsMarked (text : List Char) (error : Lex.Error) : Prop :=
  ∃ before c after, text = before ++ c :: after ∧ error.position.offset = byteLength before ∧
    error.position.length = some 1 ∧ (c.utf8Size = 1 ∨ ∃ mode, error.cause = .unexpectedChar c mode)

/-- A fault in the text ahead of a cursor is an error at a character of the source. -/
theorem Lex.Fault.IsMarked.error {text : List Char} {cursor : Cursor} {fault : Lex.Fault}
    (marked : fault.IsMarked cursor.rest) (within : cursor.Within text) :
    (Lex.Error.atMark fault.cause (cursor.advanceBy fault.anchor).mark).IsMarked text := by
  obtain ⟨before, c, after, restEq, anchorEq, reason⟩ := marked
  obtain ⟨-, read, hasRead⟩ := within
  have ahead : before <+: cursor.rest := ⟨c :: after, restEq.symm⟩
  have hasReadThen := hasRead.advanceBy ahead
  refine ⟨read ++ before, c, after, ?_, ?_, rfl, reason⟩
  · rw [hasRead.sourceEq, restEq, List.append_assoc]
  · rw [anchorEq]
    exact hasReadThen.offsetEq

/-- The places of whole characters of a text. -/
def Places.whole (text : List Char) : Places where
  cursor := Cursor.Within text
  position := Position.IsWhole text
  error := Lex.Error.IsMarked text

theorem Places.closed_whole {text : List Char} (short : byteLength text ≤ maxOffset) :
    (Places.whole text).Closed where
  scan mode cursor within := by
    have anchors := Lexer.anchors_scanAt mode cursor
    split
    · trivial
    · next lexeme scanned =>
        have behind := Cursor.Within.advanceBy within lexeme.length
        exact ⟨(Cursor.Within.isWhole within).withLength behind.isWhole.1, behind⟩
    · next fault scanned =>
        rw [scanned] at anchors
        exact (Lex.Fault.IsAnchored.isMarked anchors).error within
  start := (Cursor.within_ofText text).isWhole
  point _ within := Cursor.Within.isWhole within
  upTo _ _ whole within := whole.withLength (Cursor.Within.isWhole within).1
  joined _ _ whole wholeThen := whole.withLength (wholeThen.endOffset short)

theorem Lex.Cause.stage_code (cause : Lex.Cause) : cause.code.stage = .lexer := by
  cases cause <;> rfl

theorem Parse.Cause.stage_code (cause : Parse.Cause) : cause.code.stage = .parser := by
  cases cause <;> rfl

theorem Eval.Cause.stage_code (cause : Eval.Cause) : cause.code.stage = .evaluator := by
  cases cause <;> rfl

/-- What a diagnostic at a place selects.  Outside of lexical errors its span selects a
piece of the text.  A lexical error is reported at a character and covers the first byte
of it, so it selects the character, unless that takes more bytes and begins no token. -/
structure Diagnostic.SelectsAt (text : List Char) (diagnostic : Diagnostic)
    (position : Position) : Prop where
  piece : diagnostic.stage ≠ .lexer → ∃ piece, position.span.Selects text piece
  character : diagnostic.stage = .lexer → ∃ before c after, text = before ++ c :: after ∧
    position.span = ⟨byteLength before, byteLength before + 1⟩ ∧
    (position.span.Selects text [c] ∨ 1 < c.utf8Size ∧ ∃ mode,
      diagnostic.code = .unexpectedChar ∧
      diagnostic.message = (Lex.Cause.unexpectedChar c mode).message)

section Stages

variable {text : List Char}

theorem Lex.Error.IsMarked.selectsAt {error : Lex.Error} (marked : error.IsMarked text)
    (short : byteLength text ≤ maxOffset) : error.diagnostic.SelectsAt text error.position := by
  refine ⟨fun notLexical => absurd error.cause.stage_code notLexical, fun _ => ?_⟩
  obtain ⟨before, c, after, textEq, offsetEq, lengthEq, reason⟩ := marked
  have positive := c.utf8Size_pos
  have within : byteLength before + 1 ≤ byteLength text := by
    rw [textEq, byteLength_append, byteLength_cons]
    omega
  have spanEq : error.position.span = ⟨byteLength before, byteLength before + 1⟩ := by
    rw [Position.span_eq_of_le short (by simpa [offsetEq, lengthEq] using within), offsetEq,
      lengthEq]
    rfl
  refine ⟨before, c, after, textEq, spanEq, ?_⟩
  by_cases narrow : c.utf8Size = 1
  · exact .inl ⟨before, after, textEq, by simp [spanEq, narrow]⟩
  · obtain ⟨mode, causeEq⟩ := reason.resolve_left narrow
    refine .inr ⟨by omega, mode, ?_, ?_⟩
    · exact congrArg Lex.Cause.code causeEq
    · exact congrArg Lex.Cause.message causeEq

theorem Parse.Error.selectsAt {cause : Parse.Cause} {position : Position}
    (whole : position.IsWhole text) (short : byteLength text ≤ maxOffset) :
    (Parse.Error.grammatical cause position).diagnostic.SelectsAt text position := by
  refine ⟨fun _ => whole.selects short, fun lexical => ?_⟩
  change cause.code.stage = .lexer at lexical
  rw [cause.stage_code] at lexical
  contradiction

theorem Eval.Error.selectsAt {error : Eval.Error} (whole : error.position.IsWhole text)
    (short : byteLength text ≤ maxOffset) : error.diagnostic.SelectsAt text error.position := by
  refine ⟨fun _ => whole.selects short, fun lexical => ?_⟩
  change error.cause.code.stage = .lexer at lexical
  rw [error.cause.stage_code] at lexical
  contradiction

end Stages

/-- Whatever stage refuses a source, the diagnostic has a position, and it selects what
it should there. -/
theorem Source.diagnostic_selectsAt {source : Source} {data : Json} {settings : Html.Settings}
    {diagnostic : Diagnostic} (short : source.byteLength ≤ maxOffset)
    (failed : source.compile data settings = .error diagnostic) :
    ∃ position, diagnostic.position = some position ∧
      diagnostic.SelectsAt source.text.toList position := by
  have shortText : Text.byteLength source.text.toList ≤ maxOffset :=
    (byteLength_toList source.text).trans_le short
  have read := Places.of_parse (Places.closed_whole shortText) source.text
    (Cursor.within_ofText _)
  unfold Source.compile at failed
  rcases source.evaluate_cases data with ⟨error, parsed, refused⟩ | ⟨template, parsed, found⟩
  · rw [refused] at failed
    cases failed
    rw [parsed] at read
    cases error with
    | lexical error => exact ⟨_, rfl, Lex.Error.IsMarked.selectsAt read shortText⟩
    | grammatical cause position => exact ⟨_, rfl, Parse.Error.selectsAt read shortText⟩
  · rw [parsed] at read
    rw [found] at failed
    cases evaluated : template.evaluate data with
    | ok document =>
        rw [evaluated] at failed
        contradiction
    | error error =>
        rw [evaluated] at failed
        cases failed
        have whole := read _ (Eval.position_of_evaluate evaluated)
        exact ⟨_, rfl, Eval.Error.selectsAt whole shortText⟩

/-- A string with an unknown escape, behind a character of two bytes. -/
def Source.unknownEscape : Source :=
  ⟨"escape", "é<a b=\"\\q\"/>"⟩

theorem Source.diagnostic_selectsAt_unknownEscape :
    unknownEscape.byteLength ≤ maxOffset ∧
      ∃ diagnostic, unknownEscape.compile .null .standard = .error diagnostic ∧
        ∃ position, diagnostic.position = some position ∧
          diagnostic.SelectsAt unknownEscape.text.toList position := by
  have short : unknownEscape.byteLength ≤ maxOffset := by decide
  have fails : (unknownEscape.compile .null .standard).toBool = false := by decide +kernel
  cases failed : unknownEscape.compile .null .standard with
  | ok compiled =>
      rw [failed] at fails
      contradiction
  | error diagnostic => exact ⟨short, diagnostic, rfl, Source.diagnostic_selectsAt short failed⟩

/-- A tag that begins with a letter outside of ASCII. -/
def Source.accentedTag : Source :=
  ⟨"accent", "<é>"⟩

/-- The error in this tag is lexical, but its span ends inside of the character. -/
theorem Source.accentedTag_not_selects :
    ∃ diagnostic position, accentedTag.compile .null .standard = .error diagnostic ∧
      diagnostic.stage = .lexer ∧ diagnostic.position = some position ∧
      ¬ IsBoundary accentedTag.text.toList position.span.stop ∧
      ¬ ∃ piece, position.span.Selects accentedTag.text.toList piece := by
  have found : (match accentedTag.compile .null .standard with
      | .ok _ => none
      | .error diagnostic => some (diagnostic.stage, diagnostic.position)) =
        some (.lexer, some ⟨1, 2, 1, some 1⟩) := by
    decide +kernel
  have notBoundary : ¬ IsBoundary (['<'] ++ 'é' :: ['>']) (Text.byteLength ['<'] + 1) :=
    not_isBoundary_inside Nat.one_pos (by decide)
  cases failed : accentedTag.compile .null .standard with
  | ok compiled =>
      rw [failed] at found
      contradiction
  | error diagnostic =>
      rw [failed] at found
      obtain ⟨stageEq, positionEq⟩ := Prod.mk.inj (Option.some.inj found)
      refine ⟨diagnostic, _, rfl, stageEq, positionEq, notBoundary, ?_⟩
      rintro ⟨piece, selects⟩
      exact notBoundary selects.isBoundary.2

end TemplateCompiler
