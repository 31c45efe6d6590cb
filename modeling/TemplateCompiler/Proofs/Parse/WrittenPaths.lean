import TemplateCompiler.Proofs.Lex.Numerals
import TemplateCompiler.Proofs.Parse.Building
import TemplateCompiler.Proofs.Parse.Running
import TemplateCompiler.Proofs.Template.Paths

/-!
# How paths are read

A path is read back as the segments that are written, however the lexer divides it.  Two
positions beside each other are one number with a fraction to the lexer, and a position
before a name that begins with an `e` has no exponent, for the point stands between them.
The induction over the segments takes one of them, or both positions that are read as one
number.
-/

namespace TemplateCompiler

open Written

namespace Lex

variable {digits fraction tail : List Char}

/-- Digits are scanned as a number with the fraction that is behind them. -/
theorem scanExpression_digits (isRun : digits ∈ digitRuns)
    (isFraction : BeginsWithLongest (1 + fractions) fraction (fraction ++ tail))
    (noDigit : Stops Char.isDigit (fraction ++ tail)) (noExponent : BeginsWithNone exponents tail) :
    ∃ value, scanExpression (digits ++ (fraction ++ tail)) =
      .found (.number value) (digits ++ fraction).length := by
  have noSign : Stops ['+', '-'].contains (digits ++ (fraction ++ tail)) :=
    (opensOutside_digits (by decide)).stops_append nil_notMem_digitRuns isRun (fraction ++ tail)
  have isLongest := beginsWithLongest_numerals (beginsWithNone_oneOf noSign).optional rfl
    (endsBefore_digitRuns noDigit digits isRun) rfl isFraction rfl noExponent.optional
  rw [List.nil_append, List.append_nil] at isLongest
  obtain ⟨value, -, valueEq⟩ := exists_value?_eq isLongest.isWord
  have read := readNumber?_eq_some_iff.2 ⟨_, isLongest, valueEq, rfl⟩
  cases digits with
  | nil => exact absurd isRun nil_notMem_digitRuns
  | cons c digits => exact ⟨value, scanExpression_of_isDigit (isRun.2 c List.mem_cons_self) read⟩

end Lex

namespace Parser

open Parse

variable {tail : List Char} {bound : Nat}

/-- A path ends before a text. -/
structure EndsPath (text : List Char) : Prop where
  stops : Lex.Stops CharClass.isVariablePart text
  noPoint : Refuses .expression (· == .punctuation .dot) text

theorem scanIn_variableName (name : VariableName)
    (stops : Lex.Stops CharClass.isVariablePart tail) :
    Lex.scanIn .expression (name.text.toList ++ tail) =
      .ok (some ⟨.identifier name.text, name.text.toList.length⟩) := by
  have found : Lex.scanIn .expression _ = _ := Lex.scanExpression_name name.isName stops
  rwa [Lex.wordKind_of_not_boolean name.notBoolean, String.ofList_toList] at found

theorem variableName_yields {what : String} (name : VariableName)
    (stops : Lex.Stops CharClass.isVariablePart tail) :
    Yields (expectIdentifier what) .expression name.text.toList tail fun named =>
      named.1 = name.text :=
  expectIdentifier_yields (scanIn_variableName name stops)

section Segments

theorem scanIn_dot (text : List Char) :
    Lex.scanIn .expression (['.'] ++ text) = .ok (some ⟨.punctuation .dot, 1⟩) :=
  rfl

theorem EndsPath.noFraction (ends : EndsPath tail) : Lex.BeginsWithNone Lex.fractions tail := by
  refine (Lex.beginsWithNone_oneOf fun c head => ?_).mul
  rw [← Bool.not_eq_true]
  intro isPoint
  obtain rfl : c = '.' := by simpa using isPoint
  obtain ⟨text, rfl⟩ := List.head?_eq_some_iff.1 head
  obtain ⟨lexeme?, scanned, refused⟩ := ends.noPoint
  obtain rfl := Except.ok.inj ((scanIn_dot text).symm.trans scanned)
  contradiction

theorem stops_isDigit {text : List Char} (stops : Lex.Stops CharClass.isVariablePart text) :
    Lex.Stops Char.isDigit text := by
  intro c head
  have notPart := stops c head
  rw [← Bool.not_eq_true]
  intro digit
  simp [CharClass.isVariablePart, Char.isAlphanum, digit] at notPart

theorem noExponent_of_stops {text : List Char} (stops : Lex.Stops CharClass.isVariablePart text) :
    Lex.BeginsWithNone Lex.exponents text := by
  refine (Lex.beginsWithNone_oneOf fun c head => ?_).mul
  have notPart := stops c head
  rw [← Bool.not_eq_true]
  intro isLetter
  obtain rfl | rfl : c = 'e' ∨ c = 'E' := by simpa using isLetter
  all_goals exact absurd notPart (by decide)

theorem stops_segmentsSource (segments : List Segment)
    (stops : Lex.Stops CharClass.isVariablePart tail) :
    Lex.Stops CharClass.isVariablePart (segmentsSource segments ++ tail) := by
  cases segments with
  | nil => exact stops
  | cons segment segments =>
      rintro _ ⟨⟩
      rfl

/-- Positions are divided as they were written. -/
theorem positions?_eq (first : Digits) (others : List Digits) :
    positions? (['.'].intercalate ((first :: others).map (·.text.toList))) =
      some ((first :: others).map (·.text)) := by
  have divided : Text.pieces '.' (['.'].intercalate ((first :: others).map (·.text.toList))) =
      (first :: others).map (·.text.toList) := by
    rw [Text.pieces_eq_splitOn]
    apply List.splitOn_intercalate
    · exact List.forall_mem_map.2 fun digits _ => digits.not_mem (by decide)
    · exact List.cons_ne_nil _ _
  have allPositions : ((first :: others).map (·.text.toList)).all
      (fun piece => !piece.isEmpty && piece.all Char.isDigit) = true := by
    rw [List.all_eq_true, List.forall_mem_map]
    intro digits _
    simpa [digits.nonempty] using digits.digits
  rw [positions?]
  simp only [divided, allPositions, if_true, List.map_map]
  rw [show String.ofList ∘ (fun digits : Digits => digits.text.toList) = (·.text) from
    funext fun digits => String.ofList_toList]

theorem scanIn_position (digits : Digits) (noFraction : Lex.BeginsWithNone Lex.fractions tail)
    (stops : Lex.Stops CharClass.isVariablePart tail) :
    ∃ value, Lex.scanIn .expression (digits.text.toList ++ tail) =
      .ok (some ⟨.number value, digits.text.toList.length⟩) := by
  have noDigit : Lex.Stops Char.isDigit ([] ++ tail) := stops_isDigit stops
  obtain ⟨value, scanned⟩ := Lex.scanExpression_digits ⟨digits.nonempty, digits.digits⟩
    noFraction.optional noDigit (noExponent_of_stops stops)
  rw [List.append_nil] at scanned
  exact ⟨value, scanned⟩

/-- Two positions beside each other are one number. -/
theorem scanIn_positions (first second : Digits)
    (stops : Lex.Stops CharClass.isVariablePart tail) :
    ∃ value, Lex.scanIn .expression (first.text.toList ++ '.' :: second.text.toList ++ tail) =
      .ok (some ⟨.number value, (first.text.toList ++ '.' :: second.text.toList).length⟩) := by
  have isPoint : ['.'] ∈ Lex.oneOf ['.'] := ⟨'.', List.mem_singleton_self '.', rfl⟩
  have isRun : second.text.toList ∈ Lex.digitRuns := ⟨second.nonempty, second.digits⟩
  have isFraction := Language.append_mem_mul isPoint isRun
  have isLongest := Lex.endsBefore_fractions (stops_isDigit stops) _ isFraction
  obtain ⟨value, scanned⟩ := Lex.scanExpression_digits ⟨first.nonempty, first.digits⟩
    isLongest.optional (Lex.stops_cons.2 rfl) (noExponent_of_stops stops)
  exact ⟨value, by rw [List.append_assoc]; exact scanned⟩

/-- No fraction begins before a name. -/
theorem noFraction_property (name : VariableName) (segments : List Segment) :
    Lex.BeginsWithNone Lex.fractions (segmentsSource (.property name :: segments) ++ tail) := by
  obtain ⟨c, rest, textEq, start, -⟩ := name.isName
  have notDigit : c.isDigit = false := by
    rw [← Bool.not_eq_true]
    intro digit
    rw [Lex.not_isVariableStart_of_isDigit digit] at start
    contradiction
  have noDigit : Lex.Stops Char.isDigit
      (name.text.toList ++ (segmentsSource segments ++ tail)) := by
    rw [textEq]
    exact Lex.stops_cons.2 notDigit
  have none := Lex.beginsWithNone_fractions (Lex.beginsWithNone_digitRuns noDigit)
  simpa [segmentsSource, Segment.text] using none

theorem Yields.nextSpelling {α : Type} {next : List Char → Parser α} {good : α → Prop}
    {mode : LexMode} {kind : TokenKind} {first rest : List Char}
    (scanned : Lex.scanIn mode (first ++ (rest ++ tail)) = .ok (some ⟨kind, first.length⟩))
    (yields : Yields (next first) mode (first ++ rest) tail good) :
    Yields (Parser.nextSpelling >>= next) mode (first ++ rest) tail good := by
  intro state modeEq restEq
  have known := next_of_rest modeEq (restEq.trans (List.append_assoc _ _ _)) scanned
  exact Meets.bind_runs (nextSpelling_runs known) (yields state modeEq restEq)

theorem length_le_segmentsSource (segments : List Segment) :
    segments.length ≤ (segmentsSource segments).length := by
  induction segments with
  | nil => exact Nat.zero_le _
  | cons segment segments ih =>
      simp only [segmentsSource, List.flatMap_cons, List.length_append, List.length_cons] at ih ⊢
      omega

variable {segments : List Segment} {result : List String}

/-- A property of the value before is read up to the next point. -/
theorem pathSegments_yields_property (name : VariableName)
    (stops : Lex.Stops CharClass.isVariablePart (segmentsSource segments ++ tail))
    (later : Yields (pathSegments bound) .expression (segmentsSource segments) tail
      fun found => found = result) :
    Yields (pathSegments (bound + 1)) .expression
      (['.'] ++ (name.text.toList ++ segmentsSource segments)) tail
      fun found => found = name.text :: result := by
  have scanned := scanIn_variableName name stops
  apply nextIs_yields_true (by rw [List.append_assoc]; exact scanIn_dot _) rfl
  apply Yields.skip (scanIn_dot _)
  apply Yields.peekKind (by rw [List.append_assoc]; exact scanned)
  apply Yields.skip scanned
  apply Yields.map later
  rintro _ rfl
  rfl

/-- A number is read as the positions it is spelled as. -/
theorem pathSegments_yields_number {number : List Char} {positions : List String} {value : Float}
    (scanned : Lex.scanIn .expression (number ++ (segmentsSource segments ++ tail)) =
      .ok (some ⟨.number value, number.length⟩))
    (positionsEq : positions? number = some positions)
    (later : Yields (pathSegments bound) .expression (segmentsSource segments) tail
      fun found => found = result) :
    Yields (pathSegments (bound + 1)) .expression (['.'] ++ (number ++ segmentsSource segments))
      tail fun found => found = positions ++ result := by
  apply nextIs_yields_true (by rw [List.append_assoc]; exact scanIn_dot _) rfl
  apply Yields.skip (scanIn_dot _)
  apply Yields.peekKind (by rw [List.append_assoc]; exact scanned)
  apply Yields.nextSpelling scanned
  simp only [positionsEq]
  apply Yields.skip scanned
  apply Yields.map later
  rintro _ rfl
  rfl

theorem pathSegments_yields (ends : EndsPath tail) :
    (segments : List Segment) → {bound : Nat} → segments.length < bound →
      Yields (pathSegments bound) .expression (segmentsSource segments) tail
        fun result => result = segments.map Segment.text
  | _, 0, enough => absurd enough (Nat.not_lt_zero _)
  | [], bound + 1, _ => nextIs_yields_false ends.noPoint (Yields.pure rfl)
  | .property name :: segments, bound + 1, enough =>
      pathSegments_yields_property name (stops_segmentsSource segments ends.stops)
        (pathSegments_yields ends segments (Nat.lt_of_succ_lt_succ enough))
  | [.position digits], bound + 1, enough => by
      obtain ⟨value, scanned⟩ := scanIn_position digits ends.noFraction ends.stops
      exact pathSegments_yields_number scanned (by simpa using positions?_eq digits [])
        (pathSegments_yields ends [] (Nat.lt_of_succ_lt_succ enough))
  | .position digits :: .property name :: segments, bound + 1, enough => by
      obtain ⟨value, scanned⟩ := scanIn_position digits (noFraction_property name segments)
        (stops_segmentsSource (.property name :: segments) ends.stops)
      exact pathSegments_yields_number scanned (by simpa using positions?_eq digits [])
        (pathSegments_yields ends (.property name :: segments) (Nat.lt_of_succ_lt_succ enough))
  | .position first :: .position second :: segments, bound + 1, enough => by
      obtain ⟨value, scanned⟩ :=
        scanIn_positions first second (stops_segmentsSource segments ends.stops)
      have fewer : segments.length < bound := by
        simp only [List.length_cons] at enough
        omega
      have yields := pathSegments_yields_number scanned
        (by simpa using positions?_eq first [second]) (pathSegments_yields ends segments fewer)
      simpa [segmentsSource, Segment.text] using yields

theorem path_yields (dotted : Dotted) (ends : EndsPath tail)
    (enough : dotted.source.length ≤ bound) :
    Yields (path bound) .expression dotted.source tail fun result => result = dotted.path := by
  have stops := stops_segmentsSource dotted.rest ends.stops
  have fewer : dotted.rest.length < bound := by
    have positive := List.length_pos_iff.2 dotted.root.nonempty
    have notLonger := length_le_segmentsSource dotted.rest
    rw [dotted.source_eq, List.length_append] at enough
    omega
  rw [dotted.source_eq]
  apply Yields.bind (variableName_yields dotted.root stops)
  rintro ⟨_, place⟩ rfl
  apply Yields.map (pathSegments_yields ends dotted.rest fewer)
  rintro _ rfl
  rfl

theorem scanIn_dotted (dotted : Dotted) (ends : EndsPath tail) :
    ∃ length, Lex.scanIn .expression (dotted.source ++ tail) =
      .ok (some ⟨.identifier dotted.root.text, length⟩) := by
  rw [dotted.source_eq, List.append_assoc]
  exact ⟨_, scanIn_variableName dotted.root (stops_segmentsSource dotted.rest ends.stops)⟩

theorem expression_yields_path (dotted : Dotted) (ends : EndsPath tail)
    (enough : dotted.source.length ≤ bound) :
    Yields (expression bound) .expression dotted.source tail
      fun result => result = .path dotted.path := by
  obtain ⟨length, scanned⟩ := scanIn_dotted dotted ends
  apply Yields.peekKind scanned
  apply Yields.map (path_yields dotted ends enough)
  rintro _ rfl
  rfl

end Segments

section Ends

theorem isVariablePart_of_isMarkupSpace {c : Char} (space : CharClass.isMarkupSpace c = true) :
    CharClass.isVariablePart c = false := by
  simp only [CharClass.isMarkupSpace, Bool.or_eq_true, beq_iff_eq] at space
  rcases space with (((rfl | rfl) | rfl) | rfl) | rfl <;> rfl

/-- White space ends a name. -/
theorem endsName_spaces {spaces text : List Char} (isSpaces : Text.IsSpaces spaces)
    (behind : spaces = [] → Lex.Stops CharClass.isVariablePart text) :
    Lex.Stops CharClass.isVariablePart (spaces ++ text) :=
  stops_spaces (fun _ => isVariablePart_of_isMarkupSpace) isSpaces behind

theorem EndsPath.spaces {spaces text : List Char} (ends : EndsPath text)
    (solid : Lex.Stops CharClass.isMarkupSpace text) (isSpaces : Text.IsSpaces spaces) :
    EndsPath (spaces ++ text) := by
  by_cases empty : spaces = []
  · subst empty
    exact ends
  · exact ⟨endsName_spaces isSpaces fun nothing => absurd nothing empty,
      .of_scanned (separates_expression spaces text empty isSpaces solid) rfl⟩

theorem endsPath_braces (text : List Char) : EndsPath (['}', '}'] ++ text) where
  stops := by
    rintro _ ⟨⟩
    rfl
  noPoint :=
    have scanned : Lex.scanIn .expression (['}', '}'] ++ text) =
        .ok (some ⟨.interpolationEnd, 2⟩) := rfl
    .of_scanned scanned rfl

theorem scanIn_rightParen (text : List Char) :
    Lex.scanIn .expression ([')'] ++ text) = .ok (some ⟨.punctuation .rightParen, 1⟩) :=
  rfl

theorem endsPath_rightParen (text : List Char) : EndsPath ([')'] ++ text) where
  stops := by
    rintro _ ⟨⟩
    rfl
  noPoint := .of_scanned (scanIn_rightParen text) rfl

end Ends

section Constructs

/-- White space before a token is passed over. -/
theorem Yields.gap {α : Type} {next : Unit → Parser α} {good : α → Prop}
    {spaces piece : List Char} {lexeme : Lex.Lexeme} (isSpaces : Text.IsSpaces spaces)
    (scanned : Lex.scanIn .expression (piece ++ tail) = .ok (some lexeme))
    (solid : lexeme.kind.isWhitespace = false) (enough : spaces.length ≤ bound)
    (yields : Yields (next ()) .expression piece tail good) :
    Yields (skipWhitespace bound >>= next) .expression (spaces ++ piece) tail good :=
  Yields.spaces separates_expression isSpaces (.of_scanned scanned solid) enough yields

variable {before : State}

/-- An interpolation is read from its braces on, with white space around its expression. -/
theorem interpolation_runs_of {early piece late : List Char} {value : Expr}
    {lexeme : Lex.Lexeme} (known : before.Next .interpolationStart ['{', '{'])
    (restEq : before.rest =
      ['{', '{'] ++ (early ++ (piece ++ (late ++ (['}', '}'] ++ tail)))))
    (earlySpaces : Text.IsSpaces early) (lateSpaces : Text.IsSpaces late)
    (scanned : Lex.scanIn .expression (piece ++ (late ++ (['}', '}'] ++ tail))) =
      .ok (some lexeme))
    (solid : lexeme.kind.isWhitespace = false) (enoughEarly : early.length ≤ bound)
    (enoughLate : late.length ≤ bound)
    (yields : Yields (expression bound) .expression piece (late ++ (['}', '}'] ++ tail))
      fun result => result = value) :
    Runs (interpolation bound) before ()
      ((before.after (['{', '{'] ++ (early ++ (piece ++ (late ++ ['}', '}']))))).addLeaf
        (.interpolation value)
        (before.spanOf (['{', '{'] ++ (early ++ (piece ++ (late ++ ['}', '}'])))))) := by
  have braces : Lex.scanIn .expression (['}', '}'] ++ tail) =
      .ok (some ⟨.interpolationEnd, 2⟩) := rfl
  have restThen : ((before.after ['{', '{']).entered .expression).rest =
      early ++ (piece ++ (late ++ (['}', '}'] ++ tail))) := by
    rw [State.rest_entered, State.rest_after, restEq, List.drop_left]
  apply Meets.enter known (by decide)
  change Meets _ (((before.after ['{', '{']).entered .expression).after []) _ _
  refine Meets.yielding rfl restThen (skipWhitespace_yields separates_expression earlySpaces
    (.of_scanned scanned solid) enoughEarly) fun _ _ => ?_
  apply Meets.yielding rfl (by simpa using restThen) yields
  rintro _ rfl
  refine Meets.yielding rfl (by simpa using restThen) (skipWhitespace_yields
    separates_expression lateSpaces (.of_scanned braces rfl) enoughLate) fun _ _ => ?_
  rw [discard_bind]
  refine Meets.yielding rfl (by simpa using restThen) (expect_yields braces rfl) fun _ _ => ?_
  have pieceEq : ['{', '{'] ++ ([] ++ early ++ piece ++ late ++ ['}', '}']) =
      ['{', '{'] ++ (early ++ (piece ++ (late ++ ['}', '}']))) := by simp
  apply Meets.leave (by rw [pieceEq, restEq]; exact ⟨tail, by simp⟩)
  rw [pieceEq]
  exact modify_runs (State.addLeaf_lexerFree _ _)

theorem interpolation_runs_shown (shown : Shown)
    (known : before.Next .interpolationStart ['{', '{'])
    (restEq : before.rest = shown.source ++ tail) (enough : shown.source.length ≤ bound) :
    Runs (interpolation bound) before ()
      ((before.after shown.source).addLeaf (.interpolation (.path shown.dotted.path))
        (before.spanOf shown.source)) := by
  have ends : EndsPath (shown.late.text ++ (['}', '}'] ++ tail)) :=
    (endsPath_braces tail).spaces (by rintro _ ⟨⟩; rfl) shown.late.isSpaces
  obtain ⟨length, scanned⟩ := scanIn_dotted shown.dotted ends
  simp only [Shown.source, List.length_append] at enough
  apply interpolation_runs_of known _ shown.early.isSpaces shown.late.isSpaces scanned rfl
    (by omega) (by omega) (expression_yields_path shown.dotted ends (by omega))
  simpa only [Shown.source, List.append_assoc] using restEq

theorem header_yields (header : Header) (enough : header.rest.length ≤ bound) :
    Yields (loopHeader bound) .expression header.rest (['{'] ++ tail)
      fun result => result = header.loop := by
  have opens : ∀ text, Lex.scanIn .expression (['('] ++ text) =
      .ok (some ⟨.punctuation .leftParen, 1⟩) := fun _ => rfl
  have brace : Lex.scanIn .expression (['{'] ++ tail) =
      .ok (some ⟨.punctuation .leftBrace, 1⟩) := rfl
  have gapStops : ∀ (gap : Gap) (text : List Char),
      Lex.Stops CharClass.isVariablePart (gap.text ++ text) := fun gap _ =>
    endsName_spaces gap.isSpaces fun nothing => absurd nothing gap.nonempty
  have ends : EndsPath (header.behindCollection.text ++ ([')'] ++ (header.behindClosing.text ++
      (['{'] ++ tail)))) :=
    (endsPath_rightParen _).spaces (by rintro _ ⟨⟩; rfl) header.behindCollection.isSpaces
  obtain ⟨length, collectionScanned⟩ := scanIn_dotted header.collection ends
  simp only [Header.rest, List.length_append] at enough
  refine Yields.gap header.behindKeyword.isSpaces (opens _) rfl (by omega) ?_
  apply Yields.discard (expectMark_yields (opens _))
  apply Yields.gap header.behindOpening.isSpaces
    (by simpa only [List.append_assoc] using scanIn_variableName header.item (gapStops _ _)) rfl
    (by omega)
  apply Yields.bind (variableName_yields header.item
    (by simpa only [List.append_assoc] using gapStops _ _))
  rintro ⟨_, place⟩ rfl
  apply Yields.gap header.behindItem.isSpaces
    (by simpa only [List.append_assoc] using
      scanIn_variableName header.preposition (gapStops _ _)) rfl (by omega)
  apply Yields.bind (variableName_yields header.preposition
    (by simpa only [List.append_assoc] using gapStops _ _))
  rintro ⟨_, place⟩ rfl
  apply Yields.gap header.behindPreposition.isSpaces
    (by simpa only [List.append_assoc] using collectionScanned) rfl (by omega)
  refine Yields.bind (path_yields header.collection
    (by simpa only [List.append_assoc] using ends) (by omega)) ?_
  rintro _ rfl
  refine Yields.gap header.behindCollection.isSpaces (scanIn_rightParen _) rfl (by omega) ?_
  apply Yields.discard (expectMark_yields (scanIn_rightParen _))
  have ended : Yields (skipWhitespace bound >>= fun _ => Pure.pure
      (⟨header.item.text, header.preposition.text, header.collection.path, Loop.indexName⟩ :
        Loop)) .expression (header.behindClosing.text ++ []) (['{'] ++ tail)
      fun result => result = header.loop :=
    Yields.gap header.behindClosing.isSpaces brace rfl (by omega) (Yields.pure rfl)
  rwa [List.append_nil] at ended

/-- The state behind the character that begins a statement. -/
def inStatement (before : State) : State :=
  (before.after ['@']).entered .expression

theorem spanOf_inStatement (taken piece : List Char) :
    ((inStatement before).after taken).spanOf piece =
      (before.after (['@'] ++ taken)).spanOf piece := by
  rw [← State.after_after]
  rfl

theorem statement_runs_header (header : Header)
    (known : before.Next (.punctuation .at) ['@'])
    (restEq : before.rest = header.source ++ (['{'] ++ tail))
    (enough : header.source.length ≤ bound) :
    Runs (statement bound) before ()
      ((before.after (header.source ++ ['{'])).openLoop header.loop
        (before.spanOf (header.source ++ ['{'])) ((before.after header.source).spanOf ['{'])) := by
  have sourceEq : header.source =
      ['@'] ++ (header.behindAt.text ++ ("for".toList ++ header.rest)) := rfl
  have restThen : (inStatement before).rest =
      header.behindAt.text ++ ("for".toList ++ (header.rest ++ (['{'] ++ tail))) := by
    rw [inStatement, State.rest_entered, State.rest_after, restEq, sourceEq]
    simp
  have stops : Lex.Stops CharClass.isVariablePart (header.rest ++ (['{'] ++ tail)) := by
    rw [Header.rest, List.append_assoc]
    refine endsName_spaces header.behindKeyword.isSpaces fun _ => ?_
    rintro _ ⟨⟩
    rfl
  have word : Lex.scanIn .expression ("for".toList ++ (header.rest ++ (['{'] ++ tail))) =
      .ok (some ⟨.identifier "for", 3⟩) :=
    Lex.scanExpression_name ⟨'f', ['o', 'r'], rfl, rfl, by decide⟩ stops
  simp only [sourceEq, List.length_append] at enough
  apply Meets.enter known (by decide)
  change Meets _ ((inStatement before).after []) _ _
  refine Meets.yielding rfl restThen (skipWhitespace_yields separates_expression
    header.behindAt.isSpaces (.of_scanned word rfl) (by omega)) fun _ _ => ?_
  refine Meets.yielding rfl (by simpa using restThen) (expectIdentifier_yields word) ?_
  rintro ⟨_, place⟩ rfl
  simp only [ne_eq, not_true_eq_false, if_false]
  apply Meets.yielding rfl (by simpa using restThen) (header_yields header (by omega))
  rintro _ rfl
  have pieceEq : [] ++ header.behindAt.text ++ "for".toList ++ header.rest =
      header.behindAt.text ++ ("for".toList ++ header.rest) := by simp
  rw [pieceEq]
  have braceKnown : ((inStatement before).after
      (header.behindAt.text ++ ("for".toList ++ header.rest))).Next (.punctuation .leftBrace)
        ['{'] := by
    refine next_of_rest rfl (show _ = ['{'] ++ tail from ?_) rfl
    rw [State.rest_after, restThen, ← List.append_assoc, ← List.append_assoc, ← List.append_assoc,
      List.append_assoc header.behindAt.text, List.drop_left]
  apply Meets.bind_runs (expect_runs braceKnown rfl)
  rw [State.after_after]
  apply Meets.leave (show ['@'] ++ (header.behindAt.text ++ ("for".toList ++ header.rest) ++
    ['{']) <+: before.rest from ⟨tail, by rw [restEq, sourceEq]; simp⟩)
  apply Meets.bind_runs (modify_runs (State.openNode_lexerFree _ _))
  rw [sourceEq, ← spanOf_inStatement]
  exact Meets.modify (State.openNode_lexerFree _ _) ⟨trivial, rfl⟩

end Constructs

end Parser

end TemplateCompiler
