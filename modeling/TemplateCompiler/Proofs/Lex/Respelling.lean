import TemplateCompiler.Proofs.Lex.LineBreaks
import TemplateCompiler.Proofs.Lex.Continuation
import TemplateCompiler.Proofs.Source.Respelling

/-!
# Tokens on other platforms

The tokens of a text whose lines end with line feeds, and of the same text with its
line breaks in another style.  A scanner finds the same kind of token at the same place
and what it read in the other style.

A string of a tag or an expression and a template literal have a value: the line
breaks in them follow the style of the text, but a line feed that is written as an
escape does not.
-/

namespace TemplateCompiler

open Text

/-- A kind of token with the line breaks of its text in another style. -/
def TokenKind.respell (style : BreakStyle) (kind : TokenKind) : TokenKind :=
  let respelled (content : String) := String.ofList (Text.respell style content.toList)
  match kind with
  | .frontMatter content => .frontMatter (respelled content)
  | .whitespace content => .whitespace (respelled content)
  | .text content => .text (respelled content)
  | .entity content => .entity (respelled content)
  | .comment content => .comment (respelled content)
  | .identifier word => .identifier (respelled word)
  | .string value => .string (respelled value)
  | .templateLiteral value => .templateLiteral (respelled value)
  | .scriptCode content => .scriptCode (respelled content)
  | .styleComment content => .styleComment (respelled content)
  | .styleName word => .styleName (respelled word)
  | .dimension value unit => .dimension value (respelled unit)
  | .color digits => .color (respelled digits)
  | other => other

namespace Lex

variable {style : BreakStyle} {c : Char} {text : List Char}

section Values

/-- The value of a string that has this between its quotes.  An escape is one
character of the value in every style. -/
def stringValue (style : BreakStyle) : List Char → List Char
  | [] => []
  | '\\' :: escape :: text => (resolveEscape? escape).toList ++ stringValue style text
  | c :: text => style.spell c ++ stringValue style text

/-- The value of a template literal that has this between its quotes; `depth` counts
the braces that are open within a substitution. -/
def templateValue (style : BreakStyle) : (depth : Nat) → List Char → List Char
  | _, [] => []
  | 0, '\\' :: escape :: text => (resolveEscape? escape).toList ++ templateValue style 0 text
  | depth, '$' :: '{' :: text => '$' :: '{' :: templateValue style (depth + 1) text
  | depth + 1, '{' :: text => '{' :: templateValue style (depth + 2) text
  | depth + 1, '}' :: text => '}' :: templateValue style depth text
  | depth, c :: text => style.spell c ++ templateValue style depth text

end Values

end Lex

/-- The kind that a token has in another style, which is read from `piece` when the
lines end with line feeds. -/
def TokenKind.written (style : BreakStyle) (mode : LexMode) (piece : List Char)
    (kind : TokenKind) : TokenKind :=
  let inner := piece.tail.dropLast
  match kind with
  | .string _ =>
      .string (String.ofList
        (if mode = .style then Text.respell style inner else Lex.stringValue style inner))
  | .templateLiteral _ => .templateLiteral (String.ofList (Lex.templateValue style 0 inner))
  | _ => kind.respell style

namespace Lex

variable {style : BreakStyle} {mode : LexMode} {kind : TokenKind} {c quote : Char}
  {text tail piece inner : List Char}

/-- Whether a scan of a text in another style finds the same as a scan of the text. -/
def Scan.Respells (style : BreakStyle) (mode : LexMode) (text : List Char)
    (scan other : Scan) : Prop :=
  match scan with
  | .ok none => other = .ok none
  | .ok (some lexeme) =>
      other = .found (lexeme.kind.written style mode (text.take lexeme.length))
        (respell style (text.take lexeme.length)).length
  | .error _ => True

theorem respells_found {length otherLength : Nat} {otherKind : TokenKind}
    (textEq : text = piece ++ tail) (lengthEq : length = piece.length)
    (kindEq : kind.written style mode piece = otherKind)
    (otherEq : otherLength = (respell style piece).length) :
    (Scan.found kind length).Respells style mode text (.found otherKind otherLength) := by
  subst textEq lengthEq kindEq otherEq
  change _ = Scan.found _ _
  rw [List.take_left]

/-- A token that has no line break is the same in every style. -/
theorem respells_line {length : Nat} (textEq : text = piece ++ tail)
    (lengthEq : length = piece.length) (unbroken : '\n' ∉ piece)
    (kindEq : kind.written style mode piece = kind) :
    (Scan.found kind length).Respells style mode text (.found kind length) :=
  respells_found textEq lengthEq kindEq (by rw [respell_of_notMem unbroken, lengthEq])

theorem respells_mark {mark : Punctuation} (textEq : text = mark.spelling.toList ++ tail) :
    (Scan.mark mark).Respells style mode text (.mark mark) := by
  refine respells_line textEq String.length_toList.symm ?_ rfl
  cases mark <;> decide

section Literals

/-- Whether what is read behind a quote in another style has the value that the text
up to the closing quote gives it. -/
def QuotedBody.Respells (style : BreakStyle) (quote : Char) (value : List Char → List Char)
    (text : List Char) (body other : QuotedBody) : Prop :=
  match body with
  | .closed _ length =>
      ∃ inner tail, text = inner ++ quote :: tail ∧ length = inner.length + 1 ∧
        other = .closed (value inner) ((respell style inner).length + 1)
  | _ => True

variable {body other : QuotedBody} {value later : List Char → List Char}

theorem QuotedBody.respells_closed (valueEq : value [] = []) :
    (QuotedBody.closed [] 1).Respells style quote value (quote :: text) (.closed [] 1) :=
  ⟨[], text, rfl, rfl, by rw [valueEq]; rfl⟩

theorem QuotedBody.Respells.prepend (respells : body.Respells style quote later text other)
    (piece part otherPart : List Char)
    (valueEq : ∀ inner, inner <+: text → value (piece ++ inner) = otherPart ++ later inner) :
    (body.prepend part piece.length).Respells style quote value (piece ++ text)
      (other.prepend otherPart (respell style piece).length) := by
  cases body with
  | closed read length =>
      obtain ⟨inner, tail, rfl, rfl, rfl⟩ := respells
      refine ⟨piece ++ inner, tail, (List.append_assoc _ _ _).symm, ?_, ?_⟩
      · rw [List.length_append, Nat.add_assoc]
      · rw [QuotedBody.prepend, valueEq inner (List.prefix_append _ _), respell_append,
          List.length_append, Nat.add_assoc]
  | badEscape escape before => trivial
  | unclosed => trivial

theorem QuotedBody.prepend_prepend (body : QuotedBody) (first second : List Char)
    (firstCount secondCount : Nat) :
    (body.prepend second secondCount).prepend first firstCount =
      body.prepend (first ++ second) (firstCount + secondCount) := by
  cases body <;> simp [QuotedBody.prepend, Nat.add_assoc]

/-- A reader that takes characters one by one takes what stands for a character. -/
theorem read_append_of_plain {read : List Char → QuotedBody} {part : List Char}
    (plain : ∀ d ∈ part, ∀ text, read (d :: text) = (read text).prepend [d] 1)
    (text : List Char) : read (part ++ text) = (read text).prepend part part.length := by
  induction part with
  | nil => cases h : read text <;> simp [QuotedBody.prepend, h]
  | cons d part ih =>
      rw [List.cons_append, plain d List.mem_cons_self,
        ih fun e mem => plain e (List.mem_cons_of_mem d mem), QuotedBody.prepend_prepend,
        List.singleton_append, List.length_cons, Nat.add_comm]

theorem not_isLineBreak_of_isQuote (isQuote : CharClass.isQuote quote = true) :
    isLineBreak quote = false := by
  simp only [CharClass.isQuote, Bool.or_eq_true, beq_iff_eq] at isQuote
  rcases isQuote with (rfl | rfl) | rfl <;> rfl

/-- What stands for a character that is none of some others is none of them. -/
theorem ne_of_mem_spell {d special : Char} (plain : isLineBreak special = false)
    (differs : c ≠ special) (mem : d ∈ style.spell c) : d ≠ special := by
  obtain ⟨notFeed, notReturn⟩ := not_isLineBreak plain
  let isSpecial := fun e : Char => e == special
  have breaks : isSpecial '\r' = isSpecial '\n' :=
    (beq_eq_false_iff_ne.2 (Ne.symm notReturn)).trans (beq_eq_false_iff_ne.2 (Ne.symm notFeed)).symm
  have sameClass : isSpecial d = isSpecial c := BreakStyle.class_of_mem_spell breaks mem
  exact beq_eq_false_iff_ne.1 (sameClass.trans (beq_eq_false_iff_ne.2 differs))

theorem ne_feed_of_resolveEscape? {escape resolved : Char}
    (resolvedEq : resolveEscape? escape = some resolved) : escape ≠ '\n' := by
  rintro rfl
  cases resolvedEq

theorem readQuoted_respells (isQuote : CharClass.isQuote quote = true) (text : List Char) :
    (readQuoted quote text).Respells style quote (stringValue style) text
      (readQuoted quote (respell style text)) := by
  have plainQuote := not_isLineBreak_of_isQuote isQuote
  have notBackslash : quote ≠ '\\' := by
    rintro rfl
    cases isQuote
  fun_induction readQuoted quote text with
  | case1 => trivial
  | case2 text =>
      rw [respell_cons_of_ne (not_isLineBreak plainQuote).1, readQuoted_closed]
      exact QuotedBody.respells_closed rfl
  | case3 => trivial
  | case4 escape text resolved resolvedEq _ ih =>
      have notFeed := ne_feed_of_resolveEscape? resolvedEq
      rw [respell_cons_of_ne (by decide), respell_cons_of_ne notFeed,
        readQuoted_escape _ notBackslash resolvedEq]
      have valueEq : ∀ inner, stringValue style (['\\', escape] ++ inner) =
          [resolved] ++ stringValue style inner := fun inner => by simp [stringValue, resolvedEq]
      have respells := ih.prepend ['\\', escape] [resolved] [resolved] fun inner _ => valueEq inner
      rwa [respell_cons_of_ne (by decide), respell_cons_of_ne notFeed] at respells
  | case5 => trivial
  | case6 c text notQuote notEscape ih =>
      have step : ∀ d ∈ style.spell c, ∀ text,
          readQuoted quote (d :: text) = (readQuoted quote text).prepend [d] 1 :=
        fun d mem text => readQuoted_plain text (ne_of_mem_spell plainQuote notQuote mem)
          (ne_of_mem_spell rfl notEscape mem)
      rw [respell_cons, read_append_of_plain step]
      have valueEq : ∀ inner, stringValue style ([c] ++ inner) =
          style.spell c ++ stringValue style inner := fun inner => by simp [stringValue, notEscape]
      have respells := ih.prepend [c] [c] (style.spell c) fun inner _ => valueEq inner
      rwa [respell_cons, respell_nil, List.append_nil] at respells

theorem readProtected_respells (isQuote : CharClass.isQuote quote = true) (text : List Char) :
    (readProtected quote text).Respells style quote (respell style) text
      (readProtected quote (respell style text)) := by
  have plainQuote := not_isLineBreak_of_isQuote isQuote
  have notBackslash : quote ≠ '\\' := by
    rintro rfl
    cases isQuote
  have plainStep : ∀ {d}, d ≠ quote → d ≠ '\\' → ∀ text,
      readProtected quote (d :: text) = (readProtected quote text).prepend [d] 1 := by
    intro d notQuote notEscape text
    rw [readProtected.eq_def]
    simp [notQuote, notEscape]
  have escapeStep : ∀ d text, readProtected quote ('\\' :: d :: text) =
      (readProtected quote text).prepend ['\\', d] 2 := by
    intro d text
    rw [readProtected.eq_def]
    simp [notBackslash.symm]
  fun_induction readProtected quote text with
  | case1 => trivial
  | case2 text =>
      have closed : readProtected quote (quote :: respell style text) = .closed [] 1 := by
        rw [readProtected.eq_def]
        simp
      rw [respell_cons_of_ne (not_isLineBreak plainQuote).1, closed]
      exact QuotedBody.respells_closed rfl
  | case3 => trivial
  | case4 escape text _ ih =>
      -- The backslash protects the first character of what stands for the escape; what is
      -- left of a pair is taken as it is.
      obtain ⟨d, later, spelled, -⟩ := style.exists_spell escape isLineBreak rfl
      have plain : ∀ e ∈ later, ∀ text,
          readProtected quote (e :: text) = (readProtected quote text).prepend [e] 1 := by
        intro e mem
        have isBreak := BreakStyle.isLineBreak_of_spell_eq_cons spelled mem
        apply plainStep
        · rintro rfl
          exact Bool.false_ne_true (plainQuote.symm.trans isBreak)
        · rintro rfl
          cases isBreak
      have otherEq : readProtected quote ('\\' :: d :: (later ++ respell style text)) =
          (readProtected quote (respell style text)).prepend ('\\' :: style.spell escape)
            (respell style ['\\', escape]).length := by
        rw [escapeStep, read_append_of_plain plain, QuotedBody.prepend_prepend,
          respell_cons_of_ne (by decide), respell_cons, respell_nil, List.append_nil, spelled]
        congr 1
        simp only [List.length_cons]
        omega
      rw [respell_cons_of_ne (by decide), respell_cons, spelled, List.cons_append, otherEq]
      have valueEq : ∀ inner, respell style (['\\', escape] ++ inner) =
          ('\\' :: style.spell escape) ++ respell style inner := fun inner => by
        rw [respell_append, respell_cons_of_ne (by decide), respell_cons, respell_nil,
          List.append_nil]
      exact ih.prepend ['\\', escape] ['\\', escape] _ fun inner _ => valueEq inner
  | case5 c text notQuote notEscape ih =>
      rw [respell_cons, read_append_of_plain fun d mem => plainStep
        (ne_of_mem_spell plainQuote notQuote mem) (ne_of_mem_spell rfl notEscape mem)]
      have valueEq : ∀ inner, respell style ([c] ++ inner) = style.spell c ++ respell style inner :=
        respell_cons c
      have respells := ih.prepend [c] [c] (style.spell c) fun inner _ => valueEq inner
      rwa [respell_cons, respell_nil, List.append_nil] at respells

theorem readTemplate_respells (depth : Nat) (text : List Char) :
    (readTemplate depth text).Respells style '\x60' (templateValue style depth) text
      (readTemplate depth (respell style text)) := by
  fun_induction readTemplate depth text with
  | case1 => trivial
  | case2 text =>
      rw [respell_cons_of_ne (by decide), readTemplate]
      exact QuotedBody.respells_closed rfl
  | case3 => trivial
  | case4 escape text resolved resolvedEq ih =>
      have notFeed := ne_feed_of_resolveEscape? resolvedEq
      have valueEq : ∀ inner, templateValue style 0 (['\\', escape] ++ inner) =
          [resolved] ++ templateValue style 0 inner := fun inner => by
        simp [templateValue, resolvedEq]
      have respells := ih.prepend ['\\', escape] [resolved] [resolved] fun inner _ => valueEq inner
      rw [respell_cons_of_ne (by decide), respell_cons_of_ne notFeed] at respells ⊢
      simpa [readTemplate, resolvedEq] using respells
  | case5 => trivial
  | case6 depth text ih =>
      have valueEq : ∀ inner, templateValue style depth (['$', '{'] ++ inner) =
          ['$', '{'] ++ templateValue style (depth + 1) inner := fun inner => by
        simp [templateValue]
      have respells := ih.prepend ['$', '{'] ['$', '{'] ['$', '{'] fun inner _ => valueEq inner
      rw [respell_cons_of_ne (by decide), respell_cons_of_ne (by decide)] at respells ⊢
      simpa [readTemplate] using respells
  | case7 depth text ih =>
      have valueEq : ∀ inner, templateValue style (depth + 1) (['{'] ++ inner) =
          ['{'] ++ templateValue style (depth + 2) inner := fun inner => by simp [templateValue]
      have respells := ih.prepend ['{'] ['{'] ['{'] fun inner _ => valueEq inner
      rw [respell_cons_of_ne (by decide)] at respells ⊢
      simpa [readTemplate] using respells
  | case8 depth text ih =>
      have valueEq : ∀ inner, templateValue style (depth + 1) (['}'] ++ inner) =
          ['}'] ++ templateValue style depth inner := fun inner => by simp [templateValue]
      have respells := ih.prepend ['}'] ['}'] ['}'] fun inner _ => valueEq inner
      rw [respell_cons_of_ne (by decide)] at respells ⊢
      simpa [readTemplate] using respells
  | case9 depth c text notQuote notEscape notSubstitution notOpen notClose ih =>
      have step : ∀ d ∈ style.spell c, ∀ later,
          (∀ others, d = '$' → later = '{' :: others → False) →
            readTemplate depth (d :: later) = (readTemplate depth later).prepend [d] 1 := by
        intro d mem later noSubstitution
        have same : ∀ special, isLineBreak special = false → d = special → c = special :=
          fun special plain isSpecial => Classical.byContradiction fun differs =>
            ne_of_mem_spell plain differs mem isSpecial
        rw [readTemplate]
        · exact noSubstitution
        · exact fun zero isQuote => notQuote zero (same _ rfl isQuote)
        · exact fun zero isEscape => notEscape zero (same _ rfl isEscape)
        · exact fun inner within isOpen => notOpen inner within (same _ rfl isOpen)
        · exact fun inner within isClose => notClose inner within (same _ rfl isClose)
      have otherEq : readTemplate depth (style.spell c ++ respell style text) =
          (readTemplate depth (respell style text)).prepend (style.spell c)
            (respell style [c]).length := by
        rw [respell_cons, respell_nil, List.append_nil]
        by_cases dollar : c = '$'
        -- Only a dollar sign is read by what stands behind it.
        · subst dollar
          refine step '$' (by simp [BreakStyle.spell]) (respell style text) fun others _ opens => ?_
          obtain ⟨inner, textEq, -⟩ := exists_of_respell_eq_cons rfl opens
          exact notSubstitution inner rfl textEq
        · refine read_append_of_plain (fun d mem later => step d mem later ?_) _
          exact fun _ isDollar _ => ne_of_mem_spell rfl dollar mem isDollar
      rw [respell_cons, otherEq]
      refine ih.prepend [c] [c] (style.spell c) fun inner within => ?_
      rw [List.singleton_append, templateValue]
      · rintro others isDollar rfl
        obtain ⟨behind, textEq⟩ := within
        exact notSubstitution _ isDollar textEq.symm
      · exact fun _ _ zero isEscape _ => notEscape zero isEscape
      · exact notOpen
      · exact notClose

theorem respells_quoted {kind : String → TokenKind} {cause : Cause}
    (read : body.Respells style quote value text other)
    (kindEq : ∀ content inner, (kind content).written style mode (c :: (inner ++ [quote])) =
      kind (String.ofList (value inner)))
    (plain : c ≠ '\n') (quotePlain : quote ≠ '\n') {otherText : List Char} :
    (body.scan kind cause (c :: text)).Respells style mode (c :: text)
      (other.scan kind cause otherText) := by
  cases body with
  | closed content length =>
      obtain ⟨inner, tail, rfl, rfl, rfl⟩ := read
      have textEq : c :: (inner ++ quote :: tail) = (c :: (inner ++ [quote])) ++ tail := by simp
      refine respells_found textEq (by simp) (kindEq _ inner) ?_
      rw [respell_cons_of_ne plain, respell_append, respell_cons_of_ne quotePlain]
      simp
  | badEscape escape before => trivial
  | unclosed => trivial

/-- Whether a scan that is tried by the first character alone finds the same in every
style. -/
structure IsRespelled (style : BreakStyle) (mode : LexMode)
    (scan? : List Char → Option Scan) : Prop where
  untried : ∀ {c : Char} {text : List Char}, c ≠ '\n' → scan? (c :: text) = none →
    scan? (c :: respell style text) = none
  tried : ∀ {c : Char} {text : List Char} {scan : Scan}, c ≠ '\n' →
    scan? (c :: text) = some scan →
      ∃ other, scan? (c :: respell style text) = some other ∧
        scan.Respells style mode (c :: text) other

/-- A scanner that goes on with another scan where this one is not tried finds the same in
every style if the other scan does. -/
theorem IsRespelled.respells_or {scan? : List Char → Option Scan} {fallback otherFallback : Scan}
    (isRespelled : IsRespelled style mode scan?) (plain : c ≠ '\n')
    (respells : fallback.Respells style mode (c :: text) otherFallback) :
    Scan.Respells style mode (c :: text)
      (match scan? (c :: text) with
        | some scan => scan
        | none => fallback)
      (match scan? (c :: respell style text) with
        | some scan => scan
        | none => otherFallback) := by
  cases tried : scan? (c :: text) with
  | some scan =>
      obtain ⟨other, otherTried, respells⟩ := isRespelled.tried plain tried
      rwa [otherTried]
  | none => rwa [isRespelled.untried plain tried]

theorem isRespelled_of_quoted {read : Char → List Char → QuotedBody} {closing : Char → Char}
    {accepts : Char → Prop} [DecidablePred accepts] {scan? : List Char → Option Scan}
    {kind : String → TokenKind} {cause : Cause}
    (scanEq : ∀ c text, scan? (c :: text) =
      if accepts c then some ((read c text).scan kind cause (c :: text)) else none)
    (closes : ∀ {c}, accepts c → closing c ≠ '\n')
    (readEq : ∀ {c}, accepts c → ∀ text,
      (read c text).Respells style (closing c) value text (read c (respell style text)))
    (kindEq : ∀ c content inner, (kind content).written style mode (c :: (inner ++ [closing c])) =
      kind (String.ofList (value inner))) : IsRespelled style mode scan? where
  untried := by
    intro c text plain untried
    simpa [scanEq] using untried
  tried := by
    intro c text scan plain tried
    rw [scanEq, Option.ite_none_right_eq_some, Option.some.injEq] at tried
    obtain ⟨accepted, rfl⟩ := tried
    refine ⟨_, by rw [scanEq, if_pos accepted], ?_⟩
    exact respells_quoted (readEq accepted text) (kindEq c) plain (closes accepted)

theorem isRespelled_scanString? (style : BreakStyle) (notStyle : mode ≠ .style) :
    IsRespelled style mode scanString? :=
  isRespelled_of_quoted (fun _ _ => rfl)
    (fun isQuote => (not_isLineBreak (not_isLineBreak_of_isQuote isQuote)).1)
    (fun isQuote => readQuoted_respells isQuote)
    fun c content inner => by simp [TokenKind.written, notStyle]

theorem isRespelled_scanProtectedString? (style : BreakStyle) :
    IsRespelled style .style scanProtectedString? :=
  isRespelled_of_quoted (fun _ _ => rfl)
    (fun isQuote => (not_isLineBreak (not_isLineBreak_of_isQuote isQuote)).1)
    (fun isQuote => readProtected_respells isQuote)
    fun c content inner => by simp [TokenKind.written]

theorem isRespelled_scanTemplate? (style : BreakStyle) (mode : LexMode) :
    IsRespelled style mode scanTemplate? :=
  isRespelled_of_quoted (fun _ _ => rfl) (fun _ => by decide)
    (fun _ => readTemplate_respells 0) fun c content inner => by simp [TokenKind.written]

end Literals

section Runs

theorem whitespaceRun_respell (text : List Char) :
    whitespaceRun (respell style text) = respell style (whitespaceRun text) :=
  takeWhile_respell rfl text

theorem respells_whitespace (style : BreakStyle) (mode : LexMode) (text : List Char) :
    (Scan.found (.whitespace (String.ofList (whitespaceRun text)))
      (whitespaceRun text).length).Respells style mode text
      (.found (.whitespace (String.ofList (whitespaceRun (respell style text))))
        (whitespaceRun (respell style text)).length) := by
  refine respells_found (List.takeWhile_append_dropWhile (p := CharClass.isMarkupSpace)).symm rfl ?_
    (congrArg List.length (whitespaceRun_respell text))
  rw [whitespaceRun_respell]
  simp [TokenKind.written, TokenKind.respell, whitespaceRun]

section Names

variable {isStart isPart : Char → Bool} (start : ExcludesBreaks isStart)
  (part : ExcludesBreaks isPart)

include start part

theorem name?_respell (style : BreakStyle) (text : List Char) :
    name? isStart isPart (respell style text) = name? isStart isPart text := by
  refine eq_of_respell (fun d later isBreak => ?_) (fun d later _ => ?_) text
  · simp [name?, start.eq_false isBreak]
  · rw [name?, name?, part.takeWhile_respell style]

theorem unbroken_of_name? {word : List Char} (found : name? isStart isPart text = some word) :
    '\n' ∉ word := by
  obtain ⟨c, rest, rfl, isFirst, parts⟩ := isName_of_name? found
  refine List.not_mem_cons_of_ne_of_not_mem ?_ (part.notMem (List.all_eq_true.1 parts))
  rintro rfl
  exact Bool.false_ne_true (start.feedEq.symm.trans isFirst)

end Names

theorem respells_word {isStart isPart : Char → Bool} {word : List Char}
    (start : ExcludesBreaks isStart) (part : ExcludesBreaks isPart)
    (found : name? isStart isPart text = some word) :
    (Scan.found (wordKind word) word.length).Respells style mode text
      (.found (wordKind word) word.length) := by
  obtain ⟨-, tail, textEq⟩ := name?_eq_append found
  have unbroken := unbroken_of_name? start part found
  refine respells_line textEq rfl unbroken ?_
  rw [wordKind]
  split
  · rfl
  · simp [TokenKind.written, TokenKind.respell, respell_of_notMem unbroken]

/-- A scanner that takes the whitespace at its head takes it in every style. -/
theorem respells_space {scanner : List Char → Scan}
    (takes : ∀ {c : Char} (text : List Char), CharClass.isMarkupSpace c = true →
      scanner (c :: text) = .found (.whitespace (String.ofList (whitespaceRun (c :: text))))
        (whitespaceRun (c :: text)).length)
    (space : CharClass.isMarkupSpace c = true) (text : List Char) :
    (scanner (c :: text)).Respells style mode (c :: text)
      (scanner (respell style (c :: text))) := by
  have whole := respells_whitespace style mode (c :: text)
  obtain ⟨d, later, spelled, otherSpace⟩ := style.exists_spell c CharClass.isMarkupSpace rfl
  rw [respell_cons, spelled, List.cons_append] at whole ⊢
  rwa [takes text space, takes _ (otherSpace.trans space)]

theorem ne_feed_of_not_isMarkupSpace (space : ¬CharClass.isMarkupSpace c = true) : c ≠ '\n' := by
  rintro rfl
  exact space rfl

end Runs

section Numbers

theorem excludesBreaks_isNumeric : ExcludesBreaks isNumeric :=
  ⟨by decide, by decide⟩

theorem signPart_respell (text : List Char) :
    signPart (respell style text) = signPart text := by
  refine eq_of_respell (fun d later isBreak => ?_) (fun _ _ _ => rfl) text
  rcases eq_of_isLineBreak isBreak with rfl | rfl <;> rfl

theorem drop_signPart_respell (text : List Char) :
    (respell style text).drop (signPart text).length =
      respell style (text.drop (signPart text).length) := by
  obtain ⟨behind, textEq⟩ := signPart_prefix text
  exact drop_respell_of_notMem style textEq
    (excludesBreaks_isNumeric.notMem fun _ => isNumeric_signPart)

theorem digits_respell (text : List Char) :
    (respell style text).takeWhile Char.isDigit = text.takeWhile Char.isDigit :=
  ExcludesBreaks.takeWhile_respell ⟨rfl, rfl⟩ style text

theorem fractionPart_respell (text : List Char) :
    fractionPart (respell style text) = fractionPart text := by
  refine eq_of_respell (fun d later isBreak => ?_) (fun d later _ => ?_) text
  · rcases eq_of_isLineBreak isBreak with rfl | rfl <;> rfl
  · rw [fractionPart.eq_def, fractionPart.eq_def]
    by_cases point : d = '.'
    · subst point
      simp only [digits_respell]
    · simp [point]

theorem exponentPart_respell (text : List Char) :
    exponentPart (respell style text) = exponentPart text := by
  refine eq_of_respell (fun d later isBreak => ?_) (fun d later _ => ?_) text
  · rcases eq_of_isLineBreak isBreak with rfl | rfl <;> rfl
  · simp only [exponentPart, signPart_respell, drop_signPart_respell, digits_respell]

theorem numberSpelling?_respell (text : List Char) :
    numberSpelling? (respell style text) = numberSpelling? text := by
  obtain ⟨behind, fractionEq⟩ :=
    fractionPart_prefix ((text.drop (signPart text).length).dropWhile Char.isDigit)
  have dropEq := drop_respell_of_notMem style fractionEq
    (excludesBreaks_isNumeric.notMem fun _ => isNumeric_fractionPart)
  have restEq : ∀ text, (respell style text).dropWhile Char.isDigit =
      respell style (text.dropWhile Char.isDigit) := dropWhile_respell rfl
  simp only [numberSpelling?, signPart_respell, drop_signPart_respell, digits_respell, restEq,
    fractionPart_respell, dropEq, exponentPart_respell]

theorem readNumber?_respell (style : BreakStyle) (text : List Char) :
    readNumber? (respell style text) = readNumber? text := by
  rw [readNumber?, readNumber?, numberSpelling?_respell]

theorem exists_number {value : Float} {length : Nat}
    (read : readNumber? text = some (value, length)) :
    ∃ piece tail, text = piece ++ tail ∧ length = piece.length ∧ '\n' ∉ piece := by
  simp only [readNumber?, Option.bind_eq_bind, Option.bind_eq_some_iff, Option.pure_def,
    Option.some.injEq, Prod.mk.injEq] at read
  obtain ⟨spelling, spellingEq, _, -, -, rfl⟩ := read
  obtain ⟨-, tail, textEq⟩ := numberSpelling?_prefix spellingEq
  exact ⟨spelling, tail, textEq, rfl,
    excludesBreaks_isNumeric.notMem fun _ => isNumeric_numberSpelling? spellingEq⟩

theorem respells_number {value : Float} {length : Nat}
    (read : readNumber? text = some (value, length)) :
    (Scan.found (.number value) length).Respells style mode text
      (.found (.number value) length) := by
  obtain ⟨piece, tail, textEq, lengthEq, unbroken⟩ := exists_number read
  exact respells_line textEq lengthEq unbroken rfl

end Numbers

end Lex

end TemplateCompiler
