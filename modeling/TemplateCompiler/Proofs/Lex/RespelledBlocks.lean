import TemplateCompiler.Proofs.Lex.MatterLines
import TemplateCompiler.Proofs.Lex.RespelledScans
import TemplateCompiler.Proofs.Lex.ScriptCode

/-!
# Script code and front matter on other platforms

Where script code ends, and where front matter does, depends on the ends of lines.  A
comment of a script ends at the line feed in either style, and so does a string that was
not closed.  But a backslash protects one character: before a line feed it carries the
string on to the next line, and before a pair it protects the carriage return only.
-/

namespace TemplateCompiler

namespace Lex

open Text

variable {style : BreakStyle} {c quote : Char} {text : List Char}

section Scripts

/-- Whether script code has a string between ordinary quotes that goes on behind a line
feed because a backslash stands before it. -/
def protectsBreak : ScriptPlace → List Char → Bool
  | _, [] => false
  | .code, '/' :: '/' :: text => protectsBreak .lineComment text
  | .code, '/' :: '*' :: text => protectsBreak .blockComment text
  | .code, c :: text => protectsBreak (if CharClass.isQuote c then .quoted c false else .code) text
  | .quoted quote escaped, c :: text =>
      (escaped && quote != '\x60' && c == '\n')
        || protectsBreak (ScriptPlace.afterQuoted quote escaped c) text
  | .lineComment, c :: text => protectsBreak (if c = '\n' then .code else .lineComment) text
  | .blockComment, '*' :: '/' :: text => protectsBreak .code text
  | .blockComment, _ :: text => protectsBreak .blockComment text

theorem closesScript_respell (text : List Char) :
    closesScript (respell style text) = closesScript text :=
  startsWithIgnoreCase_respell style _ (by decide) text

theorem endsCode_respell (text : List Char) : endsCode (respell style text) = endsCode text := by
  rw [endsCode, endsCode, closesScript_respell, startsWith_respell _ _ (by decide),
    startsWith_respell _ _ (by decide)]

theorem not_closesScript_respell (style : BreakStyle) (notCloses : ¬closesScript text = true) :
    ¬closesScript (respell style text) = true := by
  rwa [closesScript_respell]

theorem not_endsCode_respell (style : BreakStyle) (notEnds : ¬endsCode text = true) :
    ¬endsCode (respell style text) = true := by
  rwa [endsCode_respell]

/-- A text that does not begin with two characters does not begin with them in another
style. -/
theorem respell_ne_pair {d e : Char} (differs : ∀ rest, c :: text ≠ d :: e :: rest)
    (plain : isLineBreak e = false) (rest : List Char) :
    c :: respell style text ≠ d :: e :: rest := by
  intro same
  obtain ⟨rfl, textEq⟩ := List.cons.inj same
  obtain ⟨inner, rfl, -⟩ := exists_of_respell_eq_cons plain textEq
  exact differs inner rfl

theorem take_ne_pair {d e : Char} (differs : ∀ rest, c :: text ≠ d :: e :: rest) (count : Nat)
    (rest : List Char) : c :: text.take count ≠ d :: e :: rest := by
  intro same
  apply differs (rest ++ text.drop count)
  rw [← List.cons_append, ← List.cons_append, ← same, List.cons_append, List.take_append_drop]

/-- A length to which each character of a line break adds itself. -/
theorem length_past_break {lengthOf : List Char → Nat}
    (step : ∀ d, isLineBreak d = true → ∀ text, lengthOf (d :: text) = 1 + lengthOf text)
    (style : BreakStyle) (text : List Char) :
    lengthOf (respell style ('\n' :: text)) =
      (style.spell '\n').length + lengthOf (respell style text) := by
  cases style with
  | feed => exact step '\n' rfl _
  | pair =>
      change lengthOf ('\r' :: '\n' :: respell .pair text) = 2 + _
      rw [step '\r' rfl, step '\n' rfl, ← Nat.add_assoc]

theorem ne_pair_of_ne {d : Char} (differs : c ≠ d) (e : Char) (rest : List Char) :
    c :: text ≠ d :: e :: rest :=
  fun same => differs (List.cons.inj same).1

theorem length_respell_take (c : Char) (count : Nat) (text : List Char) :
    (respell style ((c :: text).take (1 + count))).length =
      (style.spell c).length + (respell style (text.take count)).length := by
  rw [Nat.add_comm, List.take_succ_cons, respell_cons, List.length_append]

section Code

variable (notLine : ∀ rest, c :: text ≠ '/' :: '/' :: rest)
  (notBlock : ∀ rest, c :: text ≠ '/' :: '*' :: rest)

include notLine notBlock

theorem protectsBreak_code :
    protectsBreak .code (c :: text) =
      protectsBreak (if CharClass.isQuote c then .quoted c false else .code) text := by
  rw [protectsBreak]
  · rintro rest rfl rfl
    exact notLine rest rfl
  · rintro rest rfl rfl
    exact notBlock rest rfl

theorem codeLength_code_respell (notEnds : ¬endsCode (c :: text) = true) :
    codeLength .code (respell style (c :: text)) = (style.spell c).length +
      codeLength (if CharClass.isQuote c then .quoted c false else .code) (respell style text) := by
  have step : ∀ d, isLineBreak d = true → ∀ text,
      codeLength .code (d :: text) = 1 + codeLength .code text := by
    intro d isBreak text
    have noQuote : CharClass.isQuote d = false := ExcludesBreaks.eq_false ⟨rfl, rfl⟩ isBreak
    have noEnd : ¬endsCode (d :: text) = true := by
      rcases eq_of_isLineBreak isBreak with rfl | rfl <;> exact Bool.false_ne_true
    have noSlash : ∀ rest, d :: text ≠ '/' :: rest := by
      rintro rest same
      rw [(List.cons.inj same).1] at isBreak
      cases isBreak
    rw [codeLength_code (fun _ => noSlash _) (fun _ => noSlash _) noEnd, noQuote]
    rfl
  by_cases isFeed : c = '\n'
  · subst isFeed
    exact length_past_break step style text
  · have otherEnds := not_endsCode_respell style notEnds
    rw [respell_cons_of_ne isFeed] at otherEnds ⊢
    rw [codeLength_code (respell_ne_pair notLine rfl) (respell_ne_pair notBlock rfl) otherEnds,
      BreakStyle.spell_of_ne isFeed, List.length_singleton]

/-- Code ends at the same place in every style if what comes behind its first character
does. -/
theorem codeLength_respell_code {next : ScriptPlace} (notEnds : ¬endsCode (c :: text) = true)
    (nextEq : (if CharClass.isQuote c then .quoted c false else .code) = next)
    (later : protectsBreak next (text.take (codeLength next text)) = false →
      codeLength next (respell style text) =
        (respell style (text.take (codeLength next text))).length)
    (kept : protectsBreak .code ((c :: text).take (1 + codeLength next text)) = false) :
    codeLength .code (respell style (c :: text)) =
      (respell style ((c :: text).take (1 + codeLength next text))).length := by
  rw [Nat.add_comm, List.take_succ_cons,
    protectsBreak_code (take_ne_pair notLine _) (take_ne_pair notBlock _), nextEq] at kept
  rw [codeLength_code_respell notLine notBlock notEnds, nextEq, length_respell_take, later kept]

end Code

theorem not_closesScript_of_break (isBreak : isLineBreak c = true) (text : List Char) :
    ¬closesScript (c :: text) = true := by
  rcases eq_of_isLineBreak isBreak with rfl | rfl <;> exact Bool.false_ne_true

/-- A comment ends at the line feed in either style. -/
theorem codeLength_lineComment_respell (notCloses : ¬closesScript (c :: text) = true) :
    codeLength .lineComment (respell style (c :: text)) = (style.spell c).length +
      codeLength (if c = '\n' then .code else .lineComment) (respell style text) := by
  by_cases isFeed : c = '\n'
  · subst isFeed
    have ends : ∀ text, codeLength .lineComment ('\n' :: text) = 1 + codeLength .code text :=
      fun text => codeLength_lineComment (not_closesScript_of_break rfl text)
    cases style with
    | feed => exact ends _
    | pair =>
        change codeLength .lineComment ('\r' :: '\n' :: respell .pair text) = 2 + _
        rw [codeLength_lineComment (not_closesScript_of_break rfl _), if_neg (by decide), ends,
          ← Nat.add_assoc, if_pos rfl]
  · have otherCloses := not_closesScript_respell style notCloses
    rw [respell_cons_of_ne isFeed] at otherCloses ⊢
    rw [codeLength_lineComment otherCloses, BreakStyle.spell_of_ne isFeed, List.length_singleton]

theorem codeLength_blockComment_respell (notCloses : ¬closesScript (c :: text) = true)
    (notEnd : ∀ rest, c :: text ≠ '*' :: '/' :: rest) :
    codeLength .blockComment (respell style (c :: text)) =
      (style.spell c).length + codeLength .blockComment (respell style text) := by
  by_cases isFeed : c = '\n'
  · subst isFeed
    have step : ∀ d, isLineBreak d = true → ∀ text,
        codeLength .blockComment (d :: text) = 1 + codeLength .blockComment text := by
      intro d isBreak text
      refine codeLength_blockComment (not_closesScript_of_break isBreak text) fun rest same => ?_
      rw [(List.cons.inj same).1] at isBreak
      cases isBreak
    exact length_past_break step style text
  · have otherCloses := not_closesScript_respell style notCloses
    rw [respell_cons_of_ne isFeed] at otherCloses ⊢
    rw [codeLength_blockComment otherCloses (respell_ne_pair notEnd rfl),
      BreakStyle.spell_of_ne isFeed, List.length_singleton]

/-- A string between backticks goes on behind a line break in either style, and any other
string ends at one that no backslash protects. -/
theorem codeLength_quoted_respell {escaped : Bool} (plain : isLineBreak quote = false)
    (unprotected : (escaped && quote != '\x60' && c == '\n') = false) (text : List Char) :
    codeLength (.quoted quote escaped) (respell style (c :: text)) = (style.spell c).length +
      codeLength (ScriptPlace.afterQuoted quote escaped c) (respell style text) := by
  by_cases isFeed : c = '\n'
  · subst isFeed
    cases style with
    | feed =>
        exact codeLength_quoted quote escaped '\n' _
    | pair =>
        obtain ⟨notFeed, notReturn⟩ := not_isLineBreak plain
        have afterReturn : ScriptPlace.afterQuoted quote escaped '\r' = .quoted quote false := by
          simp [ScriptPlace.afterQuoted, Ne.symm notReturn]
        have afterFeed : ScriptPlace.afterQuoted quote false '\n' =
            ScriptPlace.afterQuoted quote escaped '\n' := by
          cases escaped with
          | false => rfl
          -- The carriage return has used up the backslash, so only a string that goes on
          -- behind any line break is read alike.
          | true =>
              have isBacktick : quote = '\x60' := by simpa using unprotected
              subst isBacktick
              rfl
        change codeLength (.quoted quote escaped) ('\r' :: '\n' :: respell .pair text) = 2 + _
        rw [codeLength_quoted, afterReturn, codeLength_quoted, afterFeed, ← Nat.add_assoc]
  · rw [respell_cons_of_ne isFeed, BreakStyle.spell_of_ne isFeed, codeLength_quoted,
      List.length_singleton]

/-- The quote of a string is no line break. -/
def ScriptPlace.IsPlain : ScriptPlace → Prop
  | .quoted quote _ => isLineBreak quote = false
  | _ => True

theorem ScriptPlace.isPlain_code : ScriptPlace.code.IsPlain :=
  trivial

theorem ScriptPlace.isPlain_afterQuoted {escaped : Bool} (plain : isLineBreak quote = false)
    (c : Char) : (ScriptPlace.afterQuoted quote escaped c).IsPlain := by
  rw [ScriptPlace.afterQuoted]
  split
  · exact plain
  · split
    · exact plain
    · split
      · trivial
      · exact plain

theorem length_respell_take_pair {d : Char} (first : c ≠ '\n') (second : d ≠ '\n') (count : Nat)
    (text : List Char) :
    (respell style ((c :: d :: text).take (2 + count))).length =
      2 + (respell style (text.take count)).length := by
  rw [Nat.add_comm, List.take_succ_cons, List.take_succ_cons, respell_cons_of_ne first,
    respell_cons_of_ne second, List.length_cons, List.length_cons]
  omega

/-- Code that protects no line break in a string ends at the same place in every style. -/
theorem codeLength_respell (style : BreakStyle) {place : ScriptPlace} (plain : place.IsPlain)
    (text : List Char) (kept : protectsBreak place (text.take (codeLength place text)) = false) :
    codeLength place (respell style text) =
      (respell style (text.take (codeLength place text))).length := by
  fun_induction codeLength place text with
  | case1 => rfl
  | case2 c text ends => exact codeLength_of_endsCode ((endsCode_respell _).trans ends)
  | case3 rest notEnds ih =>
      have otherEnds := not_endsCode_respell style notEnds
      rw [Nat.add_comm, List.take_succ_cons, List.take_succ_cons, protectsBreak] at kept
      rw [length_respell_take_pair (by decide) (by decide), ← ih trivial kept]
      rw [respell_cons_of_ne (by decide), respell_cons_of_ne (by decide)] at otherEnds ⊢
      exact codeLength_lineOpening otherEnds
  | case4 rest notEnds ih =>
      have otherEnds := not_endsCode_respell style notEnds
      rw [Nat.add_comm, List.take_succ_cons, List.take_succ_cons, protectsBreak] at kept
      rw [length_respell_take_pair (by decide) (by decide), ← ih trivial kept]
      rw [respell_cons_of_ne (by decide), respell_cons_of_ne (by decide)] at otherEnds ⊢
      exact codeLength_blockOpening otherEnds
  | case5 rest notLine notBlock notEnds ih =>
      have noLine : ∀ later, '/' :: rest ≠ '/' :: '/' :: later := fun later same =>
        notLine later (List.cons.inj same).2
      have noBlock : ∀ later, '/' :: rest ≠ '/' :: '*' :: later := fun later same =>
        notBlock later (List.cons.inj same).2
      exact codeLength_respell_code noLine noBlock notEnds rfl (ih trivial) kept
  | case6 c text notEnds notSlash isQuote ih =>
      exact codeLength_respell_code (ne_pair_of_ne notSlash _) (ne_pair_of_ne notSlash _) notEnds
        (if_pos isQuote) (ih (not_isLineBreak_of_isQuote isQuote)) kept
  | case7 c text notEnds notSlash notQuote ih =>
      exact codeLength_respell_code (ne_pair_of_ne notSlash _) (ne_pair_of_ne notSlash _) notEnds
        (if_neg notQuote) (ih trivial) kept
  | case8 quote escaped c text ih =>
      rw [Nat.add_comm, List.take_succ_cons, protectsBreak, Bool.or_eq_false_iff] at kept
      rw [codeLength_quoted_respell plain kept.1, length_respell_take,
        ih (ScriptPlace.isPlain_afterQuoted plain c) kept.2]
  | case9 c text closes =>
      exact codeLength_of_closesScript (.inl rfl) ((closesScript_respell _).trans closes)
  | case10 text notCloses ih =>
      rw [Nat.add_comm, List.take_succ_cons, protectsBreak, if_pos rfl] at kept
      rw [codeLength_lineComment_respell notCloses, if_pos rfl, length_respell_take,
        ih trivial kept]
  | case11 c text notCloses notFeed ih =>
      rw [Nat.add_comm, List.take_succ_cons, protectsBreak, if_neg notFeed] at kept
      rw [codeLength_lineComment_respell notCloses, if_neg notFeed, length_respell_take,
        ih trivial kept]
  | case12 c text closes =>
      exact codeLength_of_closesScript (.inr rfl) ((closesScript_respell _).trans closes)
  | case13 rest notCloses ih =>
      have otherCloses := not_closesScript_respell style notCloses
      rw [Nat.add_comm, List.take_succ_cons, List.take_succ_cons, protectsBreak] at kept
      rw [length_respell_take_pair (by decide) (by decide), ← ih trivial kept]
      rw [respell_cons_of_ne (by decide), respell_cons_of_ne (by decide)] at otherCloses ⊢
      exact codeLength_blockClosing otherCloses
  | case14 rest notEnd notCloses ih =>
      have noEnd : ∀ later, '*' :: rest ≠ '*' :: '/' :: later := fun later same =>
        notEnd later (List.cons.inj same).2
      rw [Nat.add_comm, List.take_succ_cons, protectsBreak] at kept
      · rw [codeLength_blockComment_respell notCloses noEnd, length_respell_take, ih trivial kept]
      · exact fun later _ same => take_ne_pair noEnd _ later (by rw [same])
  | case15 c text notCloses notStar ih =>
      rw [Nat.add_comm, List.take_succ_cons, protectsBreak] at kept
      · rw [codeLength_blockComment_respell notCloses (ne_pair_of_ne notStar _),
          length_respell_take, ih trivial kept]
      · exact fun _ isStar _ => notStar isStar

theorem respells_scanScript (text : List Char)
    (kept : ∀ code length, scanScript text = .found (.scriptCode code) length →
      protectsBreak .code code.toList = false) :
    (scanScript text).Respells style .script text (scanScript (respell style text)) := by
  have emptyEq : (respell style text).isEmpty = text.isEmpty := by
    rw [Bool.eq_iff_iff, List.isEmpty_iff, List.isEmpty_iff, respell_eq_nil]
  have openEq := startsWith_respell style ['{', '{'] (by decide) text
  have closeEq := startsWith_respell style ['}', '}'] (by decide) text
  rw [scanScript] at kept
  rw [scanScript, scanScript, closesScript_respell, openEq, closeEq, emptyEq]
  split
  · next closes => exact respells_tag (by decide) closes fun _ => rfl
  next notClosed =>
  rw [if_neg notClosed] at kept
  split
  · next starts =>
      obtain ⟨tail, textEq⟩ := startsWith_iff.1 starts
      exact respells_line textEq rfl (by decide) rfl
  next notOpen =>
  rw [if_neg notOpen] at kept
  split
  · next starts =>
      obtain ⟨tail, textEq⟩ := startsWith_iff.1 starts
      exact respells_line textEq rfl (by decide) rfl
  next notEnded =>
  rw [if_neg notEnded] at kept
  split
  · rfl
  next nonempty =>
  rw [if_neg nonempty] at kept
  have unprotected := kept _ _ rfl
  rw [String.toList_ofList] at unprotected
  have lengthEq := codeLength_respell style ScriptPlace.isPlain_code text unprotected
  have textEq := (List.take_append_drop (codeLength .code text) text).symm
  refine respells_found textEq (List.length_take_of_le (codeLength_le _ _)).symm ?_ lengthEq
  rw [lengthEq, take_respell]
  simp [TokenKind.written, TokenKind.respell]

end Scripts

section Matter

theorem beginsWithDelimiterLine_respell (style : BreakStyle) (text : List Char) :
    beginsWithDelimiterLine (respell style text) = beginsWithDelimiterLine text := by
  rw [beginsWithDelimiterLine, beginsWithDelimiterLine, startsWith_respell _ _ (by decide)]
  cases starts : startsWith delimiter text with
  | false => rfl
  | true =>
      obtain ⟨tail, textEq⟩ := startsWith_iff.1 starts
      have dropEq := drop_respell_of_notMem style textEq (by decide)
      change (respell style text).drop 3 = respell style (text.drop 3) at dropEq
      rw [dropEq, all_head?_respell rfl]

/-- A block is longer than the delimiter it begins with in every style. -/
theorem longer_than_delimiter (begins : beginsWithDelimiterLine text = true) :
    3 < (respell style text).length ↔ 3 < text.length := by
  rw [beginsWithDelimiterLine, Bool.and_eq_true] at begins
  obtain ⟨tail, rfl⟩ := startsWith_iff.1 begins.1
  have delimiterEq : respell style delimiter = delimiter := respell_of_notMem (by decide)
  have tails : 0 < (respell style tail).length ↔ 0 < tail.length := by
    rw [List.length_pos_iff, List.length_pos_iff, ne_eq, respell_eq_nil]
  rw [respell_append, delimiterEq, List.length_append, List.length_append]
  change 3 < 3 + _ ↔ 3 < 3 + _
  omega

theorem splitLine_respell (noReturn : '\r' ∉ text) :
    splitLine (respell style text) =
      ((splitLine text).1, respell style (splitLine text).2.1,
        respell style (splitLine text).2.2) := by
  induction text with
  | nil => rfl
  | cons c text ih =>
      obtain ⟨notReturn, later⟩ := not_or.1 (List.mem_cons.not.1 noReturn)
      by_cases isFeed : c = '\n'
      · subst isFeed
        cases style <;>
          simp [splitLine, respell, BreakStyle.spell, BreakStyle.lineBreak, isLineBreak]
      · have plain : isLineBreak c = false := by simp [isLineBreak, isFeed, Ne.symm notReturn]
        rw [respell_cons_of_ne isFeed, splitLine, splitLine, plain, ih later]
        · simp [respell_cons_of_ne isFeed]
        · exact fun _ isReturn => (notReturn isReturn.symm).elim
        · exact fun _ isReturn => (notReturn isReturn.symm).elim

theorem lineLength_respell (style : BreakStyle) (noReturn : '\r' ∉ text) :
    lineLength (respell style text) = (respell style (text.take (lineLength text))).length := by
  have lineEq : text.take (lineLength text) = (splitLine text).2.1 :=
    (congrArg (List.take (lineLength text)) (splitLine_append text).symm).trans List.take_left
  rw [lineEq, lineLength, splitLine_respell noReturn]

theorem closingDistance?_break (style : BreakStyle) (lineStart : Bool) (place : MatterPlace)
    (text : List Char) :
    closingDistance? lineStart place (style.lineBreak ++ text) =
      (closingDistance? true place.afterLineBreak text).map (· + style.lineBreak.length) := by
  have step : ∀ c, isLineBreak c = true → ∀ lineStart place text,
      closingDistance? lineStart place (c :: text) =
        (closingDistance? true place.afterLineBreak text).map (· + 1) := by
    intro c isBreak lineStart place text
    have noDelimiter : beginsWithDelimiterLine (c :: text) = false := by
      rw [beginsWithDelimiterLine, startsWith_of_break (by decide) (by decide) isBreak,
        Bool.false_and]
    simp only [closingDistance?, noDelimiter, Bool.and_false, isBreak, if_true]
    rfl
  cases style with
  | feed => exact step '\n' rfl lineStart place text
  | pair =>
      change closingDistance? lineStart place ('\r' :: '\n' :: text) = _
      rw [step '\r' rfl, step '\n' rfl, Option.map_map]
      rfl

theorem closingDistance?_respell (lineStart : Bool) (place : MatterPlace) (text : List Char) :
    closingDistance? lineStart place (respell style text) =
      (closingDistance? lineStart place text).map fun distance =>
        (respell style (text.take distance)).length := by
  induction text generalizing lineStart place with
  | nil => rfl
  | cons c text ih =>
      have longer : ∀ shorter? : Option Nat,
          (shorter?.map fun distance => (respell style (text.take distance)).length).map
              (· + (style.spell c).length) =
            (shorter?.map (· + 1)).map fun distance =>
              (respell style ((c :: text).take distance)).length := by
        intro shorter?
        rw [Option.map_map, Option.map_map]
        congr 1
        funext distance
        simp [respell_cons, Nat.add_comm]
      by_cases isFeed : c = '\n'
      · have feedEq : closingDistance? lineStart place ('\n' :: text) =
            (closingDistance? true place.afterLineBreak text).map (· + 1) :=
          closingDistance?_break .feed lineStart place text
        subst isFeed
        rw [feedEq, ← longer, ← ih]
        exact closingDistance?_break style lineStart place _
      · have begins := beginsWithDelimiterLine_respell style (c :: text)
        rw [BreakStyle.spell_of_ne isFeed, List.length_singleton] at longer
        rw [respell_cons_of_ne isFeed] at begins ⊢
        rw [closingDistance?, closingDistance?, begins, ih, ih, longer, longer]
        split
        · rfl
        · split <;> rfl

theorem withoutFinalBreak_plain (plain : isLineBreak c = false) (before : List Char) :
    withoutFinalBreak (before ++ [c]) = before ++ [c] := by
  rw [withoutFinalBreak, List.reverse_concat]
  split
  · next same =>
      rw [(List.cons.inj same).1] at plain
      cases plain
  · next same =>
      obtain ⟨rfl, rfl⟩ := List.cons.inj same
      rw [plain, if_neg Bool.false_ne_true]
  · next same => cases same

theorem withoutFinalBreak_respell (noReturn : '\r' ∉ text) :
    withoutFinalBreak (respell style text) = respell style (withoutFinalBreak text) := by
  obtain rfl | ⟨before, c, textEq⟩ := List.eq_nil_or_concat text
  · rfl
  rw [List.concat_eq_append] at textEq
  subst textEq
  obtain ⟨noReturnBefore, notReturn⟩ := not_or.1 (List.mem_append.not.1 noReturn)
  have spelled : respell style [c] = style.spell c := List.append_nil _
  rw [respell_append, spelled, BreakStyle.spell]
  split
  · next isFeed =>
      subst isFeed
      have notReturn : before.getLast? ≠ some '\r' :=
        fun last => noReturnBefore (List.mem_of_getLast? last)
      rw [withoutFinalBreak_feed notReturn]
      cases style with
      | feed => rw [respell_feed]; exact withoutFinalBreak_feed notReturn
      | pair => exact withoutFinalBreak_pair _
  · next notFeed =>
      have plain : isLineBreak c = false := by
        simp [isLineBreak, notFeed, Ne.symm (List.ne_of_not_mem_cons notReturn)]
      rw [withoutFinalBreak_plain plain, withoutFinalBreak_plain plain, respell_append, spelled,
        BreakStyle.spell_of_ne notFeed]

/-- A block of front matter: its first line, what is in it, and the line behind that. -/
theorem respells_matter (style : BreakStyle) (opening : List Char) {content behind : List Char}
    (noReturn : '\r' ∉ content) (noReturnBehind : '\r' ∉ behind) :
    (Scan.found (.frontMatter (String.ofList (withoutFinalBreak content)))
      (opening.length + content.length + lineLength behind)).Respells style .frontMatter
      (opening ++ (content ++ behind))
      (.found (.frontMatter (String.ofList (withoutFinalBreak (respell style content))))
        ((respell style opening).length + (respell style content).length +
          lineLength (respell style behind))) := by
  have textEq : opening ++ (content ++ behind) =
      (opening ++ content ++ behind.take (lineLength behind)) ++
        behind.drop (lineLength behind) := by
    rw [List.append_assoc _ (behind.take _), List.take_append_drop, List.append_assoc]
  refine respells_found textEq ?_ ?_ ?_
  · rw [List.length_append, List.length_append, List.length_take_of_le (lineLength_le behind)]
  · simp [TokenKind.written, TokenKind.respell, withoutFinalBreak_respell noReturn]
  · rw [lineLength_respell style noReturnBehind, respell_append, respell_append,
      List.length_append, List.length_append]

theorem respells_scanFrontMatter (atStart : Bool) (noReturn : '\r' ∉ text) :
    (scanFrontMatter atStart text).Respells style .frontMatter text
      (scanFrontMatter atStart (respell style text)) := by
  have noMatter : (Scan.found (.frontMatter "") 0).Respells style .frontMatter text
      (.found (.frontMatter "") 0) := respells_line (List.nil_append text).symm rfl (by simp) rfl
  rw [scanFrontMatter, scanFrontMatter, beginsWithDelimiterLine_respell]
  by_cases begins : beginsWithDelimiterLine text = true
  · have longer : (3 < (respell style text).length) = (3 < text.length) :=
      propext (longer_than_delimiter begins)
    simp only [longer]
    split
    · have insideEq : (respell style text).drop (lineLength (respell style text)) =
          respell style (text.drop (lineLength text)) := by
        rw [lineLength_respell style noReturn, drop_respell]
      simp only [insideEq, closingDistance?_respell]
      cases found : closingDistance? true .start (text.drop (lineLength text)) with
      | none => trivial
      | some distance =>
          simp only [Option.map_some, take_respell, drop_respell]
          rw [lineLength_respell style noReturn]
          have noReturnInside : '\r' ∉ text.drop (lineLength text) := fun mem =>
            noReturn (List.mem_of_mem_drop mem)
          have noReturnContent : '\r' ∉ (text.drop (lineLength text)).take distance := fun mem =>
            noReturnInside (List.mem_of_mem_take mem)
          have noReturnBehind : '\r' ∉ (text.drop (lineLength text)).drop distance := fun mem =>
            noReturnInside (List.mem_of_mem_drop mem)
          have respells := respells_matter style (text.take (lineLength text)) noReturnContent
            noReturnBehind
          rwa [List.take_append_drop distance, List.take_append_drop,
            List.length_take_of_le (lineLength_le text),
            List.length_take_of_le (closingDistance?_le found)] at respells
    · exact noMatter
  · simp only [begins, Bool.and_false, Bool.false_and]
    exact noMatter

end Matter

end Lex

/-- Whatever the mode, a scan finds the same in every style, but for the script code
that has a protected line break. -/
theorem Lexer.respells_scanAt {style : Text.BreakStyle} {text read : List Char}
    {cursor other : Cursor} (mode : LexMode)
    (respells : Cursor.Respells style text read cursor other) (noReturn : '\r' ∉ cursor.rest)
    (kept : ∀ code length, Lexer.scanAt mode cursor = .found (.scriptCode code) length →
      Lex.protectsBreak .code code.toList = false) :
    (Lexer.scanAt mode cursor).Respells style mode cursor.rest (Lexer.scanAt mode other) := by
  simp only [Lexer.scanAt, respells.rest_eq, respells.offset_eq_zero] at kept ⊢
  cases mode with
  | frontMatter => exact Lex.respells_scanFrontMatter _ noReturn
  | markup => exact Lex.respells_scanMarkup _
  | tag => exact Lex.respells_scanTag _
  | style => exact Lex.respells_scanStyle _
  | script => exact Lex.respells_scanScript _ kept
  | expression => exact Lex.respells_scanExpression _

end TemplateCompiler
