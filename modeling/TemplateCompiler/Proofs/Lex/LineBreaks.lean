import TemplateCompiler.Proofs.Lex.Fitting
import TemplateCompiler.Proofs.Lex.Places
import TemplateCompiler.Proofs.Source.Lines

/-!
# Tokens and line breaks

A line break of two characters is never divided: no token ends between its carriage
return and its line feed, and no lexical error is reported there.  A run of
whitespace takes both, and every other token ends with a character that is no
carriage return or before one that is no line feed.
-/

namespace TemplateCompiler

namespace Lex

open Text

/-- Whether a scan of a text neither ends a token inside a line break nor reports an
error there. -/
def Scan.IsWhole (text : List Char) : Scan → Prop
  | .ok none => True
  | .ok (some lexeme) => EndsWhole lexeme.length text
  | .error fault => EndsWhole fault.anchor text

variable {c : Char} {text piece tail : List Char}

section Runs

theorem isWhole_mark {mark : Punctuation} (textEq : text = mark.spelling.toList ++ tail) :
    (Scan.mark mark).IsWhole text := by
  change EndsWhole mark.spelling.length text
  rw [← String.length_toList]
  apply endsWhole_of_notMem textEq
  cases mark <;> decide

theorem endsWhole_whitespaceRun (text : List Char) :
    EndsWhole (whitespaceRun text).length text := by
  apply endsWhole_of_next
  rw [whitespaceRun, drop_length_eq List.takeWhile_append_dropWhile.symm]
  intro next
  have stopped := List.head?_dropWhile_not CharClass.isMarkupSpace text
  rw [next] at stopped
  exact absurd stopped (by decide)

theorem endsWhole_takeWhile {member : Char → Bool} (outside : member '\r' = false)
    (text : List Char) : EndsWhole (text.takeWhile member).length text := by
  apply endsWhole_of_notMem List.takeWhile_append_dropWhile.symm
  intro inside
  exact Bool.false_ne_true (outside.symm.trans (List.mem_takeWhile_imp inside))

theorem endsWhole_name {isStart isPart : Char → Bool} {word : List Char}
    (start : isStart '\r' = false) (part : isPart '\r' = false)
    (found : name? isStart isPart text = some word) : EndsWhole word.length text := by
  cases text with
  | nil => simp [name?] at found
  | cons c text =>
      simp only [name?, Option.ite_none_right_eq_some, Option.some.injEq] at found
      obtain ⟨isFirst, rfl⟩ := found
      have textEq : c :: text = (c :: text.takeWhile isPart) ++ text.dropWhile isPart := by simp
      apply endsWhole_of_notMem textEq
      intro member
      rcases List.mem_cons.1 member with rfl | later
      · exact Bool.false_ne_true (start.symm.trans isFirst)
      · exact Bool.false_ne_true (part.symm.trans (List.mem_takeWhile_imp later))

end Runs

section Literals

/-- Where the reading of a literal ends: at its quote, or at the backslash of an
escape that is unknown. -/
def QuotedBody.EndsIn (quote : Char) (text : List Char) : QuotedBody → Prop
  | .closed _ length => ∃ inner tail, text = inner ++ quote :: tail ∧ length = inner.length + 1
  | .badEscape _ before => ∃ inner tail, text = inner ++ '\\' :: tail ∧ before = inner.length
  | .unclosed => True

variable {quote : Char} {body : QuotedBody}

theorem QuotedBody.EndsIn.prepend (ends : body.EndsIn quote text) (part piece : List Char) :
    (body.prepend part piece.length).EndsIn quote (piece ++ text) := by
  cases body with
  | closed value length =>
      obtain ⟨inner, tail, rfl, rfl⟩ := ends
      refine ⟨piece ++ inner, tail, (List.append_assoc _ _ _).symm, ?_⟩
      rw [List.length_append, Nat.add_assoc]
  | badEscape escape before =>
      obtain ⟨inner, tail, rfl, rfl⟩ := ends
      exact ⟨piece ++ inner, tail, (List.append_assoc _ _ _).symm, List.length_append.symm⟩
  | unclosed => trivial

theorem readQuoted_endsIn (quote : Char) (text : List Char) :
    (readQuoted quote text).EndsIn quote text := by
  fun_induction readQuoted quote text with
  | case1 => trivial
  | case2 text => exact ⟨[], text, rfl, rfl⟩
  | case3 => trivial
  | case4 escape text resolved _ _ ih => exact ih.prepend [resolved] ['\\', escape]
  | case5 escape text => exact ⟨[], escape :: text, rfl, rfl⟩
  | case6 c text _ _ ih => exact ih.prepend [c] [c]

theorem readProtected_endsIn (quote : Char) (text : List Char) :
    (readProtected quote text).EndsIn quote text := by
  fun_induction readProtected quote text with
  | case1 => trivial
  | case2 text => exact ⟨[], text, rfl, rfl⟩
  | case3 => trivial
  | case4 escape text _ ih => exact ih.prepend ['\\', escape] ['\\', escape]
  | case5 c text _ _ ih => exact ih.prepend [c] [c]

theorem readTemplate_endsIn (depth : Nat) (text : List Char) :
    (readTemplate depth text).EndsIn '\x60' text := by
  fun_induction readTemplate depth text with
  | case1 => trivial
  | case2 text => exact ⟨[], text, rfl, rfl⟩
  | case3 => trivial
  | case4 escape text resolved _ ih => exact ih.prepend [resolved] ['\\', escape]
  | case5 escape text _ => exact ⟨[], escape :: text, rfl, rfl⟩
  | case6 depth text ih => exact ih.prepend ['$', '{'] ['$', '{']
  | case7 depth text ih => exact ih.prepend ['{'] ['{']
  | case8 depth text ih => exact ih.prepend ['}'] ['}']
  | case9 depth c text _ _ _ _ _ ih => exact ih.prepend [c] [c]

theorem isWhole_quoted {kind : String → TokenKind} {cause : Cause}
    (ends : body.EndsIn quote text) (notReturn : quote ≠ '\r') :
    (body.scan kind cause (c :: text)).IsWhole (c :: text) := by
  cases body with
  | closed value length =>
      obtain ⟨inner, tail, rfl, rfl⟩ := ends
      exact endsWhole_of_last (c :: inner) rfl rfl notReturn
  | badEscape escape before =>
      obtain ⟨inner, tail, rfl, rfl⟩ := ends
      apply endsWhole_of_next
      rw [List.drop_succ_cons, List.drop_left]
      exact fun isFeed => absurd (Option.some.inj isFeed) (by decide)
  | unclosed => exact endsWhole_zero _

theorem isQuote_ne_return (isQuote : CharClass.isQuote c = true) : c ≠ '\r' := by
  rintro rfl
  exact absurd isQuote (by decide)

theorem isWhole_scanString? {scan : Scan} (tried : scanString? text = some scan) :
    scan.IsWhole text := by
  cases text with
  | nil => simp [scanString?] at tried
  | cons c text =>
      simp only [scanString?, Option.ite_none_right_eq_some, Option.some.injEq] at tried
      obtain ⟨isQuote, rfl⟩ := tried
      exact isWhole_quoted (readQuoted_endsIn c text) (isQuote_ne_return isQuote)

theorem isWhole_scanProtectedString? {scan : Scan}
    (tried : scanProtectedString? text = some scan) : scan.IsWhole text := by
  cases text with
  | nil => simp [scanProtectedString?] at tried
  | cons c text =>
      simp only [scanProtectedString?, Option.ite_none_right_eq_some, Option.some.injEq] at tried
      obtain ⟨isQuote, rfl⟩ := tried
      exact isWhole_quoted (readProtected_endsIn c text) (isQuote_ne_return isQuote)

theorem isWhole_scanTemplate? {scan : Scan} (tried : scanTemplate? text = some scan) :
    scan.IsWhole text := by
  cases text with
  | nil => simp [scanTemplate?] at tried
  | cons c text =>
      simp only [scanTemplate?, Option.ite_none_right_eq_some, Option.some.injEq] at tried
      obtain ⟨-, rfl⟩ := tried
      exact isWhole_quoted (readTemplate_endsIn 0 text) (by decide)

end Literals

section Numbers

theorem noReturn_digits (text : List Char) : '\r' ∉ text.takeWhile Char.isDigit := by
  intro member
  exact absurd (List.mem_takeWhile_imp member) (by decide)

theorem noReturn_signPart (text : List Char) : '\r' ∉ signPart text := by
  cases text with
  | nil => exact List.not_mem_nil
  | cons c text =>
      rw [signPart]
      split
      · intro member
        obtain rfl := List.mem_singleton.1 member
        simp_all
      · exact List.not_mem_nil

theorem noReturn_fractionPart (text : List Char) : '\r' ∉ fractionPart text := by
  unfold fractionPart
  split
  · simp only
    split
    · exact List.not_mem_nil
    · exact List.not_mem_cons_of_ne_of_not_mem (by decide) (noReturn_digits _)
  · exact List.not_mem_nil

theorem noReturn_exponentPart (text : List Char) : '\r' ∉ exponentPart text := by
  cases text with
  | nil => exact List.not_mem_nil
  | cons c text =>
      simp only [exponentPart]
      split
      · next isLetter =>
          split
          · exact List.not_mem_nil
          · refine List.not_mem_cons_of_ne_of_not_mem ?_
              (List.not_mem_append (noReturn_signPart _) (noReturn_digits _))
            rintro rfl
            exact absurd isLetter (by decide)
      · exact List.not_mem_nil

theorem noReturn_numberSpelling? {spelling : List Char}
    (found : numberSpelling? text = some spelling) : '\r' ∉ spelling := by
  simp only [numberSpelling?, Option.ite_none_left_eq_some, Option.some.injEq] at found
  obtain ⟨-, rfl⟩ := found
  apply List.not_mem_append _ (noReturn_exponentPart _)
  apply List.not_mem_append _ (noReturn_fractionPart _)
  exact List.not_mem_append (noReturn_signPart _) (noReturn_digits _)

theorem endsWhole_number {value : Float} {length : Nat}
    (found : readNumber? text = some (value, length)) : EndsWhole length text := by
  simp only [readNumber?, Option.bind_eq_bind, Option.bind_eq_some_iff, Option.pure_def,
    Option.some.injEq, Prod.mk.injEq] at found
  obtain ⟨spelling, spellingEq, _, -, -, rfl⟩ := found
  obtain ⟨-, tail, textEq⟩ := numberSpelling?_prefix spellingEq
  exact endsWhole_of_notMem textEq (noReturn_numberSpelling? spellingEq)

end Numbers

section Scanners

theorem isWhole_scanMarkupComment (text : List Char) :
    (scanMarkupComment text).IsWhole ('<' :: '!' :: '-' :: '-' :: text) := by
  unfold scanMarkupComment
  split
  · next body after split =>
      obtain ⟨tail, rfl⟩ := splitAtFirst?_append split
      have textEq : '<' :: '!' :: '-' :: '-' :: (body ++ (['-', '-', '>'] ++ tail)) =
          ("<!--".toList ++ body ++ ['-', '-']) ++ '>' :: tail := by simp
      exact endsWhole_of_last _ textEq (by simp) (by decide)
  · exact endsWhole_zero _

theorem isWhole_scanEntity (text : List Char) : (scanEntity text).IsWhole ('&' :: text) := by
  simp only [scanEntity]
  split
  · next tail dropped =>
      split
      · exact endsWhole_zero _
      · have divided : text = text.takeWhile CharClass.isEntityPart ++
            text.dropWhile CharClass.isEntityPart := List.takeWhile_append_dropWhile.symm
        rw [drop_length_eq divided] at dropped
        rw [dropped] at divided
        exact endsWhole_of_last ('&' :: text.takeWhile CharClass.isEntityPart)
          (congrArg ('&' :: ·) divided) rfl (by decide)
  · exact endsWhole_zero _

theorem isWhole_scanMarkup (text : List Char) : (scanMarkup text).IsWhole text := by
  unfold scanMarkup
  split
  · trivial
  · exact isWhole_scanMarkupComment _
  · exact endsWhole_of_last ['{'] rfl rfl (by decide)
  · exact isWhole_scanEntity _
  · exact isWhole_mark rfl
  · exact isWhole_mark rfl
  · exact isWhole_mark rfl
  · exact isWhole_mark rfl
  · exact isWhole_mark rfl
  · simp only
    split
    · exact endsWhole_whitespaceRun _
    · exact endsWhole_takeWhile (by decide) _

theorem isWhole_scanTag (text : List Char) : (scanTag text).IsWhole text := by
  unfold scanTag
  split
  · trivial
  · next c text =>
      split
      · exact endsWhole_whitespaceRun _
      · split
        · next mark isMark =>
            have markEq : Punctuation.ofChar? c = some mark := by
              simp only [tagMark?, Option.ite_none_right_eq_some] at isMark
              exact isMark.2
            exact isWhole_mark (by rw [ofChar?_spelling markEq]; rfl)
        · split
          · next word isName => exact endsWhole_name (by decide) (by decide) isName
          · split
            · next scan tried => exact isWhole_scanString? tried
            · split
              · next value length read => exact endsWhole_number read
              · exact endsWhole_zero _

theorem isWhole_scanExpressionMark (c : Char) (text : List Char) :
    (scanExpressionMark c text).IsWhole (c :: text) := by
  unfold scanExpressionMark
  split
  · next mark isMark =>
      obtain ⟨tail, textEq⟩ := longMark?_prefix isMark
      exact isWhole_mark textEq
  · split
    · next mark isMark =>
        have markEq : Punctuation.ofChar? c = some mark := by
          simp only [expressionMark?, Option.ite_none_right_eq_some] at isMark
          exact isMark.2
        exact isWhole_mark (by rw [ofChar?_spelling markEq]; rfl)
    · exact endsWhole_zero _

theorem isWhole_scanExpressionLiteral (c : Char) (text : List Char) :
    (scanExpressionLiteral c text).IsWhole (c :: text) := by
  unfold scanExpressionLiteral
  split
  · next scan tried => exact isWhole_scanTemplate? tried
  · split
    · next scan tried => exact isWhole_scanString? tried
    · split
      · split
        · next value length read => exact endsWhole_number read
        · exact isWhole_scanExpressionMark c text
      · exact isWhole_scanExpressionMark c text

theorem isWhole_scanExpression (text : List Char) : (scanExpression text).IsWhole text := by
  unfold scanExpression
  split
  · trivial
  · split
    · exact endsWhole_whitespaceRun _
    · split
      · next starts =>
          obtain ⟨tail, textEq⟩ := startsWith_iff.1 starts
          exact endsWhole_of_last ['}'] textEq rfl (by decide)
      · split
        · next word isName => exact endsWhole_name (by decide) (by decide) isName
        · exact isWhole_scanExpressionLiteral _ _

theorem endsWhole_unit {unit : String} (found : unit? text = some unit) :
    EndsWhole unit.length text := by
  have begins := List.find?_some found
  simp only [beginsWithName, Bool.and_eq_true] at begins
  obtain ⟨tail, textEq⟩ := startsWith_iff.1 begins.1
  have noReturn : ∀ unit ∈ units, '\r' ∉ unit.toList := by decide
  rw [← String.length_toList]
  exact endsWhole_of_notMem textEq (noReturn unit (List.mem_of_find?_eq_some found))

theorem isWhole_scanStyleWord (c : Char) (text : List Char) :
    (scanStyleWord c text).IsWhole (c :: text) := by
  unfold scanStyleWord
  split
  · next value length read =>
      unfold scanDimension
      split
      · next unit isUnit => exact (endsWhole_number read).add (endsWhole_unit isUnit)
      · exact endsWhole_number read
  · split
    · next word isName => exact endsWhole_name (by decide) (by decide) isName
    · split
      · next mark isMark => exact isWhole_mark (by rw [ofChar?_spelling isMark]; rfl)
      · exact endsWhole_zero _

theorem isWhole_scanStyleComment (text : List Char) :
    (scanStyleComment text).IsWhole ('/' :: '*' :: text) := by
  unfold scanStyleComment
  split
  · next body after split =>
      obtain ⟨tail, rfl⟩ := splitAtFirst?_append split
      have textEq : '/' :: '*' :: (body ++ (['*', '/'] ++ tail)) =
          ('/' :: '*' :: body ++ ['*']) ++ '/' :: tail := by simp
      exact endsWhole_of_last _ textEq (by simp) (by decide)
  · exact endsWhole_zero _

/-- What a text begins with, in any case, has no carriage return if the pattern has
none. -/
theorem endsWhole_ignoreCase {pattern : List Char} (noReturn : '\r' ∉ pattern.map Char.toLower)
    (starts : Text.startsWithIgnoreCase pattern text = true) :
    EndsWhole pattern.length text := by
  obtain ⟨within, equal⟩ := equalIgnoreCase_take starts
  rw [equalIgnoreCase_iff.1 equal] at noReturn
  rw [← List.length_take_of_le within]
  apply endsWhole_of_notMem (List.take_append_drop _ _).symm
  exact fun member => noReturn (List.mem_map_of_mem member)

theorem endsWhole_colorDigits {digits : List Char} (found : colorDigits? text = some digits) :
    EndsWhole (digits.length + 1) ('#' :: text) := by
  simp only [colorDigits?, Option.ite_none_right_eq_some, Option.some.injEq] at found
  obtain ⟨-, rfl⟩ := found
  have textEq : '#' :: text = ('#' :: text.takeWhile CharClass.isHexDigit) ++
      text.dropWhile CharClass.isHexDigit := by simp
  apply endsWhole_of_notMem textEq
  intro member
  rcases List.mem_cons.1 member with impossible | later
  · exact absurd impossible (by decide)
  · exact absurd (List.mem_takeWhile_imp later) (by decide)

theorem isWhole_scanStyle (text : List Char) : (scanStyle text).IsWhole text := by
  unfold scanStyle
  split
  · trivial
  · next c text =>
      split
      · exact endsWhole_whitespaceRun _
      · split
        · next ends => exact endsWhole_ignoreCase (by decide) ends
        · split
          · next starts =>
              obtain ⟨tail, textEq⟩ := startsWith_iff.1 starts
              obtain ⟨rfl, rfl⟩ := List.cons.inj textEq
              exact isWhole_scanStyleComment _
          · split
            · next scan tried => exact isWhole_scanProtectedString? tried
            · split
              · next isHash =>
                  subst isHash
                  split
                  · next digits isColor => exact endsWhole_colorDigits isColor
                  · exact isWhole_scanStyleWord _ _
              · exact isWhole_scanStyleWord _ _

theorem endsCode_feed (text : List Char) : endsCode ('\n' :: text) = false :=
  rfl

theorem closesScript_feed (text : List Char) : closesScript ('\n' :: text) = false :=
  rfl

/-- Code ends at the end of the text or before one of its terminators. -/
theorem codeLength_next (place : ScriptPlace) (text : List Char) :
    (text.drop (codeLength place text)).head? ≠ some '\n' := by
  fun_induction codeLength place text <;> grind [endsCode_feed, closesScript_feed]

theorem isWhole_scanScript (text : List Char) : (scanScript text).IsWhole text := by
  unfold scanScript
  split
  · next ends => exact endsWhole_ignoreCase (by decide) ends
  · split
    · next starts =>
        obtain ⟨tail, textEq⟩ := startsWith_iff.1 starts
        exact endsWhole_of_last ['{'] textEq rfl (by decide)
    · split
      · next starts =>
          obtain ⟨tail, textEq⟩ := startsWith_iff.1 starts
          exact endsWhole_of_last ['}'] textEq rfl (by decide)
      · split
        · trivial
        · exact endsWhole_of_next (codeLength_next _ _)

theorem endsWhole_lineLength (text : List Char) : EndsWhole (lineLength text) text := by
  unfold lineLength
  fun_induction splitLine text with
  | case1 => exact endsWhole_zero _
  | case2 text => exact endsWhole_of_last ['\r'] rfl rfl (by decide)
  | case3 c text notPair isBreak =>
      rintro ⟨isReturn, isFeed⟩
      obtain rfl : c = '\r' := Option.some.inj isReturn
      cases text with
      | nil => cases isFeed
      | cons d text =>
          obtain rfl : d = '\n' := Option.some.inj isFeed
          exact notPair text rfl rfl
  | case4 c text notPair plain broken line rest split ih =>
      rw [split] at ih
      have first : EndsWhole 1 (c :: text) :=
        endsWhole_of_last [] rfl rfl (not_isLineBreak (by simpa using plain)).2
      have both := first.add ih
      rwa [Nat.add_comm] at both

/-- A closing delimiter line begins with the character it is made of. -/
theorem closingDistance?_next {lineStart : Bool} {place : MatterPlace} {distance : Nat}
    (found : closingDistance? lineStart place text = some distance) :
    (text.drop distance).head? = some '-' := by
  induction text generalizing lineStart place distance with
  | nil => simp [closingDistance?] at found
  | cons c text ih =>
      rw [closingDistance?] at found
      split at found
      · next closes =>
          obtain rfl := Option.some.inj found
          simp only [Bool.and_eq_true, beginsWithDelimiterLine] at closes
          obtain ⟨tail, textEq⟩ := startsWith_iff.1 closes.2.1
          rw [List.drop_zero, textEq]
          rfl
      · split at found
        all_goals
          obtain ⟨shorter, foundShorter, rfl⟩ := Option.map_eq_some_iff.1 found
          exact ih foundShorter

theorem isWhole_scanFrontMatter (atStart : Bool) (text : List Char) :
    (scanFrontMatter atStart text).IsWhole text := by
  unfold scanFrontMatter
  split
  · simp only
    split
    · next distance found =>
        have next := closingDistance?_next found
        rw [List.drop_drop] at next
        refine EndsWhole.add (endsWhole_of_next ?_) ?_
        · rw [next]
          decide
        · rw [← List.drop_drop]
          exact endsWhole_lineLength _
    · exact endsWhole_zero _
  · exact endsWhole_zero _

end Scanners

end Lex

/-- Whatever the mode, a scan leaves line breaks whole. -/
theorem Lexer.isWhole_scanAt (mode : LexMode) (cursor : Cursor) :
    (Lexer.scanAt mode cursor).IsWhole cursor.rest := by
  cases mode with
  | frontMatter => exact Lex.isWhole_scanFrontMatter _ _
  | markup => exact Lex.isWhole_scanMarkup _
  | tag => exact Lex.isWhole_scanTag _
  | style => exact Lex.isWhole_scanStyle _
  | script => exact Lex.isWhole_scanScript _
  | expression => exact Lex.isWhole_scanExpression _

/-- The places that are true to a text. -/
def Places.trueTo (text : List Char) : Places where
  cursor := Cursor.Located text
  position := Position.IsTrue text
  error error := error.position.IsTrue text

theorem Places.closed_trueTo (text : List Char) : (Places.trueTo text).Closed where
  scan mode cursor located := by
    have whole := Lexer.isWhole_scanAt mode cursor
    split
    · trivial
    · next lexeme scanned =>
        rw [scanned] at whole
        exact ⟨located.isTrue.withLength _, located.advanceBy whole⟩
    · next fault scanned =>
        rw [scanned] at whole
        exact (located.advanceBy whole).isTrue.withLength _
  start := Position.isTrue_start text
  point _ located := located.isTrue
  upTo _ _ isTrue _ := isTrue.withLength _
  joined _ _ isTrue _ := isTrue.withLength _

end TemplateCompiler
