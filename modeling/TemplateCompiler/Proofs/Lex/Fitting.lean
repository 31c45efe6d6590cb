import TemplateCompiler.Lex.Lexer
import Mathlib.Data.List.TakeWhile
import Mathlib.Tactic.Common

/-!
# Lexemes fit the text they are found in

Whatever a scanner finds takes at least one character and no more than there
are, and the characters it takes are the spelling of its kind.  So a scan always
makes progress, and what was read can be recovered from the tokens.  Front
matter is the exception: it may be empty.
-/

namespace TemplateCompiler

/-- Whether a text consists of the whitespace of markup. -/
def Text.IsSpaces (text : List Char) : Prop :=
  ∀ c ∈ text, CharClass.isMarkupSpace c = true

theorem Text.isSpaces_nil : Text.IsSpaces [] :=
  fun _ member => absurd member List.not_mem_nil

/-- Whether a piece of text spells a kind of token.  Nothing is said about
literals, whose spelling their value does not determine. -/
def TokenKind.IsSpelled (piece : List Char) : TokenKind → Prop
  | .whitespace content =>
      piece = content.toList ∧ Text.IsSpaces piece
  | .text content | .entity content | .scriptCode content => piece = content.toList
  | .comment content => piece = "<!--".toList ++ content.toList ++ "-->".toList
  | .identifier name => piece = name.toList
  | .punctuation mark => piece = mark.spelling.toList
  | .interpolationStart => piece = ['{', '{']
  | .interpolationEnd => piece = ['}', '}']
  | .scriptEnd => Text.equalIgnoreCase "</script>".toList piece = true
  | .styleEnd => Text.equalIgnoreCase "</style>".toList piece = true
  | _ => True

namespace Lex

/-- A lexeme takes a piece of a text, which spells its kind. -/
structure Lexeme.Fits (lexeme : Lexeme) (text : List Char) : Prop where
  positive : 0 < lexeme.length
  within : lexeme.length ≤ text.length
  spelled : lexeme.kind.IsSpelled (text.take lexeme.length)

theorem fits_of_append {kind : TokenKind} {piece tail : List Char} (nonempty : piece ≠ [])
    (spelled : kind.IsSpelled piece) :
    Lexeme.Fits ⟨kind, piece.length⟩ (piece ++ tail) where
  positive := List.length_pos_iff.2 nonempty
  within := by simp
  spelled := by simpa using spelled

theorem fits_of_eq_append {kind : TokenKind} {length : Nat} {text piece tail : List Char}
    (textEq : text = piece ++ tail) (lengthEq : length = piece.length) (nonempty : piece ≠ [])
    (spelled : kind.IsSpelled piece) : Lexeme.Fits ⟨kind, length⟩ text := by
  subst textEq lengthEq
  exact fits_of_append nonempty spelled

theorem fits_of_length {kind : TokenKind} {length : Nat} {text : List Char}
    (literal : ∀ piece, kind.IsSpelled piece) (positive : 0 < length)
    (within : length ≤ text.length) : Lexeme.Fits ⟨kind, length⟩ text :=
  ⟨positive, within, literal _⟩

theorem startsWith_iff {pattern text : List Char} :
    Text.startsWith pattern text = true ↔ ∃ tail, text = pattern ++ tail := by
  rw [Text.startsWith, List.isPrefixOf_iff_prefix]
  exact ⟨fun ⟨tail, textEq⟩ => ⟨tail, textEq.symm⟩, fun ⟨tail, textEq⟩ => ⟨tail, textEq.symm⟩⟩

theorem equalIgnoreCase_take {pattern text : List Char}
    (starts : Text.startsWithIgnoreCase pattern text = true) :
    pattern.length ≤ text.length ∧
      Text.equalIgnoreCase pattern (text.take pattern.length) = true := by
  induction pattern generalizing text with
  | nil => exact ⟨Nat.zero_le _, rfl⟩
  | cons p pattern ih =>
      cases text with
      | nil => simp [Text.startsWithIgnoreCase] at starts
      | cons c text =>
          simp only [Text.startsWithIgnoreCase, Bool.and_eq_true] at starts
          obtain ⟨within, equal⟩ := ih starts.2
          simp [Text.equalIgnoreCase, starts.1, equal, within]

section Runs

theorem fits_whitespaceRun {c : Char} {text : List Char}
    (space : CharClass.isMarkupSpace c = true) :
    Lexeme.Fits
      ⟨.whitespace (String.ofList (whitespaceRun (c :: text))),
        (whitespaceRun (c :: text)).length⟩ (c :: text) := by
  refine fits_of_eq_append (List.takeWhile_append_dropWhile (p := CharClass.isMarkupSpace)).symm
    rfl ?_ ⟨by rw [String.toList_ofList]; rfl, fun c member => ?_⟩
  · simp [space]
  · exact List.mem_takeWhile_imp member

theorem fits_mark {mark : Punctuation} {text tail : List Char} {lexeme : Lexeme}
    (textEq : text = mark.spelling.toList ++ tail)
    (found : Scan.mark mark = .ok (some lexeme)) : lexeme.Fits text := by
  simp only [Scan.mark, Scan.found, Except.ok.injEq, Option.some.injEq] at found
  subst found
  refine fits_of_eq_append textEq String.length_toList.symm ?_ rfl
  cases mark <;> decide

theorem ofChar?_spelling {c : Char} {mark : Punctuation}
    (markEq : Punctuation.ofChar? c = some mark) : mark.spelling.toList = [c] := by
  unfold Punctuation.ofChar? at markEq
  split at markEq <;> simp_all <;> subst markEq <;> decide

theorem name?_eq_append {isStart isPart : Char → Bool} {text word : List Char}
    (found : name? isStart isPart text = some word) :
    word ≠ [] ∧ ∃ tail, text = word ++ tail := by
  cases text with
  | nil => simp [name?] at found
  | cons c text =>
      simp only [name?, Option.ite_none_right_eq_some, Option.some.injEq] at found
      obtain ⟨-, rfl⟩ := found
      exact ⟨List.cons_ne_nil _ _, text.dropWhile isPart, by simp⟩

theorem fits_word {isStart isPart : Char → Bool} {text word : List Char}
    (found : name? isStart isPart text = some word) :
    Lexeme.Fits ⟨wordKind word, word.length⟩ text := by
  obtain ⟨nonempty, tail, textEq⟩ := name?_eq_append found
  apply fits_of_eq_append textEq rfl nonempty
  unfold wordKind
  split <;> simp [TokenKind.IsSpelled]

end Runs

section Literals

/-- A closed body takes at least the closing quote and no more than there is. -/
def QuotedBody.Within (body : QuotedBody) (text : List Char) : Prop :=
  ∀ value length, body = .closed value length → 0 < length ∧ length ≤ text.length

theorem QuotedBody.Within.prepend {body : QuotedBody} {text longer : List Char}
    (within : body.Within text) {count : Nat} (part : List Char)
    (longerLength : longer.length = count + text.length) :
    (body.prepend part count).Within longer := by
  intro value length closed
  cases body with
  | closed inner innerLength =>
      simp only [QuotedBody.prepend, QuotedBody.closed.injEq] at closed
      have := within inner innerLength rfl
      omega
  | badEscape escape before => simp [QuotedBody.prepend] at closed
  | unclosed => simp [QuotedBody.prepend] at closed

theorem QuotedBody.within_of_not_closed {body : QuotedBody} (text : List Char)
    (notClosed : ∀ value length, body ≠ .closed value length) : body.Within text :=
  fun value length closed => (notClosed value length closed).elim

theorem QuotedBody.within_closed (c : Char) (text : List Char) :
    (QuotedBody.closed [] 1).Within (c :: text) := by
  intro value length closed
  simp only [QuotedBody.closed.injEq] at closed
  simp [← closed.2]

theorem readQuoted_within (quote : Char) (text : List Char) :
    (readQuoted quote text).Within text := by
  fun_induction readQuoted quote text with
  | case1 => exact QuotedBody.within_of_not_closed _ (by simp)
  | case2 => exact QuotedBody.within_closed _ _
  | case3 => exact QuotedBody.within_of_not_closed _ (by simp)
  | case4 _ escape text resolved _ ih =>
      exact ih.prepend _ (by simp only [List.length_cons]; omega)
  | case5 => exact QuotedBody.within_of_not_closed _ (by simp)
  | case6 c text _ _ ih => exact ih.prepend _ (by simp only [List.length_cons]; omega)

theorem readProtected_within (quote : Char) (text : List Char) :
    (readProtected quote text).Within text := by
  fun_induction readProtected quote text with
  | case1 => exact QuotedBody.within_of_not_closed _ (by simp)
  | case2 => exact QuotedBody.within_closed _ _
  | case3 => exact QuotedBody.within_of_not_closed _ (by simp)
  | case4 _ escape text ih =>
      exact ih.prepend _ (by simp only [List.length_cons]; omega)
  | case5 c text _ _ ih => exact ih.prepend _ (by simp only [List.length_cons]; omega)

theorem readTemplate_within (depth : Nat) (text : List Char) :
    (readTemplate depth text).Within text := by
  fun_induction readTemplate depth text with
  | case1 => exact QuotedBody.within_of_not_closed _ (by simp)
  | case2 => exact QuotedBody.within_closed _ _
  | case3 => exact QuotedBody.within_of_not_closed _ (by simp)
  | case4 escape text resolved _ ih =>
      exact ih.prepend _ (by simp only [List.length_cons]; omega)
  | case5 => exact QuotedBody.within_of_not_closed _ (by simp)
  | case6 depth text ih => exact ih.prepend _ (by simp only [List.length_cons]; omega)
  | case7 depth text ih => exact ih.prepend _ (by simp only [List.length_cons]; omega)
  | case8 depth text ih => exact ih.prepend _ (by simp only [List.length_cons]; omega)
  | case9 depth c text _ _ _ _ _ ih =>
      exact ih.prepend _ (by simp only [List.length_cons]; omega)

theorem fits_quoted (kind : String → TokenKind) {cause : Cause} {body : QuotedBody}
    {c : Char} {text : List Char} {lexeme : Lexeme}
    (literal : ∀ value piece, (kind value).IsSpelled piece) (within : body.Within text)
    (found : body.scan kind cause (c :: text) = .ok (some lexeme)) : lexeme.Fits (c :: text) := by
  cases body with
  | closed value length =>
      simp only [QuotedBody.scan, Scan.found, Except.ok.injEq, Option.some.injEq] at found
      subst found
      have := within value length rfl
      exact fits_of_length (literal _) (Nat.succ_pos _)
        (by simp only [List.length_cons]; omega)
  | badEscape escape before => simp [QuotedBody.scan] at found
  | unclosed => simp [QuotedBody.scan, Scan.unterminated] at found

theorem fits_scanString? {text : List Char} {scan : Scan} {lexeme : Lexeme}
    (tried : scanString? text = some scan) (found : scan = .ok (some lexeme)) :
    lexeme.Fits text := by
  cases text with
  | nil => simp [scanString?] at tried
  | cons c text =>
      simp only [scanString?, Option.ite_none_right_eq_some, Option.some.injEq] at tried
      exact fits_quoted .string (fun _ _ => trivial) (readQuoted_within c text)
        (tried.2.trans found)

theorem fits_scanProtectedString? {text : List Char} {scan : Scan} {lexeme : Lexeme}
    (tried : scanProtectedString? text = some scan) (found : scan = .ok (some lexeme)) :
    lexeme.Fits text := by
  cases text with
  | nil => simp [scanProtectedString?] at tried
  | cons c text =>
      simp only [scanProtectedString?, Option.ite_none_right_eq_some, Option.some.injEq] at tried
      exact fits_quoted .string (fun _ _ => trivial) (readProtected_within c text)
        (tried.2.trans found)

theorem fits_scanTemplate? {text : List Char} {scan : Scan} {lexeme : Lexeme}
    (tried : scanTemplate? text = some scan) (found : scan = .ok (some lexeme)) :
    lexeme.Fits text := by
  cases text with
  | nil => simp [scanTemplate?] at tried
  | cons c text =>
      simp only [scanTemplate?, Option.ite_none_right_eq_some, Option.some.injEq] at tried
      exact fits_quoted .templateLiteral (fun _ _ => trivial)
        (readTemplate_within 0 text) (tried.2.trans found)

theorem drop_length_eq {text piece tail : List Char} (textEq : text = piece ++ tail) :
    text.drop piece.length = tail := by
  rw [textEq, List.drop_left]

theorem signPart_prefix (text : List Char) : ∃ tail, text = signPart text ++ tail := by
  cases text with
  | nil => exact ⟨[], rfl⟩
  | cons c text =>
      simp only [signPart]
      split
      · exact ⟨text, rfl⟩
      · exact ⟨c :: text, rfl⟩

theorem fractionPart_prefix (text : List Char) : ∃ tail, text = fractionPart text ++ tail := by
  unfold fractionPart
  split
  · next text =>
      simp only
      split
      · exact ⟨'.' :: text, rfl⟩
      · exact ⟨text.dropWhile Char.isDigit, by simp⟩
  · exact ⟨text, rfl⟩

theorem exponentPart_prefix (text : List Char) : ∃ tail, text = exponentPart text ++ tail := by
  cases text with
  | nil => exact ⟨[], rfl⟩
  | cons c text =>
      simp only [exponentPart]
      split
      · split
        · exact ⟨c :: text, rfl⟩
        · obtain ⟨tail, textEq⟩ := signPart_prefix text
          refine ⟨tail.dropWhile Char.isDigit, ?_⟩
          rw [drop_length_eq textEq]
          simpa using textEq
      · exact ⟨c :: text, rfl⟩

theorem numberSpelling?_prefix {text spelling : List Char}
    (found : numberSpelling? text = some spelling) :
    spelling ≠ [] ∧ ∃ tail, text = spelling ++ tail := by
  obtain ⟨afterSign, signEq⟩ := signPart_prefix text
  obtain ⟨afterFraction, fractionEq⟩ := fractionPart_prefix (afterSign.dropWhile Char.isDigit)
  obtain ⟨tail, exponentEq⟩ := exponentPart_prefix afterFraction
  simp only [numberSpelling?, drop_length_eq signEq, drop_length_eq fractionEq] at found
  split at found
  · contradiction
  · next someDigits =>
      obtain rfl := Option.some.inj found
      refine ⟨fun empty => someDigits ?_, tail, ?_⟩
      · simp only [List.append_eq_nil_iff] at empty
        rw [empty.1.1.2]
        rfl
      · calc text = signPart text ++ afterSign := signEq
          _ = signPart text ++ (afterSign.takeWhile Char.isDigit ++
                afterSign.dropWhile Char.isDigit) := by rw [List.takeWhile_append_dropWhile]
          _ = signPart text ++ (afterSign.takeWhile Char.isDigit ++
                (fractionPart (afterSign.dropWhile Char.isDigit) ++
                  (exponentPart afterFraction ++ tail))) := by
              rw [← exponentEq, ← fractionEq]
          _ = _ := by simp only [List.append_assoc]

theorem readNumber?_within {text : List Char} {value : Float} {length : Nat}
    (found : readNumber? text = some (value, length)) : 0 < length ∧ length ≤ text.length := by
  simp only [readNumber?, Option.bind_eq_bind, Option.bind_eq_some_iff, Option.pure_def,
    Option.some.injEq, Prod.mk.injEq] at found
  obtain ⟨spelling, spellingEq, _, -, -, rfl⟩ := found
  obtain ⟨nonempty, tail, rfl⟩ := numberSpelling?_prefix spellingEq
  exact ⟨List.length_pos_iff.2 nonempty, by simp⟩

end Literals

section Scanners

theorem fits_of_found {kind : TokenKind} {length : Nat} {text : List Char} {lexeme : Lexeme}
    (found : Scan.found kind length = .ok (some lexeme)) (fits : Lexeme.Fits ⟨kind, length⟩ text) :
    lexeme.Fits text := by
  simp only [Scan.found, Except.ok.injEq, Option.some.injEq] at found
  exact found ▸ fits

theorem splitAtFirst?_append {pattern text before after : List Char}
    (split : Text.splitAtFirst? pattern text = some (before, after)) :
    ∃ tail, text = before ++ (pattern ++ tail) := by
  induction text generalizing before with
  | nil =>
      simp only [Text.splitAtFirst?, Option.ite_none_right_eq_some, List.isEmpty_iff,
        Option.some.injEq, Prod.mk.injEq] at split
      obtain ⟨rfl, rfl, -⟩ := split
      exact ⟨[], rfl⟩
  | cons c text ih =>
      rw [Text.splitAtFirst?] at split
      split at split
      · next starts =>
          obtain ⟨tail, textEq⟩ := startsWith_iff.1 starts
          obtain ⟨rfl, -⟩ := Prod.mk.inj (Option.some.inj split)
          exact ⟨tail, textEq⟩
      · obtain ⟨⟨first, second⟩, found, pairEq⟩ := Option.map_eq_some_iff.1 split
        obtain ⟨rfl, rfl⟩ := Prod.mk.inj pairEq
        obtain ⟨tail, rfl⟩ := ih found
        exact ⟨tail, rfl⟩

theorem fits_scanMarkupComment {text : List Char} {lexeme : Lexeme}
    (found : scanMarkupComment text = .ok (some lexeme)) :
    lexeme.Fits ('<' :: '!' :: '-' :: '-' :: text) := by
  unfold scanMarkupComment at found
  split at found
  · next body after split =>
      obtain ⟨tail, rfl⟩ := splitAtFirst?_append split
      have textEq : '<' :: '!' :: '-' :: '-' :: (body ++ ("-->".toList ++ tail)) =
          ("<!--".toList ++ body ++ "-->".toList) ++ tail := by simp
      refine fits_of_found found (fits_of_eq_append textEq (by simp) (by simp) ?_)
      simp [TokenKind.IsSpelled]
  · contradiction

theorem fits_scanEntity {text : List Char} {lexeme : Lexeme}
    (found : scanEntity text = .ok (some lexeme)) : lexeme.Fits ('&' :: text) := by
  simp only [scanEntity] at found
  split at found
  · next tail dropped =>
      split at found
      · contradiction
      · have divided : text = text.takeWhile CharClass.isEntityPart ++
            text.dropWhile CharClass.isEntityPart := List.takeWhile_append_dropWhile.symm
        rw [drop_length_eq divided] at dropped
        have textEq : '&' :: text =
            ('&' :: text.takeWhile CharClass.isEntityPart ++ [';']) ++ tail := by
          rw [dropped] at divided
          simpa using divided
        refine fits_of_found found (fits_of_eq_append textEq (by simp) (by simp) ?_)
        simp [TokenKind.IsSpelled]
  · contradiction

theorem fits_textRun {c : Char} {text : List Char} {member : Char → Bool}
    (first : member c = true) :
    Lexeme.Fits ⟨.text (String.ofList ((c :: text).takeWhile member)),
      ((c :: text).takeWhile member).length⟩ (c :: text) := by
  refine fits_of_eq_append (List.takeWhile_append_dropWhile (p := member)).symm rfl ?_ ?_
  · simp [first]
  · simp [TokenKind.IsSpelled]

/-- There is always a token of markup, but for the end of the text. -/
theorem eq_nil_of_scanMarkup {text : List Char} (ended : scanMarkup text = .ok none) :
    text = [] := by
  unfold scanMarkup at ended
  split at ended
  · rfl
  · unfold scanMarkupComment at ended
    split at ended <;> simp [Scan.found] at ended
  · simp [Scan.found] at ended
  · simp only [scanEntity] at ended
    split at ended
    · split at ended <;> simp [Scan.found] at ended
    · simp at ended
  all_goals simp [Scan.mark, Scan.found] at ended
  split at ended <;> simp at ended

theorem fits_scanMarkup {text : List Char} {lexeme : Lexeme}
    (found : scanMarkup text = .ok (some lexeme)) : lexeme.Fits text := by
  unfold scanMarkup at found
  split at found
  · simp at found
  · exact fits_scanMarkupComment found
  · exact fits_of_found found (fits_of_eq_append rfl rfl (List.cons_ne_nil '{' ['{']) rfl)
  · exact fits_scanEntity found
  · exact fits_mark rfl found
  · exact fits_mark rfl found
  · exact fits_mark rfl found
  · exact fits_mark rfl found
  · exact fits_mark rfl found
  · next c text _ _ notEntity notLess notGreater notLeft notRight notAt =>
      simp only at found
      split at found
      · next space => exact fits_of_found found (fits_whitespaceRun space)
      · next notSpace =>
          refine fits_of_found found (fits_textRun ?_)
          simp_all [CharClass.isTextBoundary]

theorem fits_scanTag {text : List Char} {lexeme : Lexeme}
    (found : scanTag text = .ok (some lexeme)) : lexeme.Fits text := by
  unfold scanTag at found
  split at found
  · simp at found
  · next c text =>
      split at found
      · next space => exact fits_of_found found (fits_whitespaceRun space)
      · split at found
        · next mark isMark =>
            have markEq : Punctuation.ofChar? c = some mark := by
              simp only [tagMark?, Option.ite_none_right_eq_some] at isMark
              exact isMark.2
            exact fits_mark (by rw [ofChar?_spelling markEq]; rfl) found
        · split at found
          · next word isName => exact fits_of_found found (fits_word isName)
          · split at found
            · next scan tried => exact fits_scanString? tried found
            · split at found
              · next value length read =>
                  have within := readNumber?_within read
                  exact fits_of_found found
                    (fits_of_length (fun _ => trivial) within.1 within.2)
              · simp [Scan.unexpected] at found

theorem longMark?_prefix {text : List Char} {mark : Punctuation}
    (isMark : longMark? text = some mark) : ∃ tail, text = mark.spelling.toList ++ tail := by
  unfold longMark? at isMark
  split at isMark <;> simp only [Option.some.injEq, reduceCtorEq] at isMark <;>
    exact isMark ▸ ⟨_, rfl⟩

theorem fits_scanExpressionMark {c : Char} {text : List Char} {lexeme : Lexeme}
    (found : scanExpressionMark c text = .ok (some lexeme)) : lexeme.Fits (c :: text) := by
  unfold scanExpressionMark at found
  split at found
  · next mark isMark =>
      obtain ⟨tail, textEq⟩ := longMark?_prefix isMark
      exact fits_mark textEq found
  · split at found
    · next mark isMark =>
        have markEq : Punctuation.ofChar? c = some mark := by
          simp only [expressionMark?, Option.ite_none_right_eq_some] at isMark
          exact isMark.2
        exact fits_mark (by rw [ofChar?_spelling markEq]; rfl) found
    · simp [Scan.unexpected] at found

theorem fits_scanExpressionLiteral {c : Char} {text : List Char} {lexeme : Lexeme}
    (found : scanExpressionLiteral c text = .ok (some lexeme)) : lexeme.Fits (c :: text) := by
  unfold scanExpressionLiteral at found
  split at found
  · next scan tried => exact fits_scanTemplate? tried found
  · split at found
    · next scan tried => exact fits_scanString? tried found
    · split at found
      · split at found
        · next value length read =>
            have within := readNumber?_within read
            exact fits_of_found found (fits_of_length (fun _ => trivial) within.1 within.2)
        · exact fits_scanExpressionMark found
      · exact fits_scanExpressionMark found

theorem fits_scanExpression {text : List Char} {lexeme : Lexeme}
    (found : scanExpression text = .ok (some lexeme)) : lexeme.Fits text := by
  unfold scanExpression at found
  split at found
  · simp at found
  · split at found
    · next space => exact fits_of_found found (fits_whitespaceRun space)
    · split at found
      · next starts =>
          obtain ⟨tail, textEq⟩ := startsWith_iff.1 starts
          exact fits_of_found found (fits_of_eq_append textEq rfl (by simp) rfl)
      · split at found
        · next word isName => exact fits_of_found found (fits_word isName)
        · exact fits_scanExpressionLiteral found

theorem unit?_within {text : List Char} {unit : String} (found : unit? text = some unit) :
    unit.length ≤ text.length := by
  have begins := List.find?_some found
  simp only [beginsWithName, Bool.and_eq_true] at begins
  obtain ⟨tail, textEq⟩ := startsWith_iff.1 begins.1
  rw [textEq, List.length_append, String.length_toList]
  exact Nat.le_add_right _ _

theorem fits_scanStyleWord {c : Char} {text : List Char} {lexeme : Lexeme}
    (found : scanStyleWord c text = .ok (some lexeme)) : lexeme.Fits (c :: text) := by
  unfold scanStyleWord at found
  split at found
  · next value length read =>
      have within := readNumber?_within read
      unfold scanDimension at found
      split at found
      · next unit isUnit =>
          have unitWithin := unit?_within isUnit
          rw [List.length_drop] at unitWithin
          exact fits_of_found found
            (fits_of_length (fun _ => trivial) (by omega) (by omega))
      · exact fits_of_found found (fits_of_length (fun _ => trivial) within.1 within.2)
  · split at found
    · next word isName =>
        obtain ⟨nonempty, tail, textEq⟩ := name?_eq_append isName
        exact fits_of_found found (fits_of_eq_append textEq rfl nonempty trivial)
    · split at found
      · next mark isMark =>
          exact fits_mark (by rw [ofChar?_spelling isMark]; rfl) found
      · simp [Scan.unexpected] at found

theorem fits_scanStyleComment {text : List Char} {lexeme : Lexeme}
    (found : scanStyleComment text = .ok (some lexeme)) :
    lexeme.Fits ('/' :: '*' :: text) := by
  unfold scanStyleComment at found
  split at found
  · next body after split =>
      obtain ⟨tail, rfl⟩ := splitAtFirst?_append split
      exact fits_of_found found (fits_of_length (fun _ => trivial) (by omega) (by simp))
  · contradiction

theorem fits_scanStyle {text : List Char} {lexeme : Lexeme}
    (found : scanStyle text = .ok (some lexeme)) : lexeme.Fits text := by
  unfold scanStyle at found
  split at found
  · simp at found
  · next c text =>
      split at found
      · next space => exact fits_of_found found (fits_whitespaceRun space)
      · split at found
        · next ends =>
            obtain ⟨within, equal⟩ := equalIgnoreCase_take ends
            exact fits_of_found found ⟨by decide, within, equal⟩
        · split at found
          · next starts =>
              obtain ⟨tail, textEq⟩ := startsWith_iff.1 starts
              rw [textEq]
              obtain ⟨rfl, rfl⟩ := List.cons.inj textEq
              exact fits_scanStyleComment found
          · split at found
            · next scan tried => exact fits_scanProtectedString? tried found
            · split at found
              · split at found
                · next digits isColor =>
                    have prefixEq : digits = text.takeWhile CharClass.isHexDigit := by
                      simp only [colorDigits?, Option.ite_none_right_eq_some,
                        Option.some.injEq] at isColor
                      exact isColor.2.symm
                    have within : digits.length ≤ text.length :=
                      prefixEq ▸ List.Sublist.length_le (List.takeWhile_sublist _)
                    exact fits_of_found found
                      (fits_of_length (fun _ => trivial) (by omega)
                        (by simp only [List.length_cons]; omega))
                · exact fits_scanStyleWord found
              · exact fits_scanStyleWord found

theorem codeLength_le (place : ScriptPlace) (text : List Char) :
    codeLength place text ≤ text.length := by
  fun_induction codeLength place text <;> grind

theorem codeLength_pos {text : List Char} (nonempty : text ≠ [])
    (code : endsCode text = false) : 0 < codeLength .code text := by
  obtain ⟨c, text, rfl⟩ := List.exists_cons_of_ne_nil nonempty
  unfold codeLength
  rw [if_neg (by simp [code])]
  split
  · split <;> omega
  · split <;> omega

theorem fits_scanScript {text : List Char} {lexeme : Lexeme}
    (found : scanScript text = .ok (some lexeme)) : lexeme.Fits text := by
  unfold scanScript at found
  split at found
  · next ends =>
      obtain ⟨within, equal⟩ := equalIgnoreCase_take ends
      exact fits_of_found found ⟨by decide, within, equal⟩
  · next notEnd =>
      split at found
      · next starts =>
          obtain ⟨tail, textEq⟩ := startsWith_iff.1 starts
          exact fits_of_found found (fits_of_eq_append textEq rfl (by simp) rfl)
      · next notStart =>
          split at found
          · next starts =>
              obtain ⟨tail, textEq⟩ := startsWith_iff.1 starts
              exact fits_of_found found (fits_of_eq_append textEq rfl (by simp) rfl)
          · next notStop =>
              split at found
              · simp at found
              · next nonempty =>
                  have code : endsCode text = false := by
                    simp_all [endsCode]
                  refine fits_of_found found
                    ⟨codeLength_pos (by simpa using nonempty) code, codeLength_le _ _, ?_⟩
                  simp [TokenKind.IsSpelled]

theorem splitLine_append (text : List Char) :
    (Text.splitLine text).2.1 ++ (Text.splitLine text).2.2 = text := by
  fun_induction Text.splitLine text with
  | case1 => rfl
  | case2 => rfl
  | case3 => rfl
  | case4 => simp_all

theorem lineLength_le (text : List Char) : lineLength text ≤ text.length := by
  have lengthEq := congrArg List.length (splitLine_append text)
  rw [List.length_append] at lengthEq
  rw [lineLength]
  omega

theorem closingDistance?_le {lineStart : Bool} {place : MatterPlace} {text : List Char}
    {distance : Nat} (found : closingDistance? lineStart place text = some distance) :
    distance ≤ text.length := by
  induction text generalizing lineStart place distance with
  | nil => simp [closingDistance?] at found
  | cons c text ih =>
      rw [closingDistance?] at found
      split at found
      · obtain rfl := Option.some.inj found
        exact Nat.zero_le _
      · split at found
        all_goals
          obtain ⟨shorter, foundShorter, rfl⟩ := Option.map_eq_some_iff.1 found
          exact Nat.succ_le_succ (ih foundShorter)

theorem length_le_of_scanFrontMatter {atStart : Bool} {text : List Char} {kind : TokenKind}
    {length : Nat} (scanned : scanFrontMatter atStart text = .ok (some ⟨kind, length⟩)) :
    length ≤ text.length := by
  unfold scanFrontMatter at scanned
  split at scanned
  · simp only at scanned
    split at scanned
    · next distance found =>
        simp only [Scan.found, Except.ok.injEq, Option.some.injEq, Lexeme.mk.injEq] at scanned
        have opening := lineLength_le text
        have inside := closingDistance?_le found
        have closing := lineLength_le ((text.drop (lineLength text)).drop distance)
        simp only [List.length_drop] at inside closing
        omega
    · simp [Scan.unterminated] at scanned
  · simp only [Scan.found, Except.ok.injEq, Option.some.injEq, Lexeme.mk.injEq] at scanned
    omega

theorem exists_of_scanFrontMatter {atStart : Bool} {text : List Char} {lexeme? : Option Lexeme}
    (scanned : scanFrontMatter atStart text = .ok lexeme?) :
    ∃ content length, lexeme? = some ⟨.frontMatter content, length⟩ := by
  unfold scanFrontMatter at scanned
  split at scanned
  · simp only at scanned
    split at scanned
    · exact ⟨_, _, (Except.ok.inj scanned).symm⟩
    · simp [Scan.unterminated] at scanned
  · exact ⟨_, _, (Except.ok.inj scanned).symm⟩

end Scanners

end Lex

end TemplateCompiler
