import TemplateCompiler.Proofs.Lex.Lookahead
import TemplateCompiler.Proofs.Lex.Recognition
import Mathlib.Data.List.Find

/-!
# Tokens and what is written behind them

A scanner reads as far as a token goes and looks at a few characters more.  When
a text that it finds a token in is continued, it finds the same token as long as
the text says by itself where the token ends.

Inside tags, expressions and style sheets a text says so when the delimiter that
ends the mode is still to come, for no token but a literal runs across it.  In
markup and in scripts it depends on the token.
-/

namespace TemplateCompiler

namespace Text

variable {pattern text tail : List Char}

theorem startsWith_append (long : pattern.length ≤ text.length) :
    startsWith pattern (text ++ tail) = startsWith pattern text := by
  rw [startsWith, startsWith, Bool.eq_iff_iff, List.isPrefixOf_iff_prefix,
    List.isPrefixOf_iff_prefix]
  exact ⟨fun whole => List.prefix_of_prefix_length_le whole (List.prefix_append _ _) long,
    fun starts => starts.trans (List.prefix_append _ _)⟩

/-- A pattern that does not contain some character of a text cannot go on behind
that text. -/
theorem startsWith_append_of_mem {stop : Char} (mem : stop ∈ text) (absent : stop ∉ pattern) :
    startsWith pattern (text ++ tail) = startsWith pattern text := by
  induction pattern generalizing text with
  | nil => simp [startsWith]
  | cons p pattern ih =>
      obtain ⟨absentHead, absentTail⟩ := not_or.1 (List.mem_cons.not.1 absent)
      cases text with
      | nil => contradiction
      | cons c text =>
          simp only [startsWith, List.cons_append, List.isPrefixOf] at ih ⊢
          rcases List.mem_cons.1 mem with rfl | later
          · rw [beq_eq_false_iff_ne.2 (Ne.symm absentHead), Bool.false_and, Bool.false_and]
          · rw [ih later absentTail]

theorem startsWithIgnoreCase_append (long : pattern.length ≤ text.length) :
    startsWithIgnoreCase pattern (text ++ tail) = startsWithIgnoreCase pattern text := by
  induction pattern generalizing text with
  | nil => simp [startsWithIgnoreCase]
  | cons p pattern ih =>
      cases text with
      | nil => simp at long
      | cons c text =>
          rw [List.cons_append, startsWithIgnoreCase, startsWithIgnoreCase,
            ih (Nat.le_of_succ_le_succ long)]

theorem startsWithIgnoreCase_append_of_mem {stop : Char} (mem : stop ∈ text)
    (absent : stop.toLower ∉ pattern.map Char.toLower) :
    startsWithIgnoreCase pattern (text ++ tail) = startsWithIgnoreCase pattern text := by
  induction pattern generalizing text with
  | nil => simp [startsWithIgnoreCase]
  | cons p pattern ih =>
      obtain ⟨absentHead, absentTail⟩ := not_or.1 (List.mem_cons.not.1 absent)
      cases text with
      | nil => contradiction
      | cons c text =>
          rw [List.cons_append, startsWithIgnoreCase, startsWithIgnoreCase]
          rcases List.mem_cons.1 mem with rfl | later
          · rw [beq_eq_false_iff_ne.2 (Ne.symm absentHead), Bool.false_and, Bool.false_and]
          · rw [ih later absentTail]

theorem startsWithIgnoreCase_of_equal (equal : equalIgnoreCase pattern text = true) :
    startsWithIgnoreCase pattern (text ++ tail) = true := by
  fun_induction equalIgnoreCase pattern text with
  | case1 => rfl
  | case2 p pattern c text ih =>
      obtain ⟨sameLetter, equalThen⟩ := Bool.and_eq_true_iff.1 equal
      rw [List.cons_append, startsWithIgnoreCase, sameLetter, ih equalThen]
      rfl
  | case3 => contradiction

theorem splitAtFirst?_append {before after : List Char}
    (split : splitAtFirst? pattern text = some (before, after)) :
    splitAtFirst? pattern (text ++ tail) = some (before, after ++ tail) := by
  induction text generalizing before with
  | nil =>
      simp only [splitAtFirst?, Option.ite_none_right_eq_some, List.isEmpty_iff,
        Option.some.injEq, Prod.mk.injEq] at split
      obtain ⟨rfl, rfl, rfl⟩ := split
      cases tail <;> simp [splitAtFirst?, startsWith]
  | cons c text ih =>
      obtain ⟨behind, textEq⟩ := Lex.splitAtFirst?_append split
      have long : pattern.length ≤ (c :: text).length := by
        rw [textEq, List.length_append, List.length_append]
        omega
      rw [splitAtFirst?] at split
      rw [List.cons_append, splitAtFirst?, ← List.cons_append, startsWith_append long]
      split at split
      · next starts =>
          obtain ⟨rfl, rfl⟩ := Prod.mk.inj (Option.some.inj split)
          rw [if_pos starts]
      · next other =>
          obtain ⟨⟨first, second⟩, found, pairEq⟩ := Option.map_eq_some_iff.1 split
          obtain ⟨rfl, rfl⟩ := Prod.mk.inj pairEq
          rw [if_neg other, ih found]
          rfl

end Text

namespace Lex

variable {text tail : List Char}

section Runs

/-! A run of characters of a class ends before a character outside of it. -/

variable {member : Char → Bool} {stop : Char}

theorem takeWhile_append_of_mem (mem : stop ∈ text) (outside : member stop = false) :
    (text ++ tail).takeWhile member = text.takeWhile member := by
  induction text with
  | nil => contradiction
  | cons c text ih =>
      rw [List.cons_append, List.takeWhile_cons, List.takeWhile_cons]
      rcases List.mem_cons.1 mem with rfl | later
      · simp [outside]
      · rw [ih later]

theorem dropWhile_append_of_mem (mem : stop ∈ text) (outside : member stop = false) :
    (text ++ tail).dropWhile member = text.dropWhile member ++ tail := by
  induction text with
  | nil => contradiction
  | cons c text ih =>
      rw [List.cons_append, List.dropWhile_cons, List.dropWhile_cons]
      rcases List.mem_cons.1 mem with rfl | later
      · simp [outside]
      · split
        · exact ih later
        · rfl

theorem mem_of_mem_append {piece behind : List Char} (textEq : text = piece ++ behind)
    (mem : stop ∈ text) (outside : stop ∉ piece) : stop ∈ behind := by
  rw [textEq] at mem
  exact (List.mem_append.1 mem).resolve_left outside

theorem mem_dropWhile (mem : stop ∈ text) (outside : member stop = false) :
    stop ∈ text.dropWhile member := by
  refine mem_of_mem_append (List.takeWhile_append_dropWhile (p := member)).symm mem fun taken => ?_
  have := List.mem_takeWhile_imp taken
  simp [outside] at this

theorem drop_length_takeWhile (member : Char → Bool) (text : List Char) :
    text.drop (text.takeWhile member).length = text.dropWhile member := by
  exact drop_length_eq (List.takeWhile_append_dropWhile (p := member)).symm

theorem head?_append_of_mem (mem : stop ∈ text) : (text ++ tail).head? = text.head? := by
  cases text with
  | nil => contradiction
  | cons c text => rfl

theorem name?_append_of_mem {isStart isPart : Char → Bool} (mem : stop ∈ text)
    (notStart : isStart stop = false) (notPart : isPart stop = false) :
    name? isStart isPart (text ++ tail) = name? isStart isPart text := by
  cases text with
  | nil => contradiction
  | cons c text =>
      rw [List.cons_append, name?, name?]
      rcases List.mem_cons.1 mem with rfl | later
      · simp [notStart]
      · rw [takeWhile_append_of_mem later notPart]

end Runs

section Numbers

/-- Whether a character can be part of a number. -/
def isNumeric (c : Char) : Bool :=
  c.isDigit || ['+', '-', '.', 'e', 'E'].contains c

variable {stop : Char}

theorem isNumeric_of_digit {c : Char} (digit : c.isDigit = true) : isNumeric c = true := by
  simp [isNumeric, digit]

theorem isNumeric_signPart {c : Char} (mem : c ∈ signPart text) : isNumeric c = true := by
  unfold signPart at mem
  split at mem
  · next d text =>
      split at mem
      · next isSign =>
          obtain rfl := List.mem_singleton.1 mem
          simp only [Bool.or_eq_true, decide_eq_true_eq] at isSign
          rcases isSign with rfl | rfl <;> rfl
      · contradiction
  · contradiction

theorem isNumeric_fractionPart {c : Char} (mem : c ∈ fractionPart text) :
    isNumeric c = true := by
  unfold fractionPart at mem
  split at mem
  · simp only at mem
    split at mem
    · contradiction
    · rcases List.mem_cons.1 mem with rfl | digit
      · rfl
      · exact isNumeric_of_digit (List.mem_takeWhile_imp digit)
  · contradiction

theorem isNumeric_exponentPart {c : Char} (mem : c ∈ exponentPart text) :
    isNumeric c = true := by
  unfold exponentPart at mem
  split at mem
  · next d text =>
      simp only at mem
      split at mem
      · next isLetter =>
          split at mem
          · contradiction
          · rcases List.mem_cons.1 mem with rfl | later
            · simp only [Bool.or_eq_true, decide_eq_true_eq] at isLetter
              rcases isLetter with rfl | rfl <;> rfl
            · rcases List.mem_append.1 later with sign | digit
              · exact isNumeric_signPart sign
              · exact isNumeric_of_digit (List.mem_takeWhile_imp digit)
      · contradiction
  · contradiction

theorem isNumeric_numberSpelling? {spelling : List Char}
    (found : numberSpelling? text = some spelling) {c : Char} (mem : c ∈ spelling) :
    isNumeric c = true := by
  simp only [numberSpelling?] at found
  split at found
  · contradiction
  · obtain rfl := Option.some.inj found
    simp only [List.mem_append] at mem
    rcases mem with ((sign | digit) | fraction) | exponent
    · exact isNumeric_signPart sign
    · exact isNumeric_of_digit (List.mem_takeWhile_imp digit)
    · exact isNumeric_fractionPart fraction
    · exact isNumeric_exponentPart exponent

variable (mem : stop ∈ text) (outside : isNumeric stop = false)

include outside in
theorem isDigit_of_not_isNumeric : stop.isDigit = false := by
  rw [← Bool.not_eq_true]
  intro digit
  simp [isNumeric_of_digit digit] at outside

include mem in
theorem signPart_append_of_mem : signPart (text ++ tail) = signPart text := by
  cases text with
  | nil => contradiction
  | cons c text => rfl

include mem outside

theorem mem_drop_signPart : stop ∈ text.drop (signPart text).length := by
  obtain ⟨behind, textEq⟩ := signPart_prefix text
  rw [drop_length_eq textEq]
  exact mem_of_mem_append textEq mem fun inside => by simp [isNumeric_signPart inside] at outside

omit mem outside in
theorem drop_signPart_append :
    (text ++ tail).drop (signPart text).length = text.drop (signPart text).length ++ tail := by
  obtain ⟨behind, textEq⟩ := signPart_prefix text
  exact List.drop_append_of_le_length (textEq ▸ List.prefix_append _ _).length_le

theorem fractionPart_append_of_mem : fractionPart (text ++ tail) = fractionPart text := by
  cases text with
  | nil => contradiction
  | cons c text =>
      rw [List.cons_append, fractionPart.eq_def, fractionPart.eq_def]
      by_cases point : c = '.'
      · subst point
        have later : stop ∈ text := by
          rcases List.mem_cons.1 mem with rfl | later
          · contradiction
          · exact later
        simp only [takeWhile_append_of_mem later (isDigit_of_not_isNumeric outside)]
      · simp [point]

theorem exponentPart_append_of_mem : exponentPart (text ++ tail) = exponentPart text := by
  cases text with
  | nil => contradiction
  | cons c text =>
      rw [List.cons_append, exponentPart, exponentPart]
      by_cases letter : c = 'e' ∨ c = 'E'
      · have later : stop ∈ text := by
          rcases List.mem_cons.1 mem with rfl | later
          · rcases letter with rfl | rfl <;> contradiction
          · exact later
        simp only [drop_signPart_append, signPart_append_of_mem later,
          takeWhile_append_of_mem (mem_drop_signPart later outside)
            (isDigit_of_not_isNumeric outside)]
      · simp [letter]

theorem numberSpelling?_append_of_mem :
    numberSpelling? (text ++ tail) = numberSpelling? text := by
  have notDigit := isDigit_of_not_isNumeric outside
  have afterSign := mem_drop_signPart mem outside
  have afterDigits := mem_dropWhile afterSign notDigit
  obtain ⟨behind, fractionEq⟩ :=
    fractionPart_prefix ((text.drop (signPart text).length).dropWhile Char.isDigit)
  have afterFraction := mem_of_mem_append fractionEq afterDigits fun inside => by
    simp [isNumeric_fractionPart inside] at outside
  have dropEq : ((text.drop (signPart text).length).dropWhile Char.isDigit ++ tail).drop
      (fractionPart ((text.drop (signPart text).length).dropWhile Char.isDigit)).length =
        behind ++ tail := by
    conv_lhs => rw [fractionEq, List.append_assoc]
    rw [← fractionEq, List.drop_left]
  simp only [numberSpelling?, drop_signPart_append, signPart_append_of_mem mem,
    takeWhile_append_of_mem afterSign notDigit, dropWhile_append_of_mem afterSign notDigit,
    fractionPart_append_of_mem afterDigits outside, dropEq, drop_length_eq fractionEq,
    exponentPart_append_of_mem afterFraction outside]

theorem readNumber?_append_of_mem : readNumber? (text ++ tail) = readNumber? text := by
  rw [readNumber?, readNumber?, numberSpelling?_append_of_mem mem outside]

theorem mem_drop_readNumber? {value : Float} {length : Nat}
    (read : readNumber? text = some (value, length)) : stop ∈ text.drop length := by
  simp only [readNumber?, Option.bind_eq_bind, Option.bind_eq_some_iff, Option.pure_def,
    Option.some.injEq, Prod.mk.injEq] at read
  obtain ⟨spelling, spellingEq, _, -, -, rfl⟩ := read
  obtain ⟨-, behind, textEq⟩ := numberSpelling?_prefix spellingEq
  rw [drop_length_eq textEq]
  exact mem_of_mem_append textEq mem fun inside => by
    simp [isNumeric_numberSpelling? spellingEq inside] at outside

end Numbers

section Literals

/-! A literal that is closed, or wrong, is so whatever follows. -/

@[simp]
theorem QuotedBody.prepend_eq_unclosed {body : QuotedBody} {part : List Char} {count : Nat} :
    body.prepend part count = .unclosed ↔ body = .unclosed := by
  cases body <;> simp [QuotedBody.prepend]

theorem readQuoted_append {quote : Char} (ended : readQuoted quote text ≠ .unclosed) :
    readQuoted quote (text ++ tail) = readQuoted quote text := by
  fun_induction readQuoted quote text with
  | case1 => contradiction
  | case2 text => simp [readQuoted.eq_def]
  | case3 => contradiction
  | case4 escape text resolved resolvedEq notQuote ih =>
      rw [List.cons_append, List.cons_append, readQuoted.eq_def]
      simp [notQuote, resolvedEq, ih (by simpa using ended)]
  | case5 escape text unresolved notQuote =>
      rw [List.cons_append, List.cons_append, readQuoted.eq_def]
      simp [notQuote, unresolved]
  | case6 c text notQuote notEscape ih =>
      rw [readQuoted.eq_def]
      simp [notQuote, notEscape, ih (by simpa using ended)]

theorem readProtected_append {quote : Char} (ended : readProtected quote text ≠ .unclosed) :
    readProtected quote (text ++ tail) = readProtected quote text := by
  fun_induction readProtected quote text with
  | case1 => contradiction
  | case2 text => simp [readProtected.eq_def]
  | case3 => contradiction
  | case4 escape text notQuote ih =>
      rw [List.cons_append, List.cons_append, readProtected.eq_def]
      simp [notQuote, ih (by simpa using ended)]
  | case5 c text notQuote notEscape ih =>
      rw [readProtected.eq_def]
      simp [notQuote, notEscape, ih (by simpa using ended)]

theorem readTemplate_append {depth : Nat} (ended : readTemplate depth text ≠ .unclosed) :
    readTemplate depth (text ++ tail) = readTemplate depth text := by
  fun_induction readTemplate depth text with
  | case1 => contradiction
  | case2 => simp [readTemplate]
  | case3 => contradiction
  | case4 escape text resolved resolvedEq ih =>
      simp [readTemplate, resolvedEq, ih (by simpa using ended)]
  | case5 escape text unresolved => simp [readTemplate, unresolved]
  | case6 depth text ih => simp [readTemplate, ih (by simpa using ended)]
  | case7 depth text ih => simp [readTemplate, ih (by simpa using ended)]
  | case8 depth text ih => simp [readTemplate, ih (by simpa using ended)]
  | case9 depth c text notQuote notEscape notSubstitution notOpen notClose ih =>
      have someText : text ≠ [] := by
        rintro rfl
        simp [readTemplate] at ended
      obtain ⟨d, text, rfl⟩ := List.exists_cons_of_ne_nil someText
      rw [List.cons_append, readTemplate, ih (by simpa using ended)]
      · intro others dollar textEq
        exact notSubstitution text dollar (by simp_all)
      · exact notQuote
      · exact notEscape
      · exact notOpen
      · exact notClose

theorem QuotedBody.scan_ok {kind : String → TokenKind} {cause : Cause} {body : QuotedBody}
    {lexeme : Lexeme} (found : body.scan kind cause text = .ok (some lexeme)) :
    body ≠ .unclosed ∧ ∀ longer, body.scan kind cause longer = .ok (some lexeme) := by
  cases body with
  | closed value length => exact ⟨by simp, fun _ => found⟩
  | badEscape escape before => contradiction
  | unclosed => contradiction

/-- Whether a scan is tried by the first character alone, and finds what it finds
whatever follows. -/
structure IsLocal (scan? : List Char → Option Scan) : Prop where
  untried : ∀ {c : Char} {text : List Char} (tail : List Char),
    scan? (c :: text) = none → scan? (c :: (text ++ tail)) = none
  found : ∀ {c : Char} {text : List Char} {scan : Scan} {lexeme : Lexeme} (tail : List Char),
    scan? (c :: text) = some scan → scan = .ok (some lexeme) →
      scan? (c :: (text ++ tail)) = some (.ok (some lexeme))

/-- A literal that is read behind its quote. -/
theorem isLocal_of_quoted (read : Char → List Char → QuotedBody) {accepts : Char → Prop}
    [DecidablePred accepts] {scan? : List Char → Option Scan} {kind : String → TokenKind}
    {cause : Cause}
    (scanEq : ∀ c text, scan? (c :: text) =
      if accepts c then some ((read c text).scan kind cause (c :: text)) else none)
    (readAppend : ∀ {c text} tail, read c text ≠ .unclosed → read c (text ++ tail) = read c text) :
    IsLocal scan? where
  untried := by
    intro c text tail untried
    simpa [scanEq] using untried
  found := by
    intro c text scan lexeme tail tried found
    rw [scanEq] at tried ⊢
    simp only [Option.ite_none_right_eq_some, Option.some.injEq] at tried
    obtain ⟨accepted, rfl⟩ := tried
    obtain ⟨ended, same⟩ := QuotedBody.scan_ok found
    rw [if_pos accepted, readAppend tail ended, same]

theorem isLocal_scanString? : IsLocal scanString? :=
  isLocal_of_quoted readQuoted (fun _ _ => rfl) fun _ => readQuoted_append

theorem isLocal_scanProtectedString? : IsLocal scanProtectedString? :=
  isLocal_of_quoted readProtected (fun _ _ => rfl) fun _ => readProtected_append

theorem isLocal_scanTemplate? : IsLocal scanTemplate? :=
  isLocal_of_quoted (fun _ => readTemplate 0) (fun _ _ => rfl) fun _ => readTemplate_append

end Literals

section Inside

/-! Inside of tags, expressions and style sheets. -/

variable {lexeme : Lexeme}

theorem scanTag_append (closed : '>' ∈ text) (found : scanTag text = .ok (some lexeme)) :
    scanTag (text ++ tail) = .ok (some lexeme) := by
  cases text with
  | nil => contradiction
  | cons c text =>
      have runEq : whitespaceRun (c :: (text ++ tail)) = whitespaceRun (c :: text) :=
        takeWhile_append_of_mem closed (by decide)
      have nameEq : name? CharClass.isNameStart CharClass.isNamePart (c :: (text ++ tail)) =
          name? CharClass.isNameStart CharClass.isNamePart (c :: text) :=
        name?_append_of_mem closed (by decide) (by decide)
      have numberEq : readNumber? (c :: (text ++ tail)) = readNumber? (c :: text) :=
        readNumber?_append_of_mem closed (by decide)
      rw [List.cons_append]
      rw [scanTag] at found ⊢
      rw [runEq, nameEq, numberEq]
      by_cases space : CharClass.isMarkupSpace c = true
      · rwa [if_pos space] at found ⊢
      · rw [if_neg space] at found ⊢
        cases isMark : tagMark? c with
        | some mark => simpa only [isMark] using found
        | none =>
            simp only [isMark] at found ⊢
            cases isName : name? CharClass.isNameStart CharClass.isNamePart (c :: text) with
            | some word => simpa only [isName] using found
            | none =>
                simp only [isName] at found ⊢
                cases tried : scanString? (c :: text) with
                | some scan =>
                    simp only [tried] at found
                    simp only [isLocal_scanString?.found _ tried found]
                | none =>
                    simp only [tried] at found
                    simpa only [isLocal_scanString?.untried _ tried] using found

theorem longMark?_eq (text : List Char) :
    longMark? text =
      if Text.startsWith "===".toList text then some .identical
      else if Text.startsWith "!==".toList text then some .notIdentical
      else if Text.startsWith "==".toList text then some .equal
      else if Text.startsWith "!=".toList text then some .notEqual
      else if Text.startsWith "<=".toList text then some .lessOrEqual
      else if Text.startsWith ">=".toList text then some .greaterOrEqual
      else none := by
  unfold longMark?
  split <;> simp_all [startsWith_iff]

/-- The marks of several characters consist of comparison signs, so none goes on
behind another character. -/
theorem longMark?_append_of_mem {stop : Char} (mem : stop ∈ text)
    (outside : stop ∉ ['=', '!', '<', '>']) : longMark? (text ++ tail) = longMark? text := by
  simp only [List.mem_cons, List.not_mem_nil, or_false, not_or] at outside
  have same : ∀ pattern, stop ∉ pattern →
      Text.startsWith pattern (text ++ tail) = Text.startsWith pattern text :=
    fun _ => Text.startsWith_append_of_mem mem
  rw [longMark?_eq, longMark?_eq, same, same, same, same, same, same] <;> simp [outside]

/-- Whether a text contains what ends an expression: the closing braces of an
interpolation or the opening brace of a loop. -/
def ContainsBrace (text : List Char) : Prop :=
  '{' ∈ text ∨ ['}', '}'] <:+: text

theorem ContainsBrace.exists_mem (closed : ContainsBrace text) :
    ∃ stop ∈ text, stop = '{' ∨ stop = '}' := by
  rcases closed with opening | closing
  · exact ⟨'{', opening, .inl rfl⟩
  · exact ⟨'}', closing.subset List.mem_cons_self, .inr rfl⟩

theorem ContainsBrace.startsWith_append (closed : ContainsBrace text) :
    Text.startsWith ['}', '}'] (text ++ tail) = Text.startsWith ['}', '}'] text := by
  rcases closed with opening | closing
  · exact Text.startsWith_append_of_mem opening (by decide)
  · exact Text.startsWith_append closing.length_le

theorem scanExpressionMark_append {c : Char} (closed : ContainsBrace (c :: text)) :
    scanExpressionMark c (text ++ tail) = scanExpressionMark c text := by
  obtain ⟨stop, mem, isBrace⟩ := closed.exists_mem
  have markEq : longMark? (c :: (text ++ tail)) = longMark? (c :: text) :=
    longMark?_append_of_mem mem (by rcases isBrace with rfl | rfl <;> decide)
  rw [scanExpressionMark, scanExpressionMark, markEq]

theorem scanExpressionLiteral_append {c : Char} (closed : ContainsBrace (c :: text))
    (found : scanExpressionLiteral c text = .ok (some lexeme)) :
    scanExpressionLiteral c (text ++ tail) = .ok (some lexeme) := by
  obtain ⟨stop, mem, isBrace⟩ := closed.exists_mem
  have numberEq : readNumber? (c :: (text ++ tail)) = readNumber? (c :: text) :=
    readNumber?_append_of_mem mem (by rcases isBrace with rfl | rfl <;> decide)
  rw [scanExpressionLiteral] at found ⊢
  rw [numberEq, scanExpressionMark_append closed]
  cases triedTemplate : scanTemplate? (c :: text) with
  | some scan =>
      simp only [triedTemplate] at found
      simp only [isLocal_scanTemplate?.found _ triedTemplate found]
  | none =>
      simp only [triedTemplate] at found
      simp only [isLocal_scanTemplate?.untried _ triedTemplate]
      cases tried : scanString? (c :: text) with
      | some scan =>
          simp only [tried] at found
          simp only [isLocal_scanString?.found _ tried found]
      | none =>
          simp only [tried] at found
          simpa only [isLocal_scanString?.untried _ tried] using found

theorem scanExpression_append (closed : ContainsBrace text)
    (found : scanExpression text = .ok (some lexeme)) :
    scanExpression (text ++ tail) = .ok (some lexeme) := by
  obtain ⟨stop, mem, isBrace⟩ := closed.exists_mem
  have endEq : Text.startsWith ['}', '}'] (text ++ tail) = Text.startsWith ['}', '}'] text :=
    closed.startsWith_append
  cases text with
  | nil => contradiction
  | cons c text =>
      have runEq : whitespaceRun (c :: (text ++ tail)) = whitespaceRun (c :: text) :=
        takeWhile_append_of_mem mem (by rcases isBrace with rfl | rfl <;> decide)
      have nameEq : name? CharClass.isVariableStart CharClass.isVariablePart
          (c :: (text ++ tail)) =
            name? CharClass.isVariableStart CharClass.isVariablePart (c :: text) := by
        apply name?_append_of_mem mem <;> rcases isBrace with rfl | rfl <;> decide
      rw [List.cons_append] at endEq ⊢
      rw [scanExpression] at found ⊢
      rw [runEq, endEq, nameEq]
      by_cases space : CharClass.isMarkupSpace c = true
      · rwa [if_pos space] at found ⊢
      · rw [if_neg space] at found ⊢
        by_cases ends : Text.startsWith ['}', '}'] (c :: text) = true
        · rwa [if_pos ends] at found ⊢
        · rw [if_neg ends] at found ⊢
          cases isName : name? CharClass.isVariableStart CharClass.isVariablePart (c :: text) with
          | some word => simpa only [isName] using found
          | none =>
              simp only [isName] at found ⊢
              exact scanExpressionLiteral_append closed found

/-- Whether a text contains the closing tag of a style sheet. -/
def ContainsStyleEnd (text : List Char) : Prop :=
  ∃ behind, behind <:+ text ∧ Text.startsWithIgnoreCase "</style>".toList behind = true

theorem eq_less_of_toLower {c : Char} (lowerEq : c.toLower = '<') : c = '<' := by
  unfold Char.toLower at lowerEq
  split at lowerEq
  · next upper =>
      -- An upper-case letter becomes a letter.
      have valueEq := congrArg (fun c => c.val.toNat) lowerEq
      simp at valueEq
      have := upper.1
      have := upper.2
      simp only [ge_iff_le, UInt32.le_iff_toNat_le] at *
      simp at *
      omega
  · exact lowerEq

theorem ContainsStyleEnd.mem (closed : ContainsStyleEnd text) : '<' ∈ text := by
  obtain ⟨behind, suffixes, ends⟩ := closed
  apply suffixes.subset
  cases behind with
  | nil => contradiction
  | cons c behind =>
      have matched : (('<' : Char).toLower == c.toLower) = true := (Bool.and_eq_true_iff.1 ends).1
      rw [eq_less_of_toLower (beq_iff_eq.1 matched).symm]
      exact List.mem_cons_self

theorem ContainsStyleEnd.length_le (closed : ContainsStyleEnd text) : 8 ≤ text.length := by
  obtain ⟨behind, suffixes, ends⟩ := closed
  exact (equalIgnoreCase_take ends).1.trans suffixes.length_le

theorem scanStyleComment_append (found : scanStyleComment text = .ok (some lexeme)) :
    scanStyleComment (text ++ tail) = .ok (some lexeme) := by
  rw [scanStyleComment] at found ⊢
  cases split : Text.splitAtFirst? ['*', '/'] text with
  | none => simp [split] at found
  | some parts =>
      obtain ⟨body, behind⟩ := parts
      simp only [split] at found
      simpa only [Text.splitAtFirst?_append split] using found

section Stop

variable (mem : '<' ∈ text)

include mem

theorem beginsWithName_append {name : List Char} (absent : '<' ∉ name) :
    beginsWithName name (text ++ tail) = beginsWithName name text := by
  rw [beginsWithName, beginsWithName, Text.startsWith_append_of_mem mem absent]
  cases starts : Text.startsWith name text with
  | false => rfl
  | true =>
      obtain ⟨behind, rfl⟩ := startsWith_iff.1 starts
      have later := mem_of_mem_append rfl mem absent
      rw [List.append_assoc, List.drop_left, List.drop_left, head?_append_of_mem later]

theorem unit?_append : unit? (text ++ tail) = unit? text := by
  have absent : ∀ unit ∈ units, '<' ∉ unit.toList := by decide
  exact List.find?_congr fun unit member => beginsWithName_append mem (absent unit member)

theorem colorDigits?_append : colorDigits? (text ++ tail) = colorDigits? text := by
  have runEq : (text ++ tail).takeWhile CharClass.isHexDigit =
      text.takeWhile CharClass.isHexDigit := takeWhile_append_of_mem mem (by decide)
  have dropEq : ((text ++ tail).drop (text.takeWhile CharClass.isHexDigit).length).head? =
      (text.drop (text.takeWhile CharClass.isHexDigit).length).head? := by
    rw [List.drop_append_of_le_length (List.takeWhile_sublist _).length_le, drop_length_takeWhile]
    exact head?_append_of_mem (mem_dropWhile mem (by decide))
  simp only [colorDigits?, runEq, dropEq]

end Stop

theorem scanDimension_append {value : Float} {length : Nat} (mem : '<' ∈ text) :
    scanDimension value length (text ++ tail) = scanDimension value length text := by
  rw [scanDimension, scanDimension, unit?_append mem]

theorem scanStyleWord_append {c : Char} (mem : '<' ∈ c :: text) :
    scanStyleWord c (text ++ tail) = scanStyleWord c text := by
  have numberEq : readNumber? (c :: (text ++ tail)) = readNumber? (c :: text) :=
    readNumber?_append_of_mem mem (by decide)
  have nameEq : name? CharClass.isStyleNameStart CharClass.isStyleNamePart
      (c :: (text ++ tail)) =
        name? CharClass.isStyleNameStart CharClass.isStyleNamePart (c :: text) :=
    name?_append_of_mem mem (by decide) (by decide)
  rw [scanStyleWord, scanStyleWord, numberEq, nameEq]
  cases read : readNumber? (c :: text) with
  | none => rfl
  | some number =>
      obtain ⟨value, length⟩ := number
      have later := mem_drop_readNumber? mem (by decide) read
      have dropEq : (c :: (text ++ tail)).drop length = (c :: text).drop length ++ tail :=
        List.drop_append_of_le_length (readNumber?_within read).2
      simp only [dropEq, scanDimension_append later]

theorem scanStyle_append (closed : ContainsStyleEnd text)
    (found : scanStyle text = .ok (some lexeme)) :
    scanStyle (text ++ tail) = .ok (some lexeme) := by
  have mem := closed.mem
  have endEq : Text.startsWithIgnoreCase "</style>".toList (text ++ tail) =
      Text.startsWithIgnoreCase "</style>".toList text :=
    Text.startsWithIgnoreCase_append closed.length_le
  have commentEq : Text.startsWith ['/', '*'] (text ++ tail) = Text.startsWith ['/', '*'] text :=
    Text.startsWith_append ((by decide : 2 ≤ 8).trans closed.length_le)
  cases text with
  | nil => contradiction
  | cons c text =>
      have runEq : whitespaceRun (c :: (text ++ tail)) = whitespaceRun (c :: text) :=
        takeWhile_append_of_mem mem (by decide)
      rw [List.cons_append] at endEq commentEq ⊢
      rw [scanStyle] at found ⊢
      rw [runEq, endEq, commentEq, scanStyleWord_append mem]
      by_cases space : CharClass.isMarkupSpace c = true
      · rwa [if_pos space] at found ⊢
      rw [if_neg space] at found ⊢
      by_cases ends : Text.startsWithIgnoreCase "</style>".toList (c :: text) = true
      · rwa [if_pos ends] at found ⊢
      rw [if_neg ends] at found ⊢
      by_cases comment : Text.startsWith ['/', '*'] (c :: text) = true
      · rw [if_pos comment] at found ⊢
        have long := closed.length_le
        rw [List.drop_append_of_le_length (by simp only [List.length_cons] at long; omega)]
        exact scanStyleComment_append found
      rw [if_neg comment] at found ⊢
      cases tried : scanProtectedString? (c :: text) with
      | some scan =>
          simp only [tried] at found
          simp only [isLocal_scanProtectedString?.found _ tried found]
      | none =>
          simp only [tried] at found
          simp only [isLocal_scanProtectedString?.untried _ tried]
          by_cases hash : c = '#'
          · have later : '<' ∈ text := (List.mem_cons.1 mem).resolve_left (by simp [hash])
            rwa [colorDigits?_append later]
          · rw [if_neg hash] at found ⊢
            exact found

end Inside

section Scripts

variable {lexeme : Lexeme}

/-- Whether a text has a part at its end before which script code ends. -/
def ContainsCodeEnd (text : List Char) : Prop :=
  ∃ behind, behind <:+ text ∧ endsCode behind = true

theorem ContainsCodeEnd.closesScript_append (ended : ContainsCodeEnd text) :
    closesScript (text ++ tail) = closesScript text := by
  obtain ⟨behind, suffixes, ends⟩ := ended
  simp only [endsCode, Bool.or_eq_true] at ends
  rcases ends with (closes | opening) | closing
  · have long := (equalIgnoreCase_take closes).1.trans suffixes.length_le
    exact Text.startsWithIgnoreCase_append long
  · obtain ⟨others, rfl⟩ := startsWith_iff.1 opening
    exact Text.startsWithIgnoreCase_append_of_mem (suffixes.subset List.mem_cons_self) (by decide)
  · obtain ⟨others, rfl⟩ := startsWith_iff.1 closing
    exact Text.startsWithIgnoreCase_append_of_mem (suffixes.subset List.mem_cons_self) (by decide)

theorem ContainsCodeEnd.length_le (ended : ContainsCodeEnd text) : 2 ≤ text.length := by
  obtain ⟨behind, suffixes, ends⟩ := ended
  refine Nat.le_trans ?_ suffixes.length_le
  simp only [endsCode, Bool.or_eq_true] at ends
  rcases ends with (closes | opening) | closing
  · exact (by decide : 2 ≤ 9).trans (equalIgnoreCase_take closes).1
  · obtain ⟨others, rfl⟩ := startsWith_iff.1 opening
    simp
  · obtain ⟨others, rfl⟩ := startsWith_iff.1 closing
    simp

theorem ContainsCodeEnd.startsWith_append (ended : ContainsCodeEnd text) (c d : Char) :
    Text.startsWith [c, d] (text ++ tail) = Text.startsWith [c, d] text :=
  Text.startsWith_append ended.length_le

theorem ContainsCodeEnd.endsCode_append (ended : ContainsCodeEnd text) :
    endsCode (text ++ tail) = endsCode text := by
  rw [endsCode, endsCode, ended.closesScript_append, ended.startsWith_append,
    ended.startsWith_append]

theorem drop_one_add (count : Nat) (c : Char) (text : List Char) :
    (c :: text).drop (1 + count) = text.drop count := by
  rw [Nat.add_comm, List.drop_succ_cons]

theorem drop_two_add (count : Nat) (c d : Char) (text : List Char) :
    (c :: d :: text).drop (2 + count) = text.drop count := by
  rw [Nat.add_comm, List.drop_succ_cons, List.drop_succ_cons]

/-- Code that something follows has come to an end there. -/
theorem endsCode_drop_codeLength {place : ScriptPlace}
    (followed : text.drop (codeLength place text) ≠ []) :
    endsCode (text.drop (codeLength place text)) = true := by
  fun_induction codeLength place text with
  | case1 => simp at followed
  | case2 c text ends => exact ends
  | case9 c text closes | case12 c text closes => simp [endsCode, closes]
  | _ =>
      rename_i ih
      simp only [drop_one_add, drop_two_add] at followed ⊢
      exact ih followed

theorem containsCodeEnd_of_followed {place : ScriptPlace}
    (followed : text.drop (codeLength place text) ≠ []) : ContainsCodeEnd text :=
  ⟨_, List.drop_suffix _ _, endsCode_drop_codeLength followed⟩

theorem codeLength_append {place : ScriptPlace}
    (followed : text.drop (codeLength place text) ≠ []) :
    codeLength place (text ++ tail) = codeLength place text := by
  have ended := containsCodeEnd_of_followed followed
  have endEq : endsCode (text ++ tail) = endsCode text := ended.endsCode_append
  have closeEq : closesScript (text ++ tail) = closesScript text := ended.closesScript_append
  fun_induction codeLength place text with
  | case1 => simp at followed
  | case2 c text ends =>
      rw [List.cons_append] at endEq ⊢
      rw [codeLength.eq_def]
      simp [endEq, ends]
  | case9 c text closes | case12 c text closes =>
      rw [List.cons_append] at closeEq ⊢
      rw [codeLength.eq_def]
      simp [closeEq, closes]
  | case5 rest noLine noBlock code ih | case14 rest noEnd code ih =>
      simp only [drop_one_add] at followed
      have later := containsCodeEnd_of_followed followed
      have same := ih followed later later.endsCode_append later.closesScript_append
      obtain ⟨d, others, rfl⟩ : ∃ d others, rest = d :: others :=
        List.exists_cons_of_ne_nil fun empty => by simp [empty] at followed
      rw [List.cons_append] at endEq closeEq ⊢
      rw [codeLength.eq_def]
      simp only [endEq, closeEq, code]
      simp_all
  | _ =>
      rename_i ih
      simp only [drop_one_add, drop_two_add] at followed
      have later := containsCodeEnd_of_followed followed
      have same := ih followed later later.endsCode_append later.closesScript_append
      simp only [List.cons_append] at endEq closeEq ⊢
      rw [codeLength.eq_def]
      simp_all

end Scripts

/-- Whether a text begins with a character that no run of text in markup goes on
with. -/
def BeginsConstruct (text : List Char) : Prop :=
  ∃ c rest, text = c :: rest ∧ c ∈ ['<', '{', '}', '@']

/-- Whether a token of markup or of a script, with some text `behind` it, ends
where it does whatever else follows, as long as that begins like `tail`. -/
def IsBounded (kind : TokenKind) (behind tail : List Char) : Prop :=
  match kind with
  | .text _ | .whitespace _ => behind ≠ [] ∨ BeginsConstruct tail
  | .punctuation .less => '>' ∈ behind
  | .punctuation .leftBrace | .scriptCode _ => behind ≠ []
  | _ => True

section Outside

/-! In markup and in scripts. -/

variable {lexeme : Lexeme}

theorem ends_or_followed_of_scanScript (found : scanScript text = .ok (some lexeme))
    (bounded : IsBounded lexeme.kind (text.drop lexeme.length) tail) :
    endsCode text = true ∨ text.drop (codeLength .code text) ≠ [] := by
  rw [Classical.or_iff_not_imp_left]
  intro code
  simp only [endsCode, Bool.or_eq_true, not_or] at code
  rw [scanScript, if_neg code.1.1, if_neg code.1.2, if_neg code.2] at found
  split at found
  · simp at found
  · simp only [Scan.found, Except.ok.injEq, Option.some.injEq] at found
    subst found
    exact bounded

theorem scanScript_append (found : scanScript text = .ok (some lexeme))
    (bounded : IsBounded lexeme.kind (text.drop lexeme.length) tail) :
    scanScript (text ++ tail) = .ok (some lexeme) := by
  have ended := ends_or_followed_of_scanScript found bounded
  have contains : ContainsCodeEnd text :=
    ended.elim (fun ends => ⟨text, List.suffix_refl _, ends⟩) containsCodeEnd_of_followed
  have nonempty : text.isEmpty = false := by
    have long := contains.length_le
    cases text <;> simp_all
  have longerNonempty : (text ++ tail).isEmpty = false := by
    cases text <;> simp_all
  rw [← found, scanScript, scanScript, contains.closesScript_append,
    contains.startsWith_append, contains.startsWith_append, nonempty, longerNonempty]
  rcases ended with ends | followed
  · simp only [endsCode, Bool.or_eq_true] at ends
    rcases ends with (closes | opening) | closing <;> simp [*]
  · have within := codeLength_le .code text
    simp only [codeLength_append followed, List.take_append_of_le_length within]

/-- A run of characters ends where something follows that does not belong to
it. -/
theorem takeWhile_append_of_bounded {member : Char → Bool}
    (bounded : text.drop (text.takeWhile member).length ≠ [] ∨ BeginsConstruct tail)
    (outside : ['<', '{', '}', '@'].any member = false) :
    (text ++ tail).takeWhile member = text.takeWhile member := by
  have split := List.takeWhile_append_dropWhile (p := member) (l := text)
  rw [drop_length_takeWhile] at bounded
  cases restEq : text.dropWhile member with
  | cons c rest =>
      have stopped := List.head?_dropWhile_not member text
      have mem : c ∈ text := List.dropWhile_sublist member |>.subset (by rw [restEq]; simp)
      rw [restEq] at stopped
      exact takeWhile_append_of_mem mem stopped
  | nil =>
      obtain ⟨c, rest, rfl, isMark⟩ := bounded.resolve_left (not_not.2 restEq)
      rw [restEq, List.append_nil] at split
      rw [split]
      apply takeWhile_append_of_stops fun d member => List.mem_takeWhile_imp (split.symm ▸ member)
      intro d head
      obtain rfl := Option.some.inj head
      exact Bool.eq_false_iff.2 (List.any_eq_false.1 outside c isMark)

theorem scanMarkupComment_append (found : scanMarkupComment text = .ok (some lexeme)) :
    scanMarkupComment (text ++ tail) = .ok (some lexeme) := by
  rw [scanMarkupComment] at found ⊢
  cases split : Text.splitAtFirst? ['-', '-', '>'] text with
  | none => simp [split] at found
  | some parts =>
      obtain ⟨body, behind⟩ := parts
      simp only [split] at found
      simpa only [Text.splitAtFirst?_append split] using found

theorem scanEntity_append (found : scanEntity text = .ok (some lexeme)) :
    scanEntity (text ++ tail) = .ok (some lexeme) := by
  simp only [scanEntity, drop_length_takeWhile] at found ⊢
  cases restEq : text.dropWhile CharClass.isEntityPart with
  | nil => simp [restEq] at found
  | cons c rest =>
      by_cases semicolon : c = ';'
      · subst semicolon
        have mem : ';' ∈ text :=
          (List.dropWhile_sublist CharClass.isEntityPart).subset (by rw [restEq]; simp)
        rw [takeWhile_append_of_mem mem (by decide), dropWhile_append_of_mem mem (by decide),
          restEq]
        rwa [restEq] at found
      · simp [restEq, semicolon] at found

theorem scanMarkup_less_of_startsWith
    (notComment : Text.startsWith ['!', '-', '-'] text = false) :
    scanMarkup ('<' :: text) = .mark .less := by
  unfold scanMarkup
  split <;> grind [Text.startsWith, List.isPrefixOf]

theorem scanMarkup_append (found : scanMarkup text = .ok (some lexeme))
    (bounded : IsBounded lexeme.kind (text.drop lexeme.length) tail) :
    scanMarkup (text ++ tail) = .ok (some lexeme) := by
  fun_cases scanMarkup text with
  | case1 => simp [scanMarkup] at found
  | case2 text => exact scanMarkupComment_append found
  | case3 text => exact found
  | case4 text => exact scanEntity_append found
  | case5 text notComment =>
      have other : Text.startsWith ['!', '-', '-'] text = false := by
        rw [← Bool.not_eq_true, startsWith_iff]
        rintro ⟨behind, textEq⟩
        exact notComment behind textEq
      rw [scanMarkup_less_of_startsWith other] at found
      obtain rfl := Option.some.inj (Except.ok.inj found)
      rw [List.cons_append, scanMarkup_less_of_startsWith]
      · rfl
      · have mem : '>' ∈ text := bounded
        rwa [Text.startsWith_append_of_mem mem (by decide)]
  | case6 text => exact found
  | case7 text notBraces =>
      have other : '{' ∉ text.head? := by
        cases text <;> simp_all
      rw [scanMarkup_leftBrace other] at found
      obtain rfl := Option.some.inj (Except.ok.inj found)
      obtain ⟨c, rest, rfl⟩ := List.exists_cons_of_ne_nil (show text ≠ [] from bounded)
      exact scanMarkup_leftBrace other
  | case8 text => exact found
  | case9 text => exact found
  | case10 c text | case11 c text =>
      have other : c ∉ ['<', '>', '{', '}', '@', '&'] := by simp_all
      rw [List.cons_append, scanMarkup_plain other]
      rw [scanMarkup_plain other] at found
      by_cases space : CharClass.isMarkupSpace c = true
      · rw [if_pos space] at found ⊢
        obtain rfl := Option.some.inj (Except.ok.inj found)
        rw [← List.cons_append, whitespaceRun, takeWhile_append_of_bounded bounded (by decide)]
        rfl
      · rw [if_neg space] at found ⊢
        obtain rfl := Option.some.inj (Except.ok.inj found)
        rw [← List.cons_append, takeWhile_append_of_bounded bounded (by decide)]
        rfl

end Outside

/-- Whether a text contains the delimiter that ends the innermost of the modes
that end with one. -/
def IsClosed : LexMode → List Char → Prop
  | .tag, text => '>' ∈ text
  | .expression, text => ContainsBrace text
  | .style, text => ContainsStyleEnd text
  | _, _ => False

theorem IsClosed.of_suffix {mode : LexMode} {behind : List Char} (closed : IsClosed mode behind)
    (suffixes : behind <:+ text) : IsClosed mode text := by
  cases mode with
  | tag => exact suffixes.subset closed
  | expression => exact closed.imp (suffixes.subset ·) (·.trans suffixes.isInfix)
  | style =>
      obtain ⟨ending, isSuffix, ends⟩ := closed
      exact ⟨ending, isSuffix.trans suffixes, ends⟩
  | _ => contradiction

theorem IsClosed.ne_nil {mode : LexMode} (closed : IsClosed mode text) : text ≠ [] := by
  rintro rfl
  cases mode with
  | tag => contradiction
  | expression => simp [IsClosed, ContainsBrace] at closed
  | style => exact absurd closed.length_le (by decide)
  | _ => contradiction

theorem scanIn_append_of_isClosed {mode : LexMode} {lexeme : Lexeme} (closed : IsClosed mode text)
    (found : scanIn mode text = .ok (some lexeme)) :
    scanIn mode (text ++ tail) = .ok (some lexeme) := by
  cases mode with
  | tag => exact scanTag_append closed found
  | expression => exact scanExpression_append closed found
  | style => exact scanStyle_append closed found
  | _ => contradiction

end Lex

end TemplateCompiler
