import TemplateCompiler.Proofs.Lex.Respelling

/-!
# Scans on other platforms

One lemma for each scanner of markup, tags, expressions and style sheets: it finds the
same token in every style of line breaks.  Whitespace, comments and literals take whole
line breaks, and every other token ends before one.
-/

namespace TemplateCompiler

namespace Lex

open Text

variable {style : BreakStyle} {c : Char} {text : List Char}

/-- A closing tag is the same in every style. -/
theorem respells_tag {kind : TokenKind} {mode : LexMode} {pattern : List Char}
    (noFeed : '\n' ∉ pattern.map Char.toLower)
    (starts : startsWithIgnoreCase pattern text = true)
    (kindEq : ∀ piece, kind.written style mode piece = kind) :
    (Scan.found kind pattern.length).Respells style mode text (.found kind pattern.length) := by
  obtain ⟨within, equal⟩ := equalIgnoreCase_take starts
  rw [Text.equalIgnoreCase_iff.1 equal] at noFeed
  refine respells_line (List.take_append_drop pattern.length text).symm
    (List.length_take_of_le within).symm ?_ (kindEq _)
  exact fun member => noFeed (List.mem_map_of_mem member)

/-- A comment and all between its delimiters is found in every style. -/
theorem respells_comment {kind : String → TokenKind} {mode : LexMode}
    {closing body after : List Char} (opening : List Char)
    (split : splitAtFirst? closing text = some (body, after)) (noFeed : '\n' ∉ opening ++ closing)
    (kindEq : ∀ piece, (kind (String.ofList body)).written style mode piece =
      kind (String.ofList (respell style body))) :
    (Scan.found (kind (String.ofList body)) (body.length + (opening ++ closing).length)).Respells
      style mode (opening ++ text)
      (.found (kind (String.ofList (respell style body)))
        ((respell style body).length + (opening ++ closing).length)) := by
  obtain ⟨tail, rfl⟩ := splitAtFirst?_append split
  obtain ⟨noOpenFeed, noCloseFeed⟩ := not_or.1 (List.mem_append.not.1 noFeed)
  have textEq : opening ++ (body ++ (closing ++ tail)) = (opening ++ body ++ closing) ++ tail := by
    simp
  refine respells_found textEq ?_ (kindEq _) ?_
  · simp only [List.length_append]
    omega
  · rw [respell_append, respell_append, respell_of_notMem noOpenFeed,
      respell_of_notMem noCloseFeed]
    simp only [List.length_append]
    omega

section Markup

theorem respells_scanMarkupComment (text : List Char) :
    (scanMarkupComment text).Respells style .markup ('<' :: '!' :: '-' :: '-' :: text)
      (scanMarkupComment (respell style text)) := by
  have splitEq := splitAtFirst?_respell style ['-', '-', '>'] (by simp) (by decide) text
  simp only [scanMarkupComment, splitEq]
  cases split : splitAtFirst? ['-', '-', '>'] text with
  | none => trivial
  | some parts =>
      obtain ⟨body, after⟩ := parts
      exact respells_comment ['<', '!', '-', '-'] split (by decide) fun piece => by
        simp [TokenKind.written, TokenKind.respell]

theorem respells_scanEntity (text : List Char) :
    (scanEntity text).Respells style .markup ('&' :: text) (scanEntity (respell style text)) := by
  have excludes : ExcludesBreaks CharClass.isEntityPart := ⟨rfl, rfl⟩
  have runEq : (respell style text).takeWhile CharClass.isEntityPart =
      text.takeWhile CharClass.isEntityPart := excludes.takeWhile_respell style text
  have divided : text = text.takeWhile CharClass.isEntityPart ++
      text.dropWhile CharClass.isEntityPart := List.takeWhile_append_dropWhile.symm
  have unbroken := excludes.notMem_takeWhile text
  have dropEq := drop_respell_of_notMem style divided unbroken
  simp only [scanEntity, runEq, dropEq]
  cases behind : text.drop (text.takeWhile CharClass.isEntityPart).length with
  | nil => trivial
  | cons d tail =>
      by_cases closes : d = ';'
      · subst closes
        rw [respell_cons_of_ne (by decide)]
        simp only
        split
        · trivial
        · have textEq : '&' :: text =
              ('&' :: text.takeWhile CharClass.isEntityPart ++ [';']) ++ tail := by
            rw [drop_length_eq divided] at behind
            simp [← behind]
          have unbrokenPiece :
              '\n' ∉ '&' :: text.takeWhile CharClass.isEntityPart ++ [';'] := by
            simpa using unbroken
          refine respells_line textEq (by simp) unbrokenPiece ?_
          change TokenKind.entity (String.ofList (respell style (String.ofList _).toList)) = _
          rw [String.toList_ofList, respell_of_notMem unbrokenPiece]
      · split
        · next same => exact absurd (List.cons.inj same).1 closes
        · trivial

/-- The mark that a character is between tags. -/
def markupMark? (c : Char) : Option Punctuation :=
  if ['<', '>', '{', '}', '@'].contains c then Punctuation.ofChar? c else none

theorem scanMarkup_eq (c : Char) (text : List Char) :
    scanMarkup (c :: text) =
      if startsWith "<!--".toList (c :: text) then scanMarkupComment (text.drop 3)
      else if startsWith ['{', '{'] (c :: text) then .found .interpolationStart 2
      else if c = '&' then scanEntity text
      else
        match markupMark? c with
        | some mark => .mark mark
        | none =>
            if CharClass.isMarkupSpace c then
              .found (.whitespace (String.ofList (whitespaceRun (c :: text))))
                (whitespaceRun (c :: text)).length
            else
              let run := (c :: text).takeWhile fun c => !CharClass.isTextBoundary c
              .found (.text (String.ofList run)) run.length := by
  rw [scanMarkup.eq_def]
  split <;> simp_all [startsWith_iff, markupMark?, Punctuation.ofChar?]

theorem scanMarkup_space (text : List Char) (space : CharClass.isMarkupSpace c = true) :
    scanMarkup (c :: text) =
      .found (.whitespace (String.ofList (whitespaceRun (c :: text))))
        (whitespaceRun (c :: text)).length := by
  rw [scanMarkup_plain (not_mem_of_class rfl space), if_pos space]

theorem respells_scanMarkup (text : List Char) :
    (scanMarkup text).Respells style .markup text (scanMarkup (respell style text)) := by
  cases text with
  | nil => rfl
  | cons c text =>
      by_cases space : CharClass.isMarkupSpace c = true
      · exact respells_space scanMarkup_space space text
      have plain := ne_feed_of_not_isMarkupSpace space
      have commentEq := startsWith_respell style "<!--".toList (by decide) (c :: text)
      have openEq := startsWith_respell style ['{', '{'] (by decide) (c :: text)
      have excludes : ExcludesBreaks fun c => !CharClass.isTextBoundary c := ⟨rfl, rfl⟩
      have runEq := excludes.takeWhile_respell style (c :: text)
      rw [respell_cons_of_ne plain] at commentEq openEq runEq ⊢
      rw [scanMarkup_eq, scanMarkup_eq, commentEq, openEq]
      split
      · next starts =>
          obtain ⟨tail, textEq⟩ := startsWith_iff.1 starts
          obtain ⟨rfl, rfl⟩ := List.cons.inj textEq
          exact respells_scanMarkupComment tail
      split
      · next starts =>
          obtain ⟨tail, textEq⟩ := startsWith_iff.1 starts
          exact respells_line textEq rfl (by decide) rfl
      split
      · next isAmpersand =>
          subst isAmpersand
          exact respells_scanEntity text
      cases isMark : markupMark? c with
      | some mark =>
          simp only [markupMark?, Option.ite_none_right_eq_some] at isMark
          exact respells_mark (by rw [ofChar?_spelling isMark.2]; rfl)
      | none =>
          simp only [runEq]
          have unbroken := excludes.notMem_takeWhile (c :: text)
          refine respells_line List.takeWhile_append_dropWhile.symm rfl unbroken ?_
          simp only [TokenKind.written, TokenKind.respell, String.toList_ofList,
            respell_of_notMem unbroken]

end Markup

section Inside

/-! Inside of tags, expressions and style sheets. -/

theorem respells_scanTag (text : List Char) :
    (scanTag text).Respells style .tag text (scanTag (respell style text)) := by
  cases text with
  | nil => rfl
  | cons c text =>
      by_cases space : CharClass.isMarkupSpace c = true
      · exact respells_space (fun _ space => by rw [scanTag, if_pos space]) space text
      have plain := ne_feed_of_not_isMarkupSpace space
      have start : ExcludesBreaks CharClass.isNameStart := ⟨rfl, rfl⟩
      have part : ExcludesBreaks CharClass.isNamePart := ⟨rfl, rfl⟩
      have nameEq := name?_respell start part style (c :: text)
      have numberEq := readNumber?_respell style (c :: text)
      rw [respell_cons_of_ne plain] at nameEq numberEq ⊢
      rw [scanTag, scanTag, if_neg space, if_neg space, nameEq, numberEq]
      cases isMark : tagMark? c with
      | some mark =>
          simp only [tagMark?, Option.ite_none_right_eq_some] at isMark
          exact respells_mark (by rw [ofChar?_spelling isMark.2]; rfl)
      | none =>
          cases isName : name? CharClass.isNameStart CharClass.isNamePart (c :: text) with
          | some word => exact respells_word start part isName
          | none =>
              have strings := isRespelled_scanString? style (by decide : LexMode.tag ≠ .style)
              refine strings.respells_or plain ?_
              cases read : readNumber? (c :: text) with
              | some number => exact respells_number read
              | none => trivial

theorem longMark?_respell (style : BreakStyle) (text : List Char) :
    longMark? (respell style text) = longMark? text := by
  rw [longMark?_eq, longMark?_eq]
  iterate 6 rw [startsWith_respell style _ (by decide)]

theorem respells_scanExpressionMark (plain : c ≠ '\n') (text : List Char) :
    (scanExpressionMark c text).Respells style .expression (c :: text)
      (scanExpressionMark c (respell style text)) := by
  have longEq := longMark?_respell style (c :: text)
  rw [respell_cons_of_ne plain] at longEq
  rw [scanExpressionMark, scanExpressionMark, longEq]
  cases isLong : longMark? (c :: text) with
  | some mark =>
      obtain ⟨tail, textEq⟩ := longMark?_prefix isLong
      exact respells_mark textEq
  | none =>
      cases isMark : expressionMark? c with
      | some mark =>
          simp only [expressionMark?, Option.ite_none_right_eq_some] at isMark
          exact respells_mark (by rw [ofChar?_spelling isMark.2]; rfl)
      | none => trivial

theorem respells_scanExpressionLiteral (plain : c ≠ '\n') (text : List Char) :
    (scanExpressionLiteral c text).Respells style .expression (c :: text)
      (scanExpressionLiteral c (respell style text)) := by
  have numberEq := readNumber?_respell style (c :: text)
  rw [respell_cons_of_ne plain] at numberEq
  rw [scanExpressionLiteral, scanExpressionLiteral, numberEq]
  refine (isRespelled_scanTemplate? style .expression).respells_or plain ?_
  have strings := isRespelled_scanString? style (by decide : LexMode.expression ≠ .style)
  refine strings.respells_or plain ?_
  split
  · cases read : readNumber? (c :: text) with
    | some number => exact respells_number read
    | none => exact respells_scanExpressionMark plain text
  · exact respells_scanExpressionMark plain text

theorem respells_scanExpression (text : List Char) :
    (scanExpression text).Respells style .expression text
      (scanExpression (respell style text)) := by
  cases text with
  | nil => rfl
  | cons c text =>
      by_cases space : CharClass.isMarkupSpace c = true
      · exact respells_space (fun _ space => by rw [scanExpression, if_pos space]) space text
      have plain := ne_feed_of_not_isMarkupSpace space
      have start : ExcludesBreaks CharClass.isVariableStart := ⟨rfl, rfl⟩
      have part : ExcludesBreaks CharClass.isVariablePart := ⟨rfl, rfl⟩
      have nameEq := name?_respell start part style (c :: text)
      have endEq := startsWith_respell style ['}', '}'] (by decide) (c :: text)
      rw [respell_cons_of_ne plain] at nameEq endEq ⊢
      rw [scanExpression, scanExpression, if_neg space, if_neg space, nameEq, endEq]
      split
      · next starts =>
          obtain ⟨tail, textEq⟩ := startsWith_iff.1 starts
          exact respells_line textEq rfl (by decide) rfl
      cases isName : name? CharClass.isVariableStart CharClass.isVariablePart (c :: text) with
      | some word => exact respells_word start part isName
      | none => exact respells_scanExpressionLiteral plain text

theorem beginsWithName_respell {name : List Char} (unbroken : name.any isLineBreak = false)
    (text : List Char) : beginsWithName name (respell style text) = beginsWithName name text := by
  rw [beginsWithName, beginsWithName, startsWith_respell style name unbroken]
  cases starts : startsWith name text with
  | false => rfl
  | true =>
      obtain ⟨behind, textEq⟩ := startsWith_iff.1 starts
      have noFeed : '\n' ∉ name := fun mem => List.any_eq_false.1 unbroken _ mem rfl
      rw [drop_respell_of_notMem style textEq noFeed, any_head?_respell rfl]

theorem unit?_respell (text : List Char) : unit? (respell style text) = unit? text := by
  have unbroken : units.all (fun unit => !unit.toList.any isLineBreak) = true := by decide
  refine List.find?_congr fun unit member => beginsWithName_respell ?_ text
  simpa using List.all_eq_true.1 unbroken unit member

/-- A dimension is a number and the unit behind it, none of which has a line break. -/
theorem respells_scanDimension (style : BreakStyle) {value : Float} {length : Nat}
    (read : readNumber? text = some (value, length)) :
    (scanDimension value length (text.drop length)).Respells style .style text
      (scanDimension value length ((respell style text).drop length)) := by
  obtain ⟨piece, behind, textEq, lengthEq, unbroken⟩ := exists_number read
  rw [lengthEq, drop_respell_of_notMem style textEq unbroken, scanDimension, scanDimension,
    unit?_respell, drop_length_eq textEq]
  cases isUnit : unit? behind with
  | none => exact respells_line textEq rfl unbroken rfl
  | some unit =>
      have begins := List.find?_some isUnit
      simp only [beginsWithName, Bool.and_eq_true] at begins
      obtain ⟨tail, rfl⟩ := startsWith_iff.1 begins.1
      have unbrokenUnits : ∀ unit ∈ units, '\n' ∉ unit.toList := by decide
      have unbrokenUnit := unbrokenUnits unit (List.mem_of_find?_eq_some isUnit)
      rw [← List.append_assoc] at textEq
      refine respells_line textEq ?_ (List.not_mem_append unbroken unbrokenUnit) ?_
      · rw [List.length_append, String.length_toList]
      · simp [TokenKind.written, TokenKind.respell, respell_of_notMem unbrokenUnit]

theorem respells_scanStyleWord (plain : c ≠ '\n') (text : List Char) :
    (scanStyleWord c text).Respells style .style (c :: text)
      (scanStyleWord c (respell style text)) := by
  have start : ExcludesBreaks CharClass.isStyleNameStart := ⟨rfl, rfl⟩
  have part : ExcludesBreaks CharClass.isStyleNamePart := ⟨rfl, rfl⟩
  have nameEq := name?_respell start part style (c :: text)
  have numberEq := readNumber?_respell style (c :: text)
  rw [respell_cons_of_ne plain] at nameEq numberEq
  rw [scanStyleWord, scanStyleWord, nameEq, numberEq]
  cases read : readNumber? (c :: text) with
  | some number =>
      have respells := respells_scanDimension style read
      rwa [respell_cons_of_ne plain] at respells
  | none =>
      cases isName : name? CharClass.isStyleNameStart CharClass.isStyleNamePart (c :: text) with
      | some word =>
          obtain ⟨-, tail, textEq⟩ := name?_eq_append isName
          have unbroken := unbroken_of_name? start part isName
          refine respells_line textEq rfl unbroken ?_
          simp [TokenKind.written, TokenKind.respell, respell_of_notMem unbroken]
      | none =>
          cases isMark : Punctuation.ofChar? c with
          | some mark => exact respells_mark (by rw [ofChar?_spelling isMark]; rfl)
          | none => trivial

theorem respells_scanStyleComment (text : List Char) :
    (scanStyleComment text).Respells style .style ('/' :: '*' :: text)
      (scanStyleComment (respell style text)) := by
  have splitEq := splitAtFirst?_respell style ['*', '/'] (by simp) (by decide) text
  simp only [scanStyleComment, splitEq]
  cases split : splitAtFirst? ['*', '/'] text with
  | none => trivial
  | some parts =>
      obtain ⟨body, after⟩ := parts
      exact respells_comment ['/', '*'] split (by decide) fun piece => by
        simp [TokenKind.written, TokenKind.respell]

theorem colorDigits?_respell (text : List Char) :
    colorDigits? (respell style text) = colorDigits? text := by
  have excludes : ExcludesBreaks CharClass.isHexDigit := ⟨by decide, by decide⟩
  have dropEq := drop_respell_of_notMem style
    (List.takeWhile_append_dropWhile (p := CharClass.isHexDigit) (l := text)).symm
    (excludes.notMem_takeWhile text)
  have nextEq : ∀ text, (respell style text).head?.any CharClass.isStyleNamePart =
      text.head?.any CharClass.isStyleNamePart := any_head?_respell rfl
  simp only [colorDigits?, excludes.takeWhile_respell, dropEq, nextEq]

theorem respells_color {digits : List Char} (found : colorDigits? text = some digits) :
    (Scan.found (.color (String.ofList digits)) (digits.length + 1)).Respells style .style
      ('#' :: text) (.found (.color (String.ofList digits)) (digits.length + 1)) := by
  have excludes : ExcludesBreaks CharClass.isHexDigit := ⟨by decide, by decide⟩
  simp only [colorDigits?, Option.ite_none_right_eq_some, Option.some.injEq] at found
  obtain ⟨-, rfl⟩ := found
  have textEq : '#' :: text = ('#' :: text.takeWhile CharClass.isHexDigit) ++
      text.dropWhile CharClass.isHexDigit := by simp
  have unbroken := excludes.notMem_takeWhile text
  refine respells_line textEq rfl
    (List.not_mem_cons_of_ne_of_not_mem (by decide) unbroken) ?_
  simp [TokenKind.written, TokenKind.respell, respell_of_notMem unbroken]

theorem respells_scanStyle (text : List Char) :
    (scanStyle text).Respells style .style text (scanStyle (respell style text)) := by
  cases text with
  | nil => rfl
  | cons c text =>
      by_cases space : CharClass.isMarkupSpace c = true
      · exact respells_space (fun _ space => by rw [scanStyle, if_pos space]) space text
      have plain := ne_feed_of_not_isMarkupSpace space
      have endEq := startsWithIgnoreCase_respell style "</style>".toList (by decide) (c :: text)
      have commentEq := startsWith_respell style ['/', '*'] (by decide) (c :: text)
      rw [respell_cons_of_ne plain] at endEq commentEq ⊢
      rw [scanStyle, scanStyle, if_neg space, if_neg space, endEq, commentEq, colorDigits?_respell]
      split
      · next ends => exact respells_tag (by decide) ends fun _ => rfl
      split
      · next starts =>
          obtain ⟨tail, textEq⟩ := startsWith_iff.1 starts
          obtain ⟨rfl, rfl⟩ := List.cons.inj textEq
          exact respells_scanStyleComment tail
      refine (isRespelled_scanProtectedString? style).respells_or plain ?_
      split
      · next isHash =>
          subst isHash
          cases isColor : colorDigits? text with
          | some digits => exact respells_color isColor
          | none => exact respells_scanStyleWord plain text
      · exact respells_scanStyleWord plain text

end Inside

end Lex

end TemplateCompiler
