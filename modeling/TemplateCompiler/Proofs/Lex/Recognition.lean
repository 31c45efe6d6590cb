import TemplateCompiler.Proofs.Lex.Fitting

/-!
# Recognizing what is written

The converse of fitting: when a text begins with the spelling of a token, and
what follows does not lengthen it, the scanner of a mode finds that token.
Runs of characters are found whole when the text behind them begins with a
character of another class.
-/

namespace TemplateCompiler

namespace Lex

/-- Whether a text is empty or begins with a character outside of a class. -/
def Stops (member : Char → Bool) (text : List Char) : Prop :=
  ∀ c ∈ text.head?, member c = false

@[simp]
theorem stops_nil {member : Char → Bool} : Stops member [] := by
  simp [Stops]

@[simp]
theorem stops_cons {member : Char → Bool} {c : Char} {text : List Char} :
    Stops member (c :: text) ↔ member c = false := by
  simp [Stops]

/-- What stops at a character stops every class without that character. -/
theorem Stops.of_separator {member : Char → Bool} {separator : Char} {text : List Char}
    (stops : Stops (· != separator) text) (outside : member separator = false) :
    Stops member text := by
  cases text with
  | nil => exact stops_nil
  | cons c text =>
      obtain rfl : c = separator := by simpa using stops
      exact stops_cons.2 outside

theorem takeWhile_append_of_stops {member : Char → Bool} {piece tail : List Char}
    (inside : ∀ c ∈ piece, member c = true) (stops : Stops member tail) :
    (piece ++ tail).takeWhile member = piece := by
  rw [List.takeWhile_append_of_pos inside]
  cases tail with
  | nil => simp
  | cons c tail => simp [stops c rfl]

theorem dropWhile_append_of_stops {member : Char → Bool} {piece tail : List Char}
    (inside : ∀ c ∈ piece, member c = true) (stops : Stops member tail) :
    (piece ++ tail).dropWhile member = tail := by
  have split := List.takeWhile_append_dropWhile (p := member) (l := piece ++ tail)
  rw [takeWhile_append_of_stops inside stops] at split
  exact List.append_cancel_left split

theorem stops_dropWhile (member : Char → Bool) (text : List Char) :
    Stops member (text.dropWhile member) := by
  intro c head
  have stopped := List.head?_dropWhile_not member text
  rwa [Option.mem_def.1 head] at stopped

theorem Stops.append {member : Char → Bool} {text tail : List Char} (stops : Stops member text)
    (later : Stops member tail) : Stops member (text ++ tail) := by
  cases text with
  | nil => exact later
  | cons c text => exact stops

section Names

/-- Whether a word is a name, for the classes of its first and its later
characters. -/
def IsName (isStart isPart : Char → Bool) (word : List Char) : Prop :=
  ∃ c rest, word = c :: rest ∧ isStart c = true ∧ rest.all isPart = true

variable {isStart isPart : Char → Bool} {word tail : List Char}

theorem name?_append (isName : IsName isStart isPart word) (stops : Stops isPart tail) :
    name? isStart isPart (word ++ tail) = some word := by
  obtain ⟨c, rest, rfl, start, parts⟩ := isName
  simp [name?, start, takeWhile_append_of_stops (List.all_eq_true.1 parts) stops]

def IsTagName : List Char → Prop :=
  IsName CharClass.isNameStart CharClass.isNamePart

def IsVariableName : List Char → Prop :=
  IsName CharClass.isVariableStart CharClass.isVariablePart

theorem not_mem_of_class {member : Char → Bool} {others : List Char} {c : Char}
    (apart : others.all fun other => !member other) (isMember : member c = true) :
    c ∉ others := by
  intro isOther
  have := List.all_eq_true.1 apart c isOther
  simp [isMember] at this

/-- A character of neither class does not occur in a name. -/
theorem IsName.not_mem {c : Char} (isName : IsName isStart isPart word)
    (notStart : isStart c = false) (notPart : isPart c = false) : c ∉ word := by
  obtain ⟨first, rest, rfl, start, parts⟩ := isName
  intro member
  rcases List.mem_cons.1 member with rfl | member
  · simp [start] at notStart
  · simp [List.all_eq_true.1 parts c member] at notPart

theorem not_isMarkupSpace_of_class {member : Char → Bool} {c : Char}
    (apart : [' ', '\t', '\n', '\r', '\x0c'].all fun other => !member other)
    (isMember : member c = true) : CharClass.isMarkupSpace c = false := by
  have := not_mem_of_class apart isMember
  simp_all [CharClass.isMarkupSpace]

theorem tagMark?_of_isNameStart {c : Char} (start : CharClass.isNameStart c = true) :
    tagMark? c = none := by
  have apart : c ∉ ['<', '>', '=', '!', '?', ':', ';', ',', '.', '+', '-', '/', '*', '{', '}',
      '(', ')', '[', ']', '@', '&'] := not_mem_of_class (by decide) start
  simp only [tagMark?, List.contains_eq_mem, apart]
  rfl

theorem scanTag_name (isName : IsTagName word) (stops : Stops CharClass.isNamePart tail) :
    scanTag (word ++ tail) = .found (wordKind word) word.length := by
  have nameEq := name?_append isName stops
  obtain ⟨c, rest, rfl, start, parts⟩ := isName
  have notSpace := not_isMarkupSpace_of_class (by decide) start
  rw [List.cons_append] at nameEq ⊢
  simp only [scanTag, notSpace, Bool.false_eq_true, if_false, tagMark?_of_isNameStart start,
    nameEq]

theorem scanExpression_name (isName : IsVariableName word)
    (stops : Stops CharClass.isVariablePart tail) :
    scanExpression (word ++ tail) = .found (wordKind word) word.length := by
  have nameEq := name?_append isName stops
  obtain ⟨c, rest, rfl, start, parts⟩ := isName
  have notSpace := not_isMarkupSpace_of_class (by decide) start
  have notBrace : '}' ≠ c := by
    rintro rfl
    exact absurd start (by decide)
  have notEnd : Text.startsWith ['}', '}'] (c :: (rest ++ tail)) = false := by
    simp [Text.startsWith, List.isPrefixOf, notBrace]
  rw [List.cons_append] at nameEq ⊢
  simp only [scanExpression, notSpace, Bool.false_eq_true, if_false, notEnd, nameEq]

theorem wordKind_of_not_boolean (notBoolean : booleanWord? word = none) :
    wordKind word = .identifier (String.ofList word) := by
  simp [wordKind, notBoolean]

end Names

section Spaces

variable {spaces tail : List Char}

theorem whitespaceRun_append (isSpaces : Text.IsSpaces spaces)
    (stops : Stops CharClass.isMarkupSpace tail) : whitespaceRun (spaces ++ tail) = spaces :=
  takeWhile_append_of_stops isSpaces stops

theorem scanTag_spaces (nonempty : spaces ≠ []) (isSpaces : Text.IsSpaces spaces)
    (stops : Stops CharClass.isMarkupSpace tail) :
    scanTag (spaces ++ tail) = .found (.whitespace (String.ofList spaces)) spaces.length := by
  have runEq := whitespaceRun_append isSpaces stops
  cases spaces with
  | nil => contradiction
  | cons c spaces =>
      have space := isSpaces c List.mem_cons_self
      rw [List.cons_append] at runEq ⊢
      simp only [scanTag, space, if_true, runEq]

theorem scanExpression_spaces (nonempty : spaces ≠ []) (isSpaces : Text.IsSpaces spaces)
    (stops : Stops CharClass.isMarkupSpace tail) :
    scanExpression (spaces ++ tail) =
      .found (.whitespace (String.ofList spaces)) spaces.length := by
  have runEq := whitespaceRun_append isSpaces stops
  cases spaces with
  | nil => contradiction
  | cons c spaces =>
      have space := isSpaces c List.mem_cons_self
      rw [List.cons_append] at runEq ⊢
      simp only [scanExpression, space, if_true, runEq]

end Spaces

section Strings

/-- A string between double quotes, with a backslash before each double quote and
each backslash in it. -/
def protect (value : List Char) : List Char :=
  value.flatMap fun c => if c = '"' ∨ c = '\\' then ['\\', c] else [c]

theorem protect_unescaped {value : List Char} (noQuote : '"' ∉ value)
    (noBackslash : '\\' ∉ value) : protect value = value := by
  have single : ∀ c ∈ value, (if c = '"' ∨ c = '\\' then ['\\', c] else [c]) = [c] := by
    intro c member
    apply if_neg
    rintro (rfl | rfl)
    · exact noQuote member
    · exact noBackslash member
  rw [protect, List.flatMap_def, List.map_congr_left single, ← List.flatMap_def,
    List.flatMap_singleton']

def quote (value : String) : List Char :=
  '"' :: (protect value.toList ++ ['"'])

theorem readQuoted_closed (quote : Char) (text : List Char) :
    readQuoted quote (quote :: text) = .closed [] 1 := by
  rw [readQuoted.eq_def]
  simp

theorem readQuoted_escape {quote escape resolved : Char} (text : List Char)
    (notBackslash : quote ≠ '\\') (resolvedEq : resolveEscape? escape = some resolved) :
    readQuoted quote ('\\' :: escape :: text) =
      (readQuoted quote text).prepend [resolved] 2 := by
  rw [readQuoted.eq_def]
  simp [notBackslash.symm, resolvedEq]

theorem readQuoted_plain {quote c : Char} (text : List Char) (notQuote : c ≠ quote)
    (notBackslash : c ≠ '\\') :
    readQuoted quote (c :: text) = (readQuoted quote text).prepend [c] 1 := by
  rw [readQuoted.eq_def]
  simp [notQuote, notBackslash]

theorem readQuoted_protect (value tail : List Char) :
    readQuoted '"' (protect value ++ '"' :: tail) = .closed value ((protect value).length + 1) := by
  induction value with
  | nil => exact readQuoted_closed '"' tail
  | cons c value ih =>
      by_cases special : c = '"' ∨ c = '\\'
      · have protectEq : protect (c :: value) = '\\' :: c :: protect value := by
          simp [protect, special]
        have resolved : resolveEscape? c = some c := by
          rcases special with rfl | rfl <;> rfl
        rw [protectEq, List.cons_append, List.cons_append,
          readQuoted_escape _ (by decide) resolved, ih]
        simp only [QuotedBody.prepend, List.singleton_append, List.length_cons]
        congr 1
        omega
      · have protectEq : protect (c :: value) = c :: protect value := by
          simp [protect, special]
        obtain ⟨notQuote, notBackslash⟩ := not_or.1 special
        rw [protectEq, List.cons_append, readQuoted_plain _ notQuote notBackslash, ih]
        simp only [QuotedBody.prepend, List.singleton_append, List.length_cons]
        congr 1
        omega

theorem scanString?_quote (value : String) (tail : List Char) :
    scanString? (quote value ++ tail) = some (.found (.string value) (quote value).length) := by
  have lengthEq : (quote value).length = (protect value.toList).length + 2 := by
    simp [quote]
  have textEq : quote value ++ tail = '"' :: (protect value.toList ++ '"' :: tail) := by
    simp [quote]
  rw [textEq, lengthEq]
  simp [scanString?, CharClass.isQuote, readQuoted_protect, QuotedBody.scan]

theorem scanTag_quote (value : String) (tail : List Char) :
    scanTag (quote value ++ tail) = .found (.string value) (quote value).length := by
  have stringEq := scanString?_quote value tail
  rw [quote, List.cons_append] at stringEq ⊢
  simp only [scanTag, stringEq]
  rfl

theorem scanExpression_quote (value : String) (tail : List Char) :
    scanExpression (quote value ++ tail) = .found (.string value) (quote value).length := by
  have stringEq := scanString?_quote value tail
  rw [quote, List.cons_append] at stringEq ⊢
  simp only [scanExpression, scanExpressionLiteral, stringEq]
  rfl

end Strings

section Markup

variable {tail : List Char}

theorem scanMarkup_less {c : Char} (notBang : c ≠ '!') :
    scanMarkup ('<' :: c :: tail) = .mark .less := by
  unfold scanMarkup
  split <;> grind

theorem scanMarkup_leftBrace (single : '{' ∉ tail.head?) :
    scanMarkup ('{' :: tail) = .mark .leftBrace := by
  unfold scanMarkup
  split <;> grind

/-- A pattern that is not at the head of a text and not inside a part of it is not inside
the two together. -/
theorem not_infix_cons {pattern body rest : List Char} {c : Char}
    (notHere : ¬pattern <+: c :: (body ++ rest)) (within : ¬pattern <:+: body) :
    ¬pattern <:+: c :: body := by
  intro inside
  rcases List.infix_cons_iff.1 inside with begins | later
  · exact notHere (begins.trans (List.prefix_append (c :: body) rest))
  · exact within later

theorem splitAtFirst?_comment {body : List Char} (noEnd : ¬['-', '-', '>'] <:+: body) :
    Text.splitAtFirst? ['-', '-', '>'] (body ++ '-' :: '-' :: '>' :: tail) =
      some (body, '-' :: '-' :: '>' :: tail) := by
  induction body with
  | nil => rfl
  | cons c body ih =>
      have noEndThen : ¬['-', '-', '>'] <:+: body := fun isInfix =>
        noEnd (isInfix.trans (List.suffix_cons c body).isInfix)
      have notHere :
          Text.startsWith ['-', '-', '>'] (c :: (body ++ '-' :: '-' :: '>' :: tail)) = false := by
        refine Bool.eq_false_iff.2 fun starts => noEnd ?_
        obtain ⟨rest, textEq⟩ := startsWith_iff.1 starts
        match body, textEq with
        | [], textEq => simp at textEq
        | [d], textEq => simp at textEq
        | d :: e :: body, textEq =>
            simp only [List.cons_append, List.cons.injEq] at textEq
            obtain ⟨rfl, rfl, rfl, -⟩ := textEq
            exact (List.prefix_append ['-', '-', '>'] body).isInfix
      rw [List.cons_append, Text.splitAtFirst?, notHere, ih noEndThen]
      rfl

theorem scanMarkup_comment {body : List Char} (noEnd : ¬['-', '-', '>'] <:+: body)
    (tail : List Char) :
    scanMarkup (['<', '!', '-', '-'] ++ (body ++ '-' :: '-' :: '>' :: tail)) =
      .found (.comment (String.ofList body)) (body.length + 7) := by
  simp only [List.cons_append, List.nil_append, scanMarkup, scanMarkupComment,
    splitAtFirst?_comment noEnd]

theorem scanMarkup_plain {c : Char} {text : List Char}
    (plain : c ∉ ['<', '>', '{', '}', '@', '&']) :
    scanMarkup (c :: text) =
      if CharClass.isMarkupSpace c then
        .found (.whitespace (String.ofList (whitespaceRun (c :: text))))
          (whitespaceRun (c :: text)).length
      else
        .found (.text (String.ofList ((c :: text).takeWhile fun c => !CharClass.isTextBoundary c)))
          ((c :: text).takeWhile fun c => !CharClass.isTextBoundary c).length := by
  simp only [List.mem_cons, List.not_mem_nil, or_false, not_or] at plain
  unfold scanMarkup
  split <;> simp_all

end Markup

section FrontMatter

/-- Whether a source is taken to begin with front matter. -/
def opensMatter (text : List Char) : Bool :=
  beginsWithDelimiterLine text && 3 < text.length

theorem scanFrontMatter_none {text : List Char} (noMatter : opensMatter text = false) :
    scanFrontMatter true text = .found (.frontMatter "") 0 := by
  simp only [opensMatter] at noMatter
  simp [scanFrontMatter, noMatter]

/-- Two delimiter lines, one behind the other. -/
def emptyMatter : List Char :=
  "---\n---\n".toList

theorem scanFrontMatter_empty (text : List Char) :
    scanFrontMatter true (emptyMatter ++ text) = .found (.frontMatter "") 8 :=
  rfl

end FrontMatter

end Lex

/-- A name in a tag that is read as one. -/
def IsPlainName (name : String) : Prop :=
  Lex.IsTagName name.toList ∧ Lex.booleanWord? name.toList = none

namespace Lex

theorem isName_of_name? {isStart isPart : Char → Bool} {text word : List Char}
    (found : name? isStart isPart text = some word) : IsName isStart isPart word := by
  cases text with
  | nil => contradiction
  | cons c text =>
      simp only [name?, Option.ite_none_right_eq_some, Option.some.injEq] at found
      obtain ⟨start, rfl⟩ := found
      refine ⟨c, _, rfl, start, List.all_eq_true.2 fun d member => ?_⟩
      exact List.mem_takeWhile_imp member

theorem eq_of_wordKind {word : List Char} {name : String}
    (kindEq : wordKind word = .identifier name) :
    word = name.toList ∧ booleanWord? word = none := by
  unfold wordKind at kindEq
  split at kindEq
  · contradiction
  · next notBoolean =>
      obtain rfl := TokenKind.identifier.inj kindEq
      exact ⟨String.toList_ofList.symm, notBoolean⟩

/-- What is read as an identifier in a tag is a name. -/
theorem isPlainName_of_scanTag {text : List Char} {name : String} {length : Nat}
    (scanned : scanTag text = .ok (some ⟨.identifier name, length⟩)) : IsPlainName name := by
  cases text with
  | nil => simp [scanTag] at scanned
  | cons c text =>
      simp only [scanTag] at scanned
      split at scanned
      · simp [Scan.found] at scanned
      · split at scanned
        · simp [Scan.mark, Scan.found] at scanned
        · split at scanned
          · next word found =>
              simp only [Scan.found, Except.ok.injEq, Option.some.injEq, Lexeme.mk.injEq]
                at scanned
              obtain ⟨rfl, notBoolean⟩ := eq_of_wordKind scanned.1
              exact ⟨isName_of_name? found, notBoolean⟩
          · split at scanned
            · next scan tried =>
                simp only [scanString?, Option.ite_none_right_eq_some, Option.some.injEq] at tried
                obtain ⟨-, rfl⟩ := tried
                cases body : readQuoted c text <;>
                  simp [body, QuotedBody.scan, Scan.found, Scan.unterminated] at scanned
            · split at scanned
              · simp [Scan.found] at scanned
              · contradiction

theorem stops_of_name? {isStart isPart : Char → Bool} {text word : List Char}
    (found : name? isStart isPart text = some word) : Stops isPart (text.drop word.length) := by
  cases text with
  | nil => contradiction
  | cons c text =>
      simp only [name?, Option.ite_none_right_eq_some, Option.some.injEq] at found
      obtain ⟨-, rfl⟩ := found
      rw [List.length_cons, List.drop_succ_cons,
        drop_length_eq List.takeWhile_append_dropWhile.symm]
      exact stops_dropWhile isPart text

/-- Literals and marks are no names. -/
theorem not_identifier_of_scanExpressionLiteral {c : Char} {text : List Char} {name : String}
    {length : Nat} : scanExpressionLiteral c text ≠ .ok (some ⟨.identifier name, length⟩) := by
  have mark : scanExpressionMark c text ≠ .ok (some ⟨.identifier name, length⟩) := by
    unfold scanExpressionMark
    split
    · simp [Scan.mark, Scan.found]
    · split <;> simp [Scan.mark, Scan.found, Scan.unexpected]
  unfold scanExpressionLiteral
  split
  · next scan tried =>
      simp only [scanTemplate?, Option.ite_none_right_eq_some, Option.some.injEq] at tried
      obtain ⟨-, rfl⟩ := tried
      cases readTemplate 0 text <;> simp [QuotedBody.scan, Scan.found, Scan.unterminated]
  · split
    · next scan tried =>
        simp only [scanString?, Option.ite_none_right_eq_some, Option.some.injEq] at tried
        obtain ⟨-, rfl⟩ := tried
        cases readQuoted c text <;> simp [QuotedBody.scan, Scan.found, Scan.unterminated]
    · split
      · split
        · simp [Scan.found]
        · exact mark
      · exact mark

/-- What is read as an identifier in an expression is a name, and the name ends there. -/
theorem isVariableName_of_scanExpression {text : List Char} {name : String} {length : Nat}
    (scanned : scanExpression text = .ok (some ⟨.identifier name, length⟩)) :
    IsVariableName name.toList ∧ booleanWord? name.toList = none ∧
      Stops CharClass.isVariablePart (text.drop name.toList.length) := by
  cases text with
  | nil => cases scanned
  | cons c text =>
      simp only [scanExpression] at scanned
      split at scanned
      · simp [Scan.found] at scanned
      · split at scanned
        · simp [Scan.found] at scanned
        · split at scanned
          · next word found =>
              simp only [Scan.found, Except.ok.injEq, Option.some.injEq, Lexeme.mk.injEq]
                at scanned
              obtain ⟨rfl, notBoolean⟩ := eq_of_wordKind scanned.1
              exact ⟨isName_of_name? found, notBoolean, stops_of_name? found⟩
          · exact (not_identifier_of_scanExpressionLiteral scanned).elim

end Lex

end TemplateCompiler
