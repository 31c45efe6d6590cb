import TemplateCompiler.Proofs.Lex.Recognition
import TemplateCompiler.Proofs.Lex.Simulation

/-!
# Where script code ends

Script code is read character by character, and what is read so far decides whether it
ends.  Here the characters are told apart without a scan: a text is divided into plain
code, strings that are closed and comments that are closed, so that every division leaves
a place in code.  Code ends at the first such place before the closing tag or a brace
pair, or inside a comment before the closing tag; the scan takes all that stands before
it.
-/

namespace TemplateCompiler

namespace Lex

variable {c quote : Char} {text body read rest : List Char}

section Lengths

theorem codeLength_of_endsCode (ends : endsCode text = true) : codeLength .code text = 0 := by
  cases text with
  | nil => rfl
  | cons c text => simp [codeLength.eq_def, ends]

theorem codeLength_of_closesScript {place : ScriptPlace}
    (comment : place = .lineComment ∨ place = .blockComment) (closes : closesScript text = true) :
    codeLength place text = 0 := by
  cases text with
  | nil => cases place <;> rfl
  | cons c text => rcases comment with rfl | rfl <;> simp [codeLength.eq_def, closes]

theorem codeLength_lineOpening (notEnds : ¬endsCode ('/' :: '/' :: text) = true) :
    codeLength .code ('/' :: '/' :: text) = 2 + codeLength .lineComment text := by
  rw [codeLength.eq_def]
  simp only [if_neg notEnds, if_true]

theorem codeLength_blockOpening (notEnds : ¬endsCode ('/' :: '*' :: text) = true) :
    codeLength .code ('/' :: '*' :: text) = 2 + codeLength .blockComment text := by
  rw [codeLength.eq_def]
  simp only [if_neg notEnds, if_true]

theorem codeLength_blockClosing (notCloses : ¬closesScript ('*' :: '/' :: text) = true) :
    codeLength .blockComment ('*' :: '/' :: text) = 2 + codeLength .code text := by
  rw [codeLength.eq_def]
  simp only [if_neg notCloses, if_true]

theorem codeLength_code (notLine : ∀ rest, c :: text ≠ '/' :: '/' :: rest)
    (notBlock : ∀ rest, c :: text ≠ '/' :: '*' :: rest) (notEnds : ¬endsCode (c :: text) = true) :
    codeLength .code (c :: text) =
      1 + codeLength (if CharClass.isQuote c then .quoted c false else .code) text := by
  rw [codeLength.eq_def]
  simp only [if_neg notEnds]
  split
  · next isSlash =>
      subst isSlash
      split
      · exact (notLine _ rfl).elim
      · exact (notBlock _ rfl).elim
      · rfl
  · split <;> rfl

theorem codeLength_lineComment (notCloses : ¬closesScript (c :: text) = true) :
    codeLength .lineComment (c :: text) =
      1 + codeLength (if c = '\n' then .code else .lineComment) text := by
  rw [codeLength.eq_def]
  simp only [if_neg notCloses]
  split <;> rfl

theorem codeLength_blockComment (notCloses : ¬closesScript (c :: text) = true)
    (notEnd : ∀ rest, c :: text ≠ '*' :: '/' :: rest) :
    codeLength .blockComment (c :: text) = 1 + codeLength .blockComment text := by
  rw [codeLength.eq_def]
  simp only [if_neg notCloses]
  split
  · next isStar =>
      subst isStar
      split
      · exact (notEnd _ rfl).elim
      · rfl
  · rfl

theorem codeLength_quoted (quote : Char) (escaped : Bool) (c : Char) (text : List Char) :
    codeLength (.quoted quote escaped) (c :: text) =
      1 + codeLength (ScriptPlace.afterQuoted quote escaped c) text := by
  rw [codeLength.eq_def]

end Lengths

/-- What ends script code at the head of a text, if anything does. -/
def terminator? (text : List Char) : Option TokenKind :=
  if closesScript text then some .scriptEnd
  else if Text.startsWith ['{', '{'] text then some .interpolationStart
  else if Text.startsWith ['}', '}'] text then some .interpolationEnd
  else none

theorem isSome_terminator? (text : List Char) : (terminator? text).isSome = endsCode text := by
  unfold terminator? endsCode
  cases closesScript text <;> cases Text.startsWith ['{', '{'] text <;>
    cases Text.startsWith ['}', '}'] text <;> rfl

theorem terminator?_eq_scriptEnd :
    terminator? text = some .scriptEnd ↔ closesScript text = true := by
  unfold terminator?
  cases closesScript text <;> cases Text.startsWith ['{', '{'] text <;>
    cases Text.startsWith ['}', '}'] text <;> simp

theorem head?_of_closesScript (closes : closesScript text = true) : text.head? ≠ some '/' := by
  cases text with
  | nil => exact nofun
  | cons c text =>
      rintro head
      obtain rfl : c = '/' := Option.some.inj head
      cases closes

section Strings

/-- Whether a character that no backslash protects is the last one of a string. -/
def EndsString (quote c : Char) : Prop :=
  c = quote ∨ (c = '\n' ∧ quote ≠ '\x60')

/-- A part of a string that does not reach its end: a backslash protects the character
behind it. -/
inductive StaysQuoted (quote : Char) : List Char → Prop
  | nil : StaysQuoted quote []
  | plain {c : Char} {inner : List Char} (notEscape : c ≠ '\\') (goesOn : ¬EndsString quote c)
      (later : StaysQuoted quote inner) : StaysQuoted quote (c :: inner)
  | shielded {inner : List Char} (c : Char) (later : StaysQuoted quote inner) :
      StaysQuoted quote ('\\' :: c :: inner)

theorem codeLength_plain (notEscape : c ≠ '\\') (goesOn : ¬EndsString quote c) (text : List Char) :
    codeLength (.quoted quote false) (c :: text) = 1 + codeLength (.quoted quote false) text := by
  have stays : ScriptPlace.afterQuoted quote false c = .quoted quote false := by
    simpa [ScriptPlace.afterQuoted, notEscape, EndsString] using goesOn
  rw [codeLength_quoted, stays]

theorem codeLength_shielded (quote c : Char) (text : List Char) :
    codeLength (.quoted quote false) ('\\' :: c :: text) =
      2 + codeLength (.quoted quote false) text := by
  have shields : ScriptPlace.afterQuoted quote false '\\' = .quoted quote true := rfl
  have shielded : ScriptPlace.afterQuoted quote true c = .quoted quote false := rfl
  rw [codeLength_quoted, shields, codeLength_quoted, shielded, ← Nat.add_assoc]

theorem codeLength_stringEnd (isQuote : CharClass.isQuote quote = true)
    (ends : EndsString quote c) (text : List Char) :
    codeLength (.quoted quote false) (c :: text) = 1 + codeLength .code text := by
  have notEscape : c ≠ '\\' := by
    rintro rfl
    rcases ends with rfl | ⟨isFeed, -⟩
    · cases isQuote
    · cases isFeed
  have leaves : ScriptPlace.afterQuoted quote false c = .code := by
    simpa [ScriptPlace.afterQuoted, notEscape, EndsString, or_iff_not_imp_left] using ends
  rw [codeLength_quoted, leaves]

theorem StaysQuoted.codeLength_append {inner : List Char} (stays : StaysQuoted quote inner)
    (text : List Char) : codeLength (.quoted quote false) (inner ++ text) =
      inner.length + codeLength (.quoted quote false) text := by
  induction stays with
  | nil => simp
  | plain notEscape goesOn later ih =>
      rw [List.cons_append, codeLength_plain notEscape goesOn, ih, List.length_cons]
      omega
  | shielded c later ih =>
      rw [List.cons_append, List.cons_append, codeLength_shielded, ih, List.length_cons,
        List.length_cons]
      omega

/-- A string is closed, or it takes what is left of the text. -/
theorem string_cases (quote : Char) : (text : List Char) →
    (∃ inner c rest, StaysQuoted quote inner ∧ EndsString quote c ∧ text = inner ++ c :: rest) ∨
      codeLength (.quoted quote false) text = text.length
  | [] => .inr rfl
  | c :: text => by
      by_cases ends : EndsString quote c
      · exact .inl ⟨[], c, text, .nil, ends, rfl⟩
      by_cases isEscape : c = '\\'
      · subst isEscape
        match text with
        | [] => exact .inr (codeLength_quoted _ _ _ _)
        | d :: text =>
            obtain ⟨inner, e, rest, stays, closes, rfl⟩ | runsOut := string_cases quote text
            · exact .inl ⟨_, e, rest, .shielded d stays, closes, rfl⟩
            · right
              rw [codeLength_shielded, runsOut, List.length_cons, List.length_cons, Nat.add_comm]
      · obtain ⟨inner, d, rest, stays, closes, rfl⟩ | runsOut := string_cases quote text
        · exact .inl ⟨_, d, rest, .plain isEscape ends stays, closes, rfl⟩
        · right
          rw [codeLength_plain isEscape ends, runsOut, List.length_cons, Nat.add_comm]

end Strings

section Comments

/-- The two kinds of comments in scripts. -/
inductive ScriptComment where
  | line
  | block

namespace ScriptComment

def opening : ScriptComment → List Char
  | line => ['/', '/']
  | block => ['/', '*']

def closing : ScriptComment → List Char
  | line => ['\n']
  | block => ['*', '/']

def place : ScriptComment → ScriptPlace
  | line => .lineComment
  | block => .blockComment

variable (kind : ScriptComment)

theorem codeLength_opening (text : List Char) :
    codeLength .code (kind.opening ++ text) =
      kind.opening.length + codeLength kind.place text := by
  cases kind with
  | line => exact codeLength_lineOpening Bool.false_ne_true
  | block => exact codeLength_blockOpening Bool.false_ne_true

theorem codeLength_of_closes (closes : closesScript text = true) :
    codeLength kind.place text = 0 :=
  codeLength_of_closesScript (by cases kind <;> simp [place]) closes

theorem not_closesScript_closing (text : List Char) :
    ¬closesScript (kind.closing ++ text) = true := by
  cases kind <;> exact Bool.false_ne_true

theorem codeLength_closing (text : List Char) :
    codeLength kind.place (kind.closing ++ text) =
      kind.closing.length + codeLength .code text := by
  have notCloses := kind.not_closesScript_closing text
  cases kind with
  | line => exact codeLength_lineComment notCloses
  | block => exact codeLength_blockClosing notCloses

theorem codeLength_body (notCloses : ¬closesScript (c :: text) = true)
    (goesOn : ¬kind.closing <+: c :: text) :
    codeLength kind.place (c :: text) = 1 + codeLength kind.place text := by
  cases kind with
  | line =>
      have notFeed : c ≠ '\n' := by
        rintro rfl
        exact goesOn ⟨text, rfl⟩
      rw [place, codeLength_lineComment notCloses, if_neg notFeed]
  | block => exact codeLength_blockComment notCloses fun rest same => goesOn ⟨rest, same.symm⟩

/-- The end of a comment does not begin inside the comment, unless a slash stands behind
it. -/
theorem not_closing_prefix (within : ¬kind.closing <:+: c :: body)
    (noSlash : rest.head? ≠ some '/') : ¬kind.closing <+: c :: (body ++ rest) := by
  rintro ⟨tail, same⟩
  cases kind with
  | line =>
      obtain ⟨rfl, -⟩ := List.cons.inj same
      exact within ⟨[], body, rfl⟩
  | block =>
      obtain ⟨rfl, behind⟩ := List.cons.inj same
      cases body with
      | nil => exact noSlash (by rw [← List.nil_append rest, ← behind]; rfl)
      | cons d body =>
          obtain ⟨rfl, -⟩ := List.cons.inj behind
          exact within ⟨[], body, rfl⟩

/-- A scan inside a comment gets no farther than the comment and what it reads behind. -/
theorem codeLength_append_le (within : ¬kind.closing <:+: body)
    (noSlash : rest.head? ≠ some '/') :
    codeLength kind.place (body ++ rest) ≤ body.length + codeLength kind.place rest := by
  induction body with
  | nil => exact Nat.le_add_left _ _
  | cons c body ih =>
      rw [List.cons_append]
      by_cases closes : closesScript (c :: (body ++ rest)) = true
      · rw [kind.codeLength_of_closes closes]
        exact Nat.zero_le _
      · rw [kind.codeLength_body closes (kind.not_closing_prefix within noSlash), List.length_cons]
        have := ih fun inside => within (List.infix_cons inside)
        omega

/-- A comment is closed, or code ends inside it, or it takes what is left of the text. -/
theorem division (text : List Char) :
    (∃ body rest, ¬kind.closing <:+: body ∧ text = body ++ (kind.closing ++ rest) ∧
      codeLength kind.place text = (body ++ kind.closing).length + codeLength .code rest) ∨
    (∃ body rest, ¬kind.closing <:+: body ∧ text = body ++ rest ∧ closesScript rest = true ∧
      codeLength kind.place text = body.length) ∨
    codeLength kind.place text = text.length := by
  have nilWithin : ¬kind.closing <:+: [] := by cases kind <;> simp [closing]
  induction text with
  | nil => exact .inr (.inr (by cases kind <;> rfl))
  | cons c text ih =>
      by_cases closes : closesScript (c :: text) = true
      · exact .inr (.inl ⟨[], c :: text, nilWithin, rfl, closes, kind.codeLength_of_closes closes⟩)
      by_cases ends : kind.closing <+: c :: text
      · obtain ⟨rest, textEq⟩ := ends
        exact .inl ⟨[], rest, nilWithin, textEq.symm, textEq ▸ kind.codeLength_closing rest⟩
      have longer := kind.codeLength_body closes ends
      obtain ⟨body, rest, within, rfl, length⟩ | ⟨body, rest, within, rfl, stops, length⟩ |
        length := ih
      · refine .inl ⟨c :: body, rest, not_infix_cons ends within, rfl, ?_⟩
        rw [longer, length, List.cons_append, List.length_cons]
        omega
      · refine .inr (.inl ⟨c :: body, rest, not_infix_cons ends within, rfl, stops, ?_⟩)
        rw [longer, length, List.length_cons, Nat.add_comm]
      · exact .inr (.inr (by rw [longer, length, List.length_cons, Nat.add_comm]))

end ScriptComment

end Comments

/-- Reading a text up to a place in code.  What is read there is plain code, strings that
are closed and comments that are closed. -/
inductive InCode : (text read rest : List Char) → Prop
  | here (text : List Char) : InCode text [] text
  | plain {c : Char} {text read rest : List Char} (notQuote : CharClass.isQuote c = false)
      (notComment : ∀ kind : ScriptComment, ¬kind.opening <+: c :: text)
      (later : InCode text read rest) : InCode (c :: text) (c :: read) rest
  | string {quote c : Char} {inner text read rest : List Char}
      (isQuote : CharClass.isQuote quote = true) (stays : StaysQuoted quote inner)
      (ends : EndsString quote c) (later : InCode text read rest) :
      InCode (quote :: (inner ++ c :: text)) (quote :: (inner ++ c :: read)) rest
  | comment {body text read rest : List Char} (kind : ScriptComment)
      (within : ¬kind.closing <:+: body) (later : InCode text read rest) :
      InCode (kind.opening ++ (body ++ (kind.closing ++ text)))
        (kind.opening ++ (body ++ (kind.closing ++ read))) rest

/-- Reading a text up to a place in a comment that was opened in code and is not closed
yet. -/
def InComment (text read rest : List Char) : Prop :=
  ∃ (kind : ScriptComment) (before body : List Char),
    InCode text before (kind.opening ++ (body ++ rest)) ∧ ¬kind.closing <:+: body ∧
      read = before ++ (kind.opening ++ body)

/-- Whether script code ends behind a part of a text: in code before any of its ends, and
in a comment before the closing tag. -/
def EndsAt (text read rest : List Char) : Prop :=
  (InCode text read rest ∧ (terminator? rest).isSome = true) ∨
    (InComment text read rest ∧ terminator? rest = some .scriptEnd)

/-- Whether a part of a text is all the code at its head: it goes up to the first end, or
takes the text where there is none. -/
def IsCodeOf (text read rest : List Char) : Prop :=
  text = read ++ rest ∧
    ((EndsAt text read rest ∧
        ∀ earlier behind, EndsAt text earlier behind → read.length ≤ earlier.length) ∨
      (rest = [] ∧ ∀ earlier behind, ¬EndsAt text earlier behind))

namespace InCode

theorem text_eq (reads : InCode text read rest) : text = read ++ rest := by
  induction reads with
  | here => rfl
  | plain _ _ _ ih => rw [ih, List.cons_append]
  | string _ _ _ _ ih => rw [ih]; simp
  | comment _ _ _ ih => rw [ih]; simp

theorem trans {middle more : List Char} (first : InCode text read middle)
    (second : InCode middle more rest) : InCode text (read ++ more) rest := by
  induction first with
  | here => exact second
  | plain notQuote notComment _ ih => exact .plain notQuote notComment (ih second)
  | string isQuote stays ends _ ih => simpa using InCode.string isQuote stays ends (ih second)
  | comment kind within _ ih => simpa using InCode.comment kind within (ih second)

/-- Code that is read on behind a part of a text ends where it ends behind that part. -/
theorem endsAt {middle more : List Char} (first : InCode text read middle)
    (ends : EndsAt middle more rest) : EndsAt text (read ++ more) rest := by
  obtain ⟨inCode, isEnd⟩ | ⟨⟨kind, before, body, inCode, within, rfl⟩, isEnd⟩ := ends
  · exact .inl ⟨first.trans inCode, isEnd⟩
  · exact .inr ⟨⟨kind, read ++ before, body, first.trans inCode, within,
      (List.append_assoc ..).symm⟩, isEnd⟩

end InCode

section Lengths

theorem codeLength_codeStep (notQuote : CharClass.isQuote c = false)
    (notComment : ∀ kind : ScriptComment, ¬kind.opening <+: c :: text)
    (notEnds : ¬endsCode (c :: text) = true) :
    codeLength .code (c :: text) = 1 + codeLength .code text := by
  have notLine : ∀ rest, c :: text ≠ '/' :: '/' :: rest :=
    fun rest same => notComment .line ⟨rest, same.symm⟩
  have notBlock : ∀ rest, c :: text ≠ '/' :: '*' :: rest :=
    fun rest same => notComment .block ⟨rest, same.symm⟩
  rw [codeLength_code notLine notBlock notEnds, notQuote]
  rfl

theorem codeLength_opensString (isQuote : CharClass.isQuote quote = true) (text : List Char) :
    codeLength .code (quote :: text) = 1 + codeLength (.quoted quote false) text := by
  simp only [CharClass.isQuote, Bool.or_eq_true, beq_iff_eq] at isQuote
  rcases isQuote with (rfl | rfl) | rfl <;>
    exact codeLength_code (by simp) (by simp) Bool.false_ne_true

theorem codeLength_string {inner : List Char} (isQuote : CharClass.isQuote quote = true)
    (stays : StaysQuoted quote inner) (ends : EndsString quote c) (text : List Char) :
    codeLength .code (quote :: (inner ++ c :: text)) =
      (quote :: (inner ++ [c])).length + codeLength .code text := by
  rw [codeLength_opensString isQuote, stays.codeLength_append, codeLength_stringEnd isQuote ends]
  simp only [List.length_cons, List.length_append, List.length_nil]
  omega

/-- A scan gets no farther than a place in code and what it reads from there. -/
theorem InCode.codeLength_le (reads : InCode text read rest) :
    codeLength .code text ≤ read.length + codeLength .code rest := by
  induction reads with
  | here text => exact Nat.le_add_left _ _
  | @plain c text read rest notQuote notComment _ ih =>
      by_cases ends : endsCode (c :: text) = true
      · rw [codeLength_of_endsCode ends]
        exact Nat.zero_le _
      · rw [codeLength_codeStep notQuote notComment ends, List.length_cons]
        omega
  | string isQuote stays ends _ ih =>
      rw [codeLength_string isQuote stays ends]
      simp only [List.length_cons, List.length_append, List.length_nil]
      omega
  | @comment body text read rest kind within _ ih =>
      have noSlash : (kind.closing ++ text).head? ≠ some '/' := by
        cases kind <;> simp [ScriptComment.closing]
      have shorter := kind.codeLength_append_le within noSlash
      rw [kind.codeLength_closing] at shorter
      rw [kind.codeLength_opening]
      simp only [List.length_append]
      omega

theorem EndsAt.isSome (ends : EndsAt text read rest) : (terminator? rest).isSome = true := by
  obtain ⟨-, isEnd⟩ | ⟨-, isEnd⟩ := ends
  · exact isEnd
  · rw [isEnd, Option.isSome_some]

theorem EndsAt.text_eq (ends : EndsAt text read rest) : text = read ++ rest := by
  obtain ⟨inCode, -⟩ | ⟨⟨kind, before, body, inCode, -, rfl⟩, -⟩ := ends
  · exact inCode.text_eq
  · simpa using inCode.text_eq

/-- The code ends before something, so not at the end of the text. -/
theorem EndsAt.lt_length (ends : EndsAt text read rest) : read.length < text.length := by
  have isEnd := ends.isSome
  have nonempty : rest ≠ [] := by
    rintro rfl
    cases isEnd
  rw [ends.text_eq, List.length_append]
  exact Nat.lt_add_of_pos_right (List.length_pos_iff.2 nonempty)

/-- No end of the code stands before the place where a scan stops. -/
theorem EndsAt.codeLength_le (ends : EndsAt text read rest) :
    codeLength .code text ≤ read.length := by
  obtain ⟨inCode, isEnd⟩ | ⟨⟨kind, before, body, inCode, within, rfl⟩, isEnd⟩ := ends
  · have ended : codeLength .code rest = 0 :=
      codeLength_of_endsCode ((isSome_terminator? rest).symm.trans isEnd)
    have farther := inCode.codeLength_le
    rwa [ended] at farther
  · have closes := terminator?_eq_scriptEnd.1 isEnd
    have farther := inCode.codeLength_le
    have shorter := kind.codeLength_append_le within (head?_of_closesScript closes)
    rw [kind.codeLength_opening] at farther
    rw [kind.codeLength_of_closes closes] at shorter
    simp only [List.length_append]
    omega

/-- A scan of code stops at an end of the code or at the end of the text. -/
def StopsWell (text : List Char) : Prop :=
  ∃ read rest, text = read ++ rest ∧ codeLength .code text = read.length ∧
    (rest = [] ∨ EndsAt text read rest)

theorem StopsWell.of_length (length : codeLength .code text = text.length) : StopsWell text :=
  ⟨text, [], (List.append_nil text).symm, length, .inl rfl⟩

theorem StopsWell.behind (reads : InCode text read rest) (later : StopsWell rest)
    (length : codeLength .code text = read.length + codeLength .code rest) : StopsWell text := by
  obtain ⟨more, behind, rfl, moreLength, ends⟩ := later
  refine ⟨read ++ more, behind, ?_, ?_, ends.imp_right reads.endsAt⟩
  · rw [reads.text_eq, List.append_assoc]
  · rw [length, moreLength, List.length_append]

theorem stopsWell_comment (kind : ScriptComment)
    (later : ∀ rest : List Char, rest.length ≤ text.length → StopsWell rest) :
    StopsWell (kind.opening ++ text) := by
  have opens := kind.codeLength_opening text
  obtain ⟨body, rest, within, rfl, length⟩ | ⟨body, rest, within, rfl, closes, length⟩ | length :=
    kind.division text
  · have reads : InCode (kind.opening ++ (body ++ (kind.closing ++ rest)))
        (kind.opening ++ (body ++ (kind.closing ++ []))) rest := .comment kind within (.here _)
    have shorter : rest.length ≤ (body ++ (kind.closing ++ rest)).length := by
      simp only [List.length_append]
      omega
    refine .behind reads (later rest shorter) ?_
    rw [opens, length]
    simp only [List.length_append, List.length_nil]
    omega
  · refine ⟨kind.opening ++ body, rest, (List.append_assoc ..).symm, ?_,
      .inr (.inr ⟨⟨kind, [], body, .here _, within, rfl⟩, terminator?_eq_scriptEnd.2 closes⟩)⟩
    rw [opens, length, List.length_append]
  · exact .of_length (by rw [opens, length, List.length_append])

theorem stopsWell_string (isQuote : CharClass.isQuote quote = true)
    (later : ∀ rest : List Char, rest.length ≤ text.length → StopsWell rest) :
    StopsWell (quote :: text) := by
  obtain ⟨inner, c, rest, stays, ends, rfl⟩ | length := string_cases quote text
  · have reads : InCode (quote :: (inner ++ c :: rest)) (quote :: (inner ++ [c])) rest :=
      .string isQuote stays ends (.here _)
    refine .behind reads (later rest ?_) (codeLength_string isQuote stays ends rest)
    rw [List.length_append, List.length_cons]
    omega
  · refine .of_length ?_
    rw [codeLength_opensString isQuote, length, List.length_cons, Nat.add_comm]

theorem stopsWell : (text : List Char) → StopsWell text
  | [] => .of_length rfl
  | c :: text => by
      have later : ∀ rest : List Char, rest.length ≤ text.length → StopsWell rest :=
        fun rest _ => stopsWell rest
      by_cases ends : endsCode (c :: text) = true
      · exact ⟨[], c :: text, rfl, codeLength_of_endsCode ends,
          .inr (.inl ⟨.here _, (isSome_terminator? _).trans ends⟩)⟩
      by_cases isComment : ∃ kind : ScriptComment, kind.opening <+: c :: text
      · obtain ⟨kind, behind, textEq⟩ := isComment
        rw [← textEq]
        refine stopsWell_comment kind fun rest shorter => later rest (shorter.trans ?_)
        have lengths := congrArg List.length textEq
        cases kind <;> simp [ScriptComment.opening] at lengths <;> omega
      by_cases isQuote : CharClass.isQuote c = true
      · exact stopsWell_string isQuote later
      · have notQuote : CharClass.isQuote c = false := Bool.eq_false_iff.2 isQuote
        have notComment : ∀ kind : ScriptComment, ¬kind.opening <+: c :: text :=
          fun kind opens => isComment ⟨kind, opens⟩
        exact .behind (.plain notQuote notComment (.here text)) (later text le_rfl)
          (codeLength_codeStep notQuote notComment ends)
termination_by text => text.length
decreasing_by exact Nat.lt_succ_of_le ‹_›

/-- The scan takes all the code at the head of a text and nothing else. -/
theorem isCodeOf_codeLength (text : List Char) :
    IsCodeOf text (text.take (codeLength .code text)) (text.drop (codeLength .code text)) := by
  obtain ⟨read, rest, textEq, length, ends⟩ := stopsWell text
  have taken : text.take (codeLength .code text) = read := by
    rw [length, textEq, List.take_left]
  have dropped : text.drop (codeLength .code text) = rest := by
    rw [length, textEq, List.drop_left]
  rw [taken, dropped]
  refine ⟨textEq, ?_⟩
  by_cases ended : EndsAt text read rest
  · exact .inl ⟨ended, fun earlier behind isEnd => length ▸ isEnd.codeLength_le⟩
  · have isEmpty := ends.resolve_right ended
    refine .inr ⟨isEmpty, fun earlier behind isEnd => ?_⟩
    have notBefore := isEnd.codeLength_le
    rw [length, ← List.append_nil read, ← isEmpty, ← textEq] at notBefore
    exact absurd isEnd.lt_length (Nat.not_lt.2 notBefore)

end Lengths

example : codeLength .code "'\\'\x7b\x7b' /*/ \x7d\x7d */ b \x7b\x7b".toList = 19 := by
  decide +kernel

section Scans

theorem scanScript_of_code (nonempty : text ≠ []) (code : terminator? text = none) :
    scanScript text = .found (.scriptCode (String.ofList (text.take (codeLength .code text))))
      (codeLength .code text) := by
  have notEmpty : text.isEmpty = false := List.isEmpty_eq_false_iff.2 nonempty
  have notEnds : endsCode text = false := by rw [← isSome_terminator?, code, Option.isSome_none]
  simp only [endsCode, Bool.or_eq_false_iff] at notEnds
  obtain ⟨⟨notTag, notStart⟩, notStop⟩ := notEnds
  simp only [scanScript, notTag, notStart, notStop, notEmpty, Bool.false_eq_true, if_false]

theorem scanScript_of_terminator {kind : TokenKind} (ends : terminator? text = some kind) :
    ∃ length, scanScript text = .found kind length := by
  unfold terminator? at ends
  unfold scanScript
  split at ends
  · next isTag => exact ⟨9, by rw [if_pos isTag, Option.some.inj ends]⟩
  · next notTag =>
      rw [if_neg notTag]
      split at ends
      · next isStart => exact ⟨2, by rw [if_pos isStart, Option.some.inj ends]⟩
      · next notStart =>
          obtain ⟨isStop, sameKind⟩ := Option.ite_none_right_eq_some.1 ends
          exact ⟨2, by rw [if_neg notStart, if_pos isStop, Option.some.inj sameKind]⟩

end Scans

end Lex

namespace Lexer

open TemplateCompiler.Lex

variable {lexer : Lexer}

theorem scan_script {kind : TokenKind} {length : Nat} (inScript : lexer.mode = .script)
    (found : scanScript lexer.ahead.rest = .found kind length) :
    ∃ scanned after, scan lexer = .ok (some scanned) after ∧ scanned.token.kind = kind ∧
      after.mode = .script ∧ after.ahead.rest = lexer.ahead.rest.drop length := by
  have notMatter : lexer.mode ≠ .frontMatter := by
    rw [inScript]
    exact nofun
  have scanned := scan_eq notMatter
  rw [scannedAt_of_found (by rw [inScript]; exact found)] at scanned
  exact ⟨_, _, scanned, rfl, inScript, Cursor.advanceBy_rest _ _⟩

theorem scan_script_nil (inScript : lexer.mode = .script) (ended : lexer.ahead.rest = []) :
    scan lexer = .ok none lexer := by
  have notMatter : lexer.mode ≠ .frontMatter := by
    rw [inScript]
    exact nofun
  have scanned := scan_eq notMatter
  rwa [scannedAt_of_none (by rw [ended, inScript]; rfl)] at scanned

/-- In no mode a token of script code is empty. -/
theorem scriptCode_ne_empty {scanned : Scanned} {after : Lexer} {content : String}
    (found : scan lexer = .ok (some scanned) after)
    (isCode : scanned.token.kind = .scriptCode content) : content ≠ "" := by
  obtain ⟨-, ⟨lexeme, scannedAt, rfl⟩, -⟩ := scan_found found
  have kindEq : lexeme.kind = .scriptCode content := isCode
  by_cases inMatter : lexer.mode = .frontMatter
  · rw [inMatter] at scannedAt
    obtain ⟨matter, length, same⟩ := exists_of_scanFrontMatter scannedAt
    rw [Option.some.inj same] at kindEq
    cases kindEq
  · rw [scanAt_eq inMatter] at scannedAt
    have fits := fits_scanIn inMatter scannedAt
    have spelled := fits.spelled
    rw [kindEq] at spelled
    rintro rfl
    have taken := congrArg List.length (spelled : _ = [])
    rw [List.length_take, Nat.min_eq_left fits.within] at taken
    exact fits.positive.ne' taken

/-- A script is read up to the first end of its code, and what ends it is read next: the
terminators count just outside live strings and comments, the closing tag in comments too.
No token of script code is empty. -/
theorem scan_scriptCode (inScript : lexer.mode = .script) (nonempty : lexer.ahead.rest ≠ [])
    (code : terminator? lexer.ahead.rest = none) :
    (∃ read rest scanned after, IsCodeOf lexer.ahead.rest read rest ∧
      scan lexer = .ok (some scanned) after ∧
      scanned.token.kind = .scriptCode (String.ofList read) ∧ after.ahead.rest = rest ∧
      (rest = [] → scan after = .ok none after) ∧
      (rest ≠ [] → ∃ kind ending behind, terminator? rest = some kind ∧
        scan after = .ok (some ending) behind ∧ ending.token.kind = kind)) ∧
    ∀ other scanned after content, scan other = .ok (some scanned) after →
      scanned.token.kind = .scriptCode content → content ≠ "" := by
  refine ⟨?_, fun _ _ _ _ => scriptCode_ne_empty⟩
  have isCode := isCodeOf_codeLength lexer.ahead.rest
  obtain ⟨scanned, after, found, kindEq, stillScript, restEq⟩ :=
    scan_script inScript (scanScript_of_code nonempty code)
  rw [← restEq] at isCode
  refine ⟨_, _, scanned, after, isCode, found, kindEq, rfl, scan_script_nil stillScript, ?_⟩
  intro more
  have isEnd : (terminator? after.ahead.rest).isSome = true := by
    obtain ⟨-, ⟨ends, -⟩ | ⟨isEmpty, -⟩⟩ := isCode
    · exact ends.isSome
    · exact (more isEmpty).elim
  obtain ⟨kind, isKind⟩ := Option.isSome_iff_exists.1 isEnd
  obtain ⟨length, foundEnd⟩ := scanScript_of_terminator isKind
  obtain ⟨ending, behind, scannedEnd, endKind, -, -⟩ := scan_script stillScript foundEnd
  exact ⟨kind, ending, behind, isKind, scannedEnd, endKind⟩

/-- A lexer before a script with braces in a string and in a comment. -/
def bracesInString : Lexer :=
  (ofText "a = '\x7d\x7d' // \x7b\x7b\n</SCRIPT>".toList).pushMode .script

theorem scan_scriptCode_bracesInString :
    ∃ read rest scanned after, IsCodeOf bracesInString.ahead.rest read rest ∧
      scan bracesInString = .ok (some scanned) after ∧
      scanned.token.kind = .scriptCode (String.ofList read) ∧ after.ahead.rest = rest ∧
      (rest = [] → scan after = .ok none after) ∧
      (rest ≠ [] → ∃ kind ending behind, terminator? rest = some kind ∧
        scan after = .ok (some ending) behind ∧ ending.token.kind = kind) :=
  (scan_scriptCode rfl (by decide +kernel) (by decide +kernel)).1

end Lexer

end TemplateCompiler
