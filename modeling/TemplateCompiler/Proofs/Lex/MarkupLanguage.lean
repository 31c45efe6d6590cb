import TemplateCompiler.Proofs.Lex.Progress
import TemplateCompiler.Proofs.Lex.Recognition
import TemplateCompiler.Proofs.Source.Lines
import Mathlib.Data.List.Chain

/-!
# The language of markup tokens

A text can be read as markup just if each comment in it is closed and each ampersand
outside comments begins a complete entity.  Here this is said about the text alone, by the
places outside of its comments.  Every token takes its reader from one such place to
another, past complete constructs only; so the tokens spell the text, or the first
construct that is not complete is reported.
-/

namespace TemplateCompiler

namespace Lex

variable {c : Char} {text body read piece rest : List Char}

section Language

def commentOpening : List Char :=
  ['<', '!', '-', '-']

def commentClosing : List Char :=
  ['-', '-', '>']

/-- Reading a text up to a place outside of its comments.  A comment goes from its opening
to the first closing behind it. -/
inductive Outside : (text read rest : List Char) → Prop
  | here (text : List Char) : Outside text [] text
  | step {c : Char} {text read rest : List Char} (notComment : ¬commentOpening <+: c :: text)
      (later : Outside text read rest) : Outside (c :: text) (c :: read) rest
  | comment {body text read rest : List Char} (within : ¬commentClosing <:+: body)
      (later : Outside text read rest) :
      Outside (commentOpening ++ (body ++ (commentClosing ++ text)))
        (commentOpening ++ (body ++ (commentClosing ++ read))) rest

/-- Whether a comment that opens at the head of a text is closed, and an ampersand there is
followed by the name or the number of an entity and by a semicolon. -/
structure IsComplete (text : List Char) : Prop where
  comment : ∀ behind, text = commentOpening ++ behind → commentClosing <:+: behind
  entity : ∀ behind, text = '&' :: behind → ∃ name rest, behind = name ++ ';' :: rest ∧
    name ≠ [] ∧ ∀ c ∈ name, CharClass.isEntityPart c = true

/-- Whether all comments of a text are closed and all entities outside of them complete. -/
def IsMarkup (text : List Char) : Prop :=
  ∀ read rest, Outside text read rest → IsComplete rest

/-- A run of the characters of a class, which goes no farther. -/
structure IsRun (member : Char → Bool) (run rest : List Char) : Prop where
  inside : ∀ c ∈ run, member c = true
  stops : Stops member rest

end Language

section Passing

theorem Outside.text_eq (outside : Outside text read rest) : text = read ++ rest := by
  induction outside with
  | here => rfl
  | step _ _ ih => rw [ih, List.cons_append]
  | comment _ _ ih => rw [ih]; simp

theorem Outside.trans {middle more : List Char} (first : Outside text read middle)
    (second : Outside middle more rest) : Outside text (read ++ more) rest := by
  induction first with
  | here => exact second
  | step notComment _ ih => exact .step notComment (ih second)
  | comment within _ ih => simpa using Outside.comment within (ih second)

theorem isComplete_of_ne (notLess : c ≠ '<') (notAmpersand : c ≠ '&') :
    IsComplete (c :: text) where
  comment _ textEq := absurd (List.cons.inj textEq).1 notLess
  entity _ textEq := absurd (List.cons.inj textEq).1 notAmpersand

theorem not_comment_of_ne (notLess : c ≠ '<') : ¬commentOpening <+: c :: text := by
  rintro ⟨tail, textEq⟩
  exact notLess (List.cons.inj textEq).1.symm

/-- The end of a comment is the first closing behind its opening, so there is just one. -/
theorem comment_unique {other otherText : List Char} (within : ¬commentClosing <:+: body)
    (otherWithin : ¬commentClosing <:+: other)
    (textEq : body ++ (commentClosing ++ text) = other ++ (commentClosing ++ otherText)) :
    body = other ∧ text = otherText := by
  have split : Text.splitAtFirst? commentClosing (body ++ (commentClosing ++ text)) =
    some (body, commentClosing ++ text) := splitAtFirst?_comment within
  rw [textEq] at split
  have same := split.symm.trans (splitAtFirst?_comment otherWithin)
  obtain ⟨bodyEq, behindEq⟩ := Prod.mk.inj (Option.some.inj same)
  exact ⟨bodyEq, List.append_cancel_left (behindEq : _ = commentClosing ++ otherText)⟩

/-- A part of a text leads from one place outside of its comments to another.  The places
between them, and the first one, are complete, and every place behind it is a place behind
the part. -/
structure Passes (text piece rest : List Char) : Prop where
  outside : Outside text piece rest
  through : ∀ earlier behind, Outside text earlier behind →
    (earlier.length < piece.length ∧ IsComplete behind) ∨
      ∃ more, earlier = piece ++ more ∧ Outside rest more behind

namespace Passes

theorem refl (text : List Char) : Passes text [] text :=
  ⟨.here text, fun earlier _ outside => .inr ⟨earlier, rfl, outside⟩⟩

theorem trans {middle more : List Char} (first : Passes text piece middle)
    (second : Passes middle more rest) : Passes text (piece ++ more) rest where
  outside := first.outside.trans second.outside
  through earlier behind outside := by
    rw [List.length_append]
    obtain ⟨shorter, complete⟩ | ⟨later, rfl, outsideThen⟩ := first.through _ _ outside
    · exact .inl ⟨Nat.lt_add_right _ shorter, complete⟩
    obtain ⟨shorter, complete⟩ | ⟨last, rfl, outsideLast⟩ := second.through _ _ outsideThen
    · refine .inl ⟨?_, complete⟩
      rw [List.length_append]
      exact Nat.add_lt_add_left shorter _
    · exact .inr ⟨last, (List.append_assoc ..).symm, outsideLast⟩

theorem single (notComment : ¬commentOpening <+: c :: text) (complete : IsComplete (c :: text)) :
    Passes (c :: text) [c] text where
  outside := .step notComment (.here text)
  through earlier behind outside := by
    generalize textEq : c :: text = whole at outside
    cases outside with
    | here => exact .inl ⟨Nat.zero_lt_one, textEq ▸ complete⟩
    | step _ later =>
        obtain ⟨rfl, rfl⟩ := List.cons.inj textEq
        exact .inr ⟨_, rfl, later⟩
    | comment _ _ => exact absurd ⟨_, textEq.symm⟩ notComment

theorem run (plain : ∀ c ∈ piece, c ≠ '<' ∧ c ≠ '&') : Passes (piece ++ rest) piece rest := by
  induction piece with
  | nil => exact refl rest
  | cons c piece ih =>
      obtain ⟨notLess, notAmpersand⟩ := plain c List.mem_cons_self
      exact (single (not_comment_of_ne notLess) (isComplete_of_ne notLess notAmpersand)).trans
        (ih fun d member => plain d (List.mem_cons_of_mem c member))

theorem comment (within : ¬commentClosing <:+: body) :
    Passes (commentOpening ++ (body ++ (commentClosing ++ text)))
      (commentOpening ++ (body ++ commentClosing)) text where
  outside := by simpa using Outside.comment within (.here text)
  through earlier behind outside := by
    generalize textEq : commentOpening ++ (body ++ (commentClosing ++ text)) = whole at outside
    cases outside with
    | here =>
        subst textEq
        refine .inl ⟨Nat.succ_pos _,
          ⟨fun behind sameText => ?_, fun _ sameText => nomatch sameText⟩⟩
        rw [← List.append_cancel_left sameText]
        exact ⟨body, text, List.append_assoc ..⟩
    | step notComment _ => exact absurd ⟨_, textEq⟩ notComment
    | comment otherWithin later =>
        obtain ⟨rfl, rfl⟩ :=
          comment_unique within otherWithin (List.append_cancel_left textEq)
        exact .inr ⟨_, by simp, later⟩

theorem text_eq (passes : Passes text piece rest) : text = piece ++ rest :=
  passes.outside.text_eq

end Passes

theorem isMarkup_nil : IsMarkup [] := by
  intro read rest outside
  obtain ⟨rfl, rfl⟩ := List.append_eq_nil_iff.1 outside.text_eq.symm
  exact ⟨fun _ same => (nomatch same), fun _ same => (nomatch same)⟩

end Passing

section Tokens

/-- How the kinds of tokens that markup has are written. -/
def markupSpelling? : TokenKind → Option (List Char)
  | .whitespace content | .text content | .entity content => some content.toList
  | .comment content => some (commentOpening ++ (content.toList ++ commentClosing))
  | .interpolationStart => some ['{', '{']
  | .punctuation .less => some ['<']
  | .punctuation .greater => some ['>']
  | .punctuation .leftBrace => some ['{']
  | .punctuation .rightBrace => some ['}']
  | .punctuation .at => some ['@']
  | _ => none

/-- A character of the runs of text in markup. -/
def isPlain (c : Char) : Bool :=
  !CharClass.isTextBoundary c

/-- The class of the characters of a token, if it is a run of them. -/
def runClass? : TokenKind → Option (Char → Bool)
  | .whitespace _ => some CharClass.isMarkupSpace
  | .text _ => some isPlain
  | _ => none

/-- A token at the head of a text: its spelling is taken, which leads over complete
constructs only, and a run is taken whole. -/
structure MarkupToken (kind : TokenKind) (text piece rest : List Char) : Prop where
  found : scanMarkup text = .found kind piece.length
  spelling : markupSpelling? kind = some piece
  nonempty : piece ≠ []
  passes : Passes text piece rest
  run : ∀ member ∈ runClass? kind, IsRun member piece rest

section Entities

variable {name : List Char}

end Entities

end Tokens

end Lex

/-- Whether a token is a run of text in markup. -/
def TokenKind.isText : TokenKind → Bool
  | .text _ => true
  | _ => false

namespace Lexer

open TemplateCompiler.Lex

variable {lexer : Lexer} {text : List Char} {tokens : List Token}

/-- How the tokens of markup are written one behind the other. -/
def markupText? : List Token → Option (List Char)
  | [] => some []
  | token :: later => do
      let piece ← markupSpelling? token.kind
      let behind ← markupText? later
      return piece ++ behind

/-- Two tokens are not parts of one run. -/
def Separate (first second : Token) : Prop :=
  (first.kind.isWhitespace && second.kind.isWhitespace) = false ∧
    (first.kind.isText && second.kind.isText) = false

/-- A text is read as tokens, one behind the other. -/
inductive ReadAs : (text : List Char) → (tokens : List Token) → Prop
  | nil : ReadAs [] []
  | cons {text piece rest : List Char} {token : Token} {later : List Token}
      (isToken : MarkupToken token.kind text piece rest) (others : ReadAs rest later) :
      ReadAs text (token :: later)

theorem runClass?_of_isWhitespace {kind : TokenKind} (isSpace : kind.isWhitespace = true) :
    runClass? kind = some CharClass.isMarkupSpace := by
  cases kind <;> first | rfl | contradiction

theorem runClass?_of_isText {kind : TokenKind} (isText : kind.isText = true) :
    runClass? kind = some isPlain := by
  cases kind <;> first | rfl | contradiction

/-- A run is not followed by a run of the same class. -/
theorem runClass?_ne {first second : TokenKind} {text piece rest otherPiece behind : List Char}
    (isFirst : MarkupToken first text piece rest)
    (isSecond : MarkupToken second rest otherPiece behind) {member : Char → Bool}
    (isRun : runClass? first = some member) : runClass? second ≠ some member := by
  intro sameClass
  obtain ⟨c, more, pieceEq⟩ := List.exists_cons_of_ne_nil isSecond.nonempty
  have inside := (isSecond.run member sameClass).inside c (pieceEq ▸ List.mem_cons_self)
  have outside := (isFirst.run member isRun).stops c (by rw [isSecond.passes.text_eq, pieceEq]; rfl)
  rw [inside] at outside
  cases outside

theorem separate_of_markupToken {first second : Token} {piece rest otherPiece behind : List Char}
    (isFirst : MarkupToken first.kind text piece rest)
    (isSecond : MarkupToken second.kind rest otherPiece behind) : Separate first second := by
  have differ {member : Char → Bool} : runClass? first.kind = some member →
      runClass? second.kind ≠ some member := runClass?_ne isFirst isSecond
  constructor
  · refine Bool.eq_false_iff.2 fun both => ?_
    obtain ⟨isSpace, otherSpace⟩ := Bool.and_eq_true_iff.1 both
    exact differ (runClass?_of_isWhitespace isSpace) (runClass?_of_isWhitespace otherSpace)
  · refine Bool.eq_false_iff.2 fun both => ?_
    obtain ⟨isText, otherText⟩ := Bool.and_eq_true_iff.1 both
    exact differ (runClass?_of_isText isText) (runClass?_of_isText otherText)

namespace ReadAs

theorem spelling (reads : ReadAs text tokens) : markupText? tokens = some text := by
  induction reads with
  | nil => rfl
  | cons isToken _ ih =>
      rw [markupText?, isToken.spelling, ih, isToken.passes.text_eq]
      rfl

theorem separate (reads : ReadAs text tokens) : tokens.IsChain Separate := by
  induction reads with
  | nil => exact .nil
  | cons isToken others ih =>
      refine ih.cons fun next isNext => ?_
      cases others with
      | nil => cases isNext
      | cons isOther _ =>
          obtain rfl := Option.some.inj isNext
          exact separate_of_markupToken isToken isOther

theorem plain (reads : ReadAs text tokens) : ∀ token ∈ tokens, ∀ content,
    token.kind = .text content →
      content ≠ "" ∧ ∀ c ∈ content.toList, CharClass.isTextBoundary c = false := by
  induction reads with
  | nil => exact fun _ member => nomatch member
  | @cons text piece rest token later isToken _ ih =>
      intro other member content isText
      rcases List.mem_cons.1 member with rfl | isLater
      · have spelled := isToken.spelling
        have isRun := isToken.run
        rw [isText] at spelled isRun
        obtain rfl : content.toList = piece := Option.some.inj spelled
        refine ⟨?_, fun c inside => ?_⟩
        · rintro rfl
          exact isToken.nonempty rfl
        · simpa [isPlain] using (isRun isPlain rfl).inside c inside
      · exact ih other isLater content isText

end ReadAs

end Lexer

end TemplateCompiler
