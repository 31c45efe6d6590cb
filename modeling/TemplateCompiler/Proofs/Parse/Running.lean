import TemplateCompiler.Proofs.Lex.Recognition
import TemplateCompiler.Proofs.Parse.Tokens

/-!
# How the productions run on what is written

What a production does is stated here for texts that are known: in a mode, it
reads a piece of text that some other text follows, succeeds, and gives a result
of a certain kind.  The bounds on repetition have to be no less than the number
of characters that are read.
-/

namespace TemplateCompiler

namespace Parser

open Parse

variable {α β : Type} {mode : LexMode} {piece tail : List Char}

/-- In a mode an action reads a piece of text that another text follows, and
gives a good result. -/
def Yields (action : Parser α) (mode : LexMode) (piece tail : List Char) (good : α → Prop) :
    Prop :=
  ∀ state : State, state.mode = mode → state.rest = piece ++ tail →
    Meets action state (fun result after => good result ∧ after = state.after piece)
      fun _ => False

namespace Yields

variable {good : α → Prop}

theorem pure {result : α} (isGood : good result) :
    Yields (Pure.pure result) mode [] tail good := by
  intro state modeEq restEq
  refine Meets.of_settled fun settledEq => Meets.pure ⟨isGood, ?_⟩
  rw [State.after_nil settledEq]

theorem bind {action : Parser α} {next : α → Parser β} {good : β → Prop} {middle : α → Prop}
    {first second : List Char} (yields : Yields action mode first (second ++ tail) middle)
    (yieldsThen : ∀ result, middle result → Yields (next result) mode second tail good) :
    Yields (action >>= next) mode (first ++ second) tail good := by
  intro state modeEq restEq
  rw [List.append_assoc] at restEq
  apply Meets.bind (yields state modeEq restEq)
  rintro result _ ⟨isGood, rfl⟩
  have restThen : (state.after first).rest = second ++ tail := by
    rw [State.rest_after, restEq, List.drop_left]
  have ran := yieldsThen result isGood (state.after first) modeEq restThen
  rwa [State.after_after] at ran

theorem mono {action : Parser α} {stronger : α → Prop}
    (yields : Yields action mode piece tail stronger)
    (weaken : ∀ result, stronger result → good result) : Yields action mode piece tail good :=
  fun state modeEq restEq => (yields state modeEq restEq).mono
    (fun result _ holds => ⟨weaken result holds.1, holds.2⟩) fun _ impossible => impossible

theorem peekKind {next : Option TokenKind → Parser α} {lexeme? : Option Lex.Lexeme}
    (scanned : Lex.scanIn mode (piece ++ tail) = .ok lexeme?)
    (yields : Yields (next (lexeme?.map (·.kind))) mode piece tail good) :
    Yields (Parser.peekKind >>= next) mode piece tail good := by
  intro state modeEq restEq
  rw [← restEq, ← modeEq] at scanned
  exact Meets.bind_runs (peekKind_runs scanned) (yields state modeEq restEq)

theorem nextIs {accepts : TokenKind → Bool} {next : Bool → Parser α}
    {lexeme? : Option Lex.Lexeme} (scanned : Lex.scanIn mode (piece ++ tail) = .ok lexeme?)
    (yields : Yields (next ((lexeme?.map (·.kind)).any accepts)) mode piece tail good) :
    Yields (Parser.nextIs accepts >>= next) mode piece tail good := by
  intro state modeEq restEq
  rw [← restEq, ← modeEq] at scanned
  exact Meets.bind_runs (nextIs_runs scanned accepts) (yields state modeEq restEq)

theorem discard {action : Parser α} {next : Unit → Parser β} {good : β → Prop}
    {middle : α → Prop} {first second : List Char}
    (yields : Yields action mode first (second ++ tail) middle)
    (yieldsThen : Yields (next ()) mode second tail good) :
    Yields (discard action >>= next) mode (first ++ second) tail good := by
  rw [discard_bind]
  exact bind yields fun _ _ => yieldsThen

end Yields

theorem Yields.map {action : Parser α} {build : α → β} {middle : α → Prop} {good : β → Prop}
    (yields : Yields action mode piece tail middle)
    (isGood : ∀ result, middle result → good (build result)) :
    Yields (action >>= fun result => Pure.pure (build result)) mode piece tail good := by
  have both : Yields (action >>= fun result => Pure.pure (build result)) mode (piece ++ []) tail
      good := Yields.bind yields fun result holds => Yields.pure (isGood result holds)
  rwa [List.append_nil] at both

/-- An action is followed by others of which less is known. -/
theorem Meets.bind_yields {action : Parser α} {next : α → Parser β} {before : State}
    {good : α → Prop} {post : β → State → Prop} {fail : Parse.Error → Prop}
    (yields : Yields action mode piece tail good) (modeEq : before.mode = mode)
    (restEq : before.rest = piece ++ tail)
    (second : ∀ result, good result → Meets (next result) (before.after piece) post fail) :
    Meets (action >>= next) before post fail := by
  apply Meets.bind ((yields before modeEq restEq).mono (fun _ _ same => same) fun _ => False.elim)
  rintro result _ ⟨isGood, rfl⟩
  exact second result isGood

/-- An action that is followed by others reads on behind what was taken. -/
theorem Meets.yielding {action : Parser α} {next : α → Parser β} {before : State}
    {good : α → Prop} {post : β → State → Prop} {fail : Parse.Error → Prop}
    {taken first behind : List Char} (modeEq : before.mode = mode)
    (restEq : before.rest = taken ++ (first ++ behind))
    (yields : Yields action mode first behind good)
    (later : ∀ result, good result →
      Meets (next result) (before.after (taken ++ first)) post fail) :
    Meets (action >>= next) (before.after taken) post fail := by
  have modeThen : (before.after taken).mode = mode := modeEq
  have restThen : (before.after taken).rest = first ++ behind := by
    rw [State.rest_after, restEq, List.drop_left]
  refine Meets.bind_yields yields modeThen restThen fun result isGood => ?_
  rw [State.after_after]
  exact later result isGood

/-- The token that the text ahead begins with is the next one. -/
theorem next_of_rest {state : State} {kind : TokenKind} (modeEq : state.mode = mode)
    (restEq : state.rest = piece ++ tail)
    (scanned : Lex.scanIn mode (piece ++ tail) = .ok (some ⟨kind, piece.length⟩)) :
    state.Next kind piece :=
  ⟨by rw [modeEq, restEq]; exact scanned, restEq ▸ List.prefix_append _ _⟩

theorem skip_yields {kind : TokenKind}
    (scanned : Lex.scanIn mode (piece ++ tail) = .ok (some ⟨kind, piece.length⟩)) :
    Yields skip mode piece tail fun _ => True := fun _ modeEq restEq =>
  Meets.of_runs (skip_runs (next_of_rest modeEq restEq scanned)) ⟨trivial, rfl⟩

theorem Yields.skip {next : Unit → Parser α} {good : α → Prop} {kind : TokenKind}
    {first rest : List Char}
    (scanned : Lex.scanIn mode (first ++ (rest ++ tail)) = .ok (some ⟨kind, first.length⟩))
    (yields : Yields (next ()) mode rest tail good) :
    Yields (Parser.skip >>= next) mode (first ++ rest) tail good :=
  Yields.bind (skip_yields scanned) fun _ _ => yields

theorem Yields.skip_pure {result : α} {good : α → Prop} {kind : TokenKind}
    (scanned : Lex.scanIn mode (piece ++ tail) = .ok (some ⟨kind, piece.length⟩))
    (isGood : good result) :
    Yields (Parser.skip >>= fun _ => Pure.pure result) mode piece tail good :=
  Yields.map (skip_yields scanned) fun _ _ => isGood

theorem expect_yields {what : String} {accepts : TokenKind → Bool} {kind : TokenKind}
    (scanned : Lex.scanIn mode (piece ++ tail) = .ok (some ⟨kind, piece.length⟩))
    (accepted : accepts kind = true) :
    Yields (expect what accepts) mode piece tail fun token => token.kind = kind := by
  intro state modeEq restEq
  have known := next_of_rest modeEq restEq scanned
  exact Meets.of_runs (expect_runs known accepted) ⟨rfl, rfl⟩

theorem expectMark_yields {what : String} {mark : Punctuation}
    (scanned : Lex.scanIn mode (piece ++ tail) = .ok (some ⟨.punctuation mark, piece.length⟩)) :
    Yields (expectMark what mark) mode piece tail fun _ => True :=
  (expect_yields scanned (by simp)).mono fun _ _ => trivial

theorem expectIdentifier_yields {what name : String}
    (scanned : Lex.scanIn mode (name.toList ++ tail) =
      .ok (some ⟨.identifier name, name.toList.length⟩)) :
    Yields (expectIdentifier what) mode name.toList tail fun named => named.1 = name := by
  intro state modeEq restEq
  have known := next_of_rest modeEq restEq scanned
  apply Meets.bind_runs (peek_runs known)
  exact Meets.bind_runs (skip_runs known) (Meets.pure ⟨rfl, rfl⟩)

section Runs

/-- The next token of a text, if there is one, is not of some kind. -/
def Refuses (mode : LexMode) (accepts : TokenKind → Bool) (text : List Char) : Prop :=
  ∃ lexeme?, Lex.scanIn mode text = .ok lexeme? ∧
    (lexeme?.map (·.kind)).any accepts = false

theorem Refuses.of_scanned {accepts : TokenKind → Bool} {text : List Char}
    {lexeme : Lex.Lexeme} (scanned : Lex.scanIn mode text = .ok (some lexeme))
    (refused : accepts lexeme.kind = false) : Refuses mode accepts text :=
  ⟨some lexeme, scanned, refused⟩

/-- A piece of text that consists of tokens of some kind, up to a token of
another kind or the end of the text. -/
inductive TokenRun (mode : LexMode) (accepts : TokenKind → Bool) :
    (piece tail : List Char) → Prop
  | stop {tail : List Char} (refuses : Refuses mode accepts tail) :
      TokenRun mode accepts [] tail
  | token {kind : TokenKind} {first rest tail : List Char} (nonempty : first ≠ [])
      (scanned : Lex.scanIn mode (first ++ (rest ++ tail)) = .ok (some ⟨kind, first.length⟩))
      (accepted : accepts kind = true) (later : TokenRun mode accepts rest tail) :
      TokenRun mode accepts (first ++ rest) tail

theorem nextIs_yields_false {accepts : TokenKind → Bool} {next : Bool → Parser α}
    {good : α → Prop} (refuses : Refuses mode accepts (piece ++ tail))
    (yields : Yields (next false) mode piece tail good) :
    Yields (nextIs accepts >>= next) mode piece tail good := by
  obtain ⟨lexeme?, scanned, refused⟩ := refuses
  apply Yields.nextIs scanned
  rwa [refused]

theorem nextIs_yields_true {accepts : TokenKind → Bool} {next : Bool → Parser α}
    {good : α → Prop} {lexeme : Lex.Lexeme}
    (scanned : Lex.scanIn mode (piece ++ tail) = .ok (some lexeme))
    (accepted : accepts lexeme.kind = true) (yields : Yields (next true) mode piece tail good) :
    Yields (nextIs accepts >>= next) mode piece tail good := by
  apply Yields.nextIs scanned
  rwa [Option.map_some, Option.any_some, accepted]

theorem skipWhile_yields {accepts : TokenKind → Bool} {bound : Nat}
    (run : TokenRun mode accepts piece tail) (enough : piece.length ≤ bound) :
    Yields (skipWhile accepts bound) mode piece tail fun _ => True := by
  induction run generalizing bound with
  | stop refuses =>
      cases bound with
      | zero => exact Yields.pure trivial
      | succ bound => exact nextIs_yields_false refuses (Yields.pure trivial)
  | token nonempty scanned accepted later ih =>
      have positive := List.length_pos_iff.2 nonempty
      rw [List.length_append] at enough
      cases bound with
      | zero => omega
      | succ bound =>
          apply nextIs_yields_true (by rw [List.append_assoc]; exact scanned) accepted
          exact Yields.skip scanned (ih (by omega))

/-- White space ends what it is no part of. -/
theorem stops_spaces {member : Char → Bool} {spaces text : List Char}
    (apart : ∀ c, CharClass.isMarkupSpace c = true → member c = false)
    (isSpaces : Text.IsSpaces spaces) (behind : spaces = [] → Lex.Stops member text) :
    Lex.Stops member (spaces ++ text) := by
  cases spaces with
  | nil => exact behind rfl
  | cons c spaces =>
      rintro _ ⟨⟩
      exact apart c (isSpaces c List.mem_cons_self)

/-- A mode in which white space separates other tokens. -/
def Separates (mode : LexMode) : Prop :=
  ∀ spaces tail, spaces ≠ [] → Text.IsSpaces spaces → Lex.Stops CharClass.isMarkupSpace tail →
    Lex.scanIn mode (spaces ++ tail) =
      .ok (some ⟨.whitespace (String.ofList spaces), spaces.length⟩)

theorem separates_tag : Separates .tag := fun _ _ => Lex.scanTag_spaces

theorem separates_expression : Separates .expression := fun _ _ => Lex.scanExpression_spaces

theorem Separates.stops (separates : Separates mode) {text : List Char}
    (refuses : Refuses mode TokenKind.isWhitespace text) :
    Lex.Stops CharClass.isMarkupSpace text := by
  obtain ⟨lexeme?, scanned, refused⟩ := refuses
  intro c head
  apply Bool.eq_false_iff.2
  intro space
  obtain ⟨rest, rfl⟩ : ∃ rest, text = c :: rest := by
    cases text with
    | nil => simp at head
    | cons d rest => exact ⟨rest, by simp_all⟩
  have run : (c :: rest).takeWhile CharClass.isMarkupSpace ≠ [] := by simp [space]
  have split := List.takeWhile_append_dropWhile (p := CharClass.isMarkupSpace) (l := c :: rest)
  have inside : Text.IsSpaces ((c :: rest).takeWhile CharClass.isMarkupSpace) :=
    fun d member => List.mem_takeWhile_imp member
  have stops := Lex.stops_dropWhile CharClass.isMarkupSpace (c :: rest)
  have found := separates _ _ run inside stops
  rw [split, scanned] at found
  obtain rfl := Except.ok.inj found
  simp [TokenKind.isWhitespace] at refused

theorem skipWhitespace_yields {bound : Nat} (separates : Separates mode)
    (isSpaces : Text.IsSpaces piece) (refuses : Refuses mode TokenKind.isWhitespace tail)
    (enough : piece.length ≤ bound) :
    Yields (skipWhitespace bound) mode piece tail fun _ => True := by
  refine skipWhile_yields ?_ enough
  by_cases empty : piece = []
  · subst empty
    exact .stop refuses
  · have scanned := separates piece tail empty isSpaces (separates.stops refuses)
    have run : TokenRun mode TokenKind.isWhitespace (piece ++ []) tail :=
      .token empty scanned rfl (.stop refuses)
    rwa [List.append_nil] at run

theorem Yields.spaces {next : Unit → Parser α} {good : α → Prop} {spaces : List Char}
    {bound : Nat} (separates : Separates mode) (isSpaces : Text.IsSpaces spaces)
    (refuses : Refuses mode TokenKind.isWhitespace (piece ++ tail))
    (enough : spaces.length ≤ bound) (yields : Yields (next ()) mode piece tail good) :
    Yields (skipWhitespace bound >>= next) mode (spaces ++ piece) tail good :=
  Yields.bind (skipWhitespace_yields separates isSpaces refuses enough) fun _ _ => yields

theorem Yields.no_spaces {next : Unit → Parser α} {good : α → Prop} {bound : Nat}
    (separates : Separates mode)
    (refuses : Refuses mode TokenKind.isWhitespace (piece ++ tail))
    (yields : Yields (next ()) mode piece tail good) :
    Yields (skipWhitespace bound >>= next) mode piece tail good :=
  Yields.spaces separates Text.isSpaces_nil refuses
    (Nat.zero_le _) yields

end Runs

end Parser

end TemplateCompiler
