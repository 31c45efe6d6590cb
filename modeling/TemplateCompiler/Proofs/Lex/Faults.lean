import TemplateCompiler.Proofs.Lex.TemplateLiterals

/-!
# What lexical errors point at

A scanner reports an error where it starts to read: at the delimiter of a construct that
is never closed, the ampersand of an entity, the first dash of front matter, or the
character that begins no token.  Only a wrong escape is reported further on, at its
backslash, and between there and the quote of the literal everything can be read.

So every error stands at a character that is there, and only one that begins no token may
lie outside of ASCII.
-/

namespace TemplateCompiler

namespace Lex

/-- Why nothing can be read at the head of a text in a mode, and what is in front of the place
that tells so. -/
inductive BreaksAt : (mode : LexMode) → (text : List Char) → Cause → (before : List Char) → Prop
  | string {mode : LexMode} {quote : Char} (strings : mode ∈ [.tag, .style, .expression])
      (isQuote : quote ∈ quotes) (text : List Char) :
      BreaksAt mode (quote :: text) .unterminatedString []
  | stringEscape {mode : LexMode} {quote escape : Char} {body text : List Char}
      (resolved : mode ∈ [.tag, .expression]) (isQuote : quote ∈ quotes)
      (wrong : BeginsWithWrongEscape quote body escape text) :
      BreaksAt mode text (.invalidEscape escape) (quote :: body)
  | template (text : List Char) : BreaksAt .expression ('\x60' :: text) .unterminatedTemplate []
  | templateEscape {escape : Char} {body text : List Char}
      (wrong : BeginsWithWrongUnfolding body escape text) :
      BreaksAt .expression text (.invalidEscape escape) ('\x60' :: body)
  | comment (text : List Char) :
      BreaksAt .markup ('<' :: '!' :: '-' :: '-' :: text) .unterminatedComment []
  | styleComment (text : List Char) : BreaksAt .style ('/' :: '*' :: text) .unterminatedComment []
  | entity {body text : List Char} (begins : body <+: text) :
      BreaksAt .markup ('&' :: text) (.invalidEntity (String.ofList ('&' :: body))) []
  | frontMatter {text : List Char} (begins : delimiter <+: text) :
      BreaksAt .frontMatter text .unterminatedFrontMatter []
  | unexpected (mode : LexMode) (c : Char) (text : List Char) :
      BreaksAt mode (c :: text) (.unexpectedChar c mode) []

/-- Whether a fault in a text is reported at the place that tells its cause. -/
def Fault.IsAnchored (mode : LexMode) (text : List Char) (fault : Fault) : Prop :=
  ∃ before, BreaksAt mode text fault.cause before ∧ fault.anchor = before.length

/-- Whether a scan of a text finds something, or its fault is anchored. -/
def Scan.Anchors (mode : LexMode) (text : List Char) : Scan → Prop
  | .ok _ => True
  | .error fault => fault.IsAnchored mode text

variable {mode : LexMode} {c : Char} {text : List Char}

theorem BreaksAt.atHead {cause : Cause} (breaks : BreaksAt mode text cause []) (reached : Nat) :
    Fault.IsAnchored mode text ⟨cause, 0, reached⟩ :=
  ⟨[], breaks, rfl⟩

theorem anchors_unexpected (mode : LexMode) (c : Char) (text : List Char) :
    (Scan.unexpected c mode).Anchors mode (c :: text) :=
  (BreaksAt.unexpected mode c text).atHead 0

theorem anchors_scanString? {scan : Scan} (resolved : mode ∈ [LexMode.tag, .expression])
    (tried : scanString? text = some scan) : scan.Anchors mode text := by
  have strings : mode ∈ [LexMode.tag, .style, .expression] := by
    simp only [List.mem_cons, List.not_mem_nil, or_false] at resolved ⊢
    exact resolved.elim .inl fun last => .inr (.inr last)
  cases text with
  | nil => simp [scanString?] at tried
  | cons quote text =>
      have isQuote : quote ∈ quotes := by
        simp only [scanString?, Option.ite_none_right_eq_some] at tried
        exact isQuote_iff.1 tried.1
      obtain ⟨body, value, begins⟩ | ⟨body, escape, wrong⟩ | unclosed :=
        scanString?_division isQuote text
      · rw [begins.scanString?_eq isQuote] at tried
        obtain rfl := Option.some.inj tried
        trivial
      · rw [wrong.scanString?_eq isQuote] at tried
        obtain rfl := Option.some.inj tried
        exact ⟨quote :: body, .stringEscape resolved isQuote wrong, rfl⟩
      · rw [unclosed] at tried
        obtain rfl := Option.some.inj tried
        exact (BreaksAt.string strings isQuote text).atHead _

theorem anchors_scanProtectedString? {scan : Scan} (tried : scanProtectedString? text = some scan) :
    scan.Anchors .style text := by
  cases text with
  | nil => simp [scanProtectedString?] at tried
  | cons quote text =>
      simp only [scanProtectedString?, Option.ite_none_right_eq_some, Option.some.injEq] at tried
      obtain ⟨isQuote, rfl⟩ := tried
      have isQuote := isQuote_iff.1 isQuote
      obtain ⟨body, after, shielded, rfl⟩ | unclosed := readProtected_division quote text
      · rw [shielded.readProtected_closed (ne_backslash_of_mem_quotes isQuote)]
        trivial
      · rw [unclosed]
        exact (BreaksAt.string (by decide) isQuote text).atHead _

theorem anchors_scanTemplate? {scan : Scan} (tried : scanTemplate? text = some scan) :
    scan.Anchors .expression text := by
  cases text with
  | nil => simp [scanTemplate?] at tried
  | cons c text =>
      simp only [scanTemplate?, Option.ite_none_right_eq_some, Option.some.injEq] at tried
      obtain ⟨rfl, rfl⟩ := tried
      have ends := readTemplate_endsUnfolded 0 text
      cases read : readTemplate 0 text with
      | closed value length => trivial
      | badEscape escape before =>
          rw [read] at ends
          obtain ⟨body, value, after, unfolds, rfl, noEscape, rfl⟩ := ends
          refine ⟨'\x60' :: body, .templateEscape ⟨⟨value, unfolds⟩, ⟨after, ?_⟩,
            resolveEscape?_eq_none.1 noEscape⟩, rfl⟩
          simp
      | unclosed => exact (BreaksAt.template text).atHead _

theorem anchors_scanMarkupComment (text : List Char) :
    (scanMarkupComment text).Anchors .markup ('<' :: '!' :: '-' :: '-' :: text) := by
  unfold scanMarkupComment
  split
  · trivial
  · exact (BreaksAt.comment text).atHead _

theorem anchors_scanEntity (text : List Char) :
    (scanEntity text).Anchors .markup ('&' :: text) := by
  simp only [scanEntity]
  split
  · split
    · exact (BreaksAt.entity (List.nil_prefix (l := text))).atHead _
    · trivial
  · exact (BreaksAt.entity (List.takeWhile_prefix _)).atHead _

theorem anchors_scanMarkup (text : List Char) : (scanMarkup text).Anchors .markup text := by
  unfold scanMarkup
  split
  · trivial
  · exact anchors_scanMarkupComment _
  · trivial
  · exact anchors_scanEntity _
  · trivial
  · trivial
  · trivial
  · trivial
  · trivial
  · simp only
    split <;> trivial

theorem anchors_scanTag (text : List Char) : (scanTag text).Anchors .tag text := by
  unfold scanTag
  split
  · trivial
  · split
    · trivial
    · split
      · trivial
      · split
        · trivial
        · split
          · next scan tried => exact anchors_scanString? (by decide) tried
          · split
            · trivial
            · exact anchors_unexpected _ _ _

theorem anchors_scanExpressionMark (c : Char) (text : List Char) :
    (scanExpressionMark c text).Anchors .expression (c :: text) := by
  unfold scanExpressionMark
  split
  · trivial
  · split
    · trivial
    · exact anchors_unexpected _ _ _

theorem anchors_scanExpressionLiteral (c : Char) (text : List Char) :
    (scanExpressionLiteral c text).Anchors .expression (c :: text) := by
  unfold scanExpressionLiteral
  split
  · next scan tried => exact anchors_scanTemplate? tried
  · split
    · next scan tried => exact anchors_scanString? (by decide) tried
    · split
      · split
        · trivial
        · exact anchors_scanExpressionMark c text
      · exact anchors_scanExpressionMark c text

theorem anchors_scanExpression (text : List Char) :
    (scanExpression text).Anchors .expression text := by
  unfold scanExpression
  split
  · trivial
  · split
    · trivial
    · split
      · trivial
      · split
        · trivial
        · exact anchors_scanExpressionLiteral _ _

theorem anchors_scanStyleWord (c : Char) (text : List Char) :
    (scanStyleWord c text).Anchors .style (c :: text) := by
  unfold scanStyleWord
  split
  · unfold scanDimension
    split <;> trivial
  · split
    · trivial
    · split
      · trivial
      · exact anchors_unexpected _ _ _

theorem anchors_scanStyleComment (text : List Char) :
    (scanStyleComment text).Anchors .style ('/' :: '*' :: text) := by
  unfold scanStyleComment
  split
  · trivial
  · exact (BreaksAt.styleComment text).atHead _

theorem anchors_scanStyle (text : List Char) : (scanStyle text).Anchors .style text := by
  unfold scanStyle
  split
  · trivial
  · split
    · trivial
    · split
      · trivial
      · split
        · next starts =>
            obtain ⟨tail, textEq⟩ := startsWith_iff.1 starts
            obtain ⟨rfl, rfl⟩ := List.cons.inj textEq
            exact anchors_scanStyleComment _
        · split
          · next scan tried => exact anchors_scanProtectedString? tried
          · split
            · split
              · trivial
              · exact anchors_scanStyleWord _ _
            · exact anchors_scanStyleWord _ _

theorem anchors_scanScript (text : List Char) : (scanScript text).Anchors .script text := by
  unfold scanScript
  repeat' split
  all_goals trivial

theorem anchors_scanFrontMatter (atStart : Bool) (text : List Char) :
    (scanFrontMatter atStart text).Anchors .frontMatter text := by
  unfold scanFrontMatter
  split
  · next opens =>
      simp only
      split
      · trivial
      · simp only [Bool.and_eq_true, beginsWithDelimiterLine] at opens
        obtain ⟨tail, textEq⟩ := startsWith_iff.1 opens.1.2.1
        exact (BreaksAt.frontMatter ⟨tail, textEq.symm⟩).atHead _
  · trivial

/-- Whether a fault is reported at a character of a text, and at one of a single byte
unless no token begins with the character. -/
def Fault.IsMarked (text : List Char) (fault : Fault) : Prop :=
  ∃ before c after, text = before ++ c :: after ∧ fault.anchor = before.length ∧
    (c.utf8Size = 1 ∨ ∃ mode, fault.cause = .unexpectedChar c mode)

theorem utf8Size_of_mem_quotes {quote : Char} (isQuote : quote ∈ quotes) : quote.utf8Size = 1 := by
  simp only [quotes, List.mem_cons, List.not_mem_nil, or_false] at isQuote
  rcases isQuote with rfl | rfl | rfl <;> rfl

theorem BreaksAt.exists_character {cause : Cause} {before : List Char}
    (breaks : BreaksAt mode text cause before) :
    ∃ c after, text = before ++ c :: after ∧
      (c.utf8Size = 1 ∨ ∃ mode, cause = .unexpectedChar c mode) := by
  cases breaks with
  | string strings isQuote text =>
      exact ⟨_, text, rfl, .inl (utf8Size_of_mem_quotes isQuote)⟩
  | @stringEscape _ quote escape body _ resolved isQuote wrong =>
      obtain ⟨after, textEq⟩ := wrong.begins
      exact ⟨'\\', escape :: after, by simp [← textEq], .inl rfl⟩
  | template text => exact ⟨_, text, rfl, .inl rfl⟩
  | @templateEscape escape body _ wrong =>
      obtain ⟨after, textEq⟩ := wrong.begins
      exact ⟨'\\', escape :: after, by simp [← textEq], .inl rfl⟩
  | comment text => exact ⟨_, _, rfl, .inl rfl⟩
  | styleComment text => exact ⟨_, _, rfl, .inl rfl⟩
  | entity begins => exact ⟨_, _, rfl, .inl rfl⟩
  | frontMatter begins =>
      obtain ⟨after, rfl⟩ := begins
      exact ⟨'-', '-' :: '-' :: after, rfl, .inl rfl⟩
  | unexpected mode c text => exact ⟨c, text, rfl, .inr ⟨mode, rfl⟩⟩

theorem Fault.IsAnchored.isMarked {fault : Fault} (anchored : fault.IsAnchored mode text) :
    fault.IsMarked text := by
  obtain ⟨before, breaks, anchorEq⟩ := anchored
  obtain ⟨c, after, textEq, reason⟩ := breaks.exists_character
  exact ⟨before, c, after, textEq, anchorEq, reason⟩

end Lex

/-- Whatever the mode, a fault is reported at the place that tells its cause. -/
theorem Lexer.anchors_scanAt (mode : LexMode) (cursor : Cursor) :
    (Lexer.scanAt mode cursor).Anchors mode cursor.rest := by
  cases mode with
  | frontMatter => exact Lex.anchors_scanFrontMatter _ _
  | markup => exact Lex.anchors_scanMarkup _
  | tag => exact Lex.anchors_scanTag _
  | style => exact Lex.anchors_scanStyle _
  | script => exact Lex.anchors_scanScript _
  | expression => exact Lex.anchors_scanExpression _

end TemplateCompiler
