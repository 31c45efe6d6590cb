import TemplateCompiler.Proofs.Lex.Lookahead
import TemplateCompiler.Proofs.Lex.Recognition
import TemplateCompiler.Proofs.Lex.Respelling

/-!
# String literals

What may stand between the quotes of a literal is told without a reader: characters other
than the quote and the backslash, each for itself, and pairs of a backslash and another
character.  Where pairs are resolved, a table says which of them there are and what they
stand for; where they are kept, every pair is one.

A reader goes through such a body and comes to what stands behind it, so a text divides at
the end of the longest body it begins with.  There the closing quote decides, or a backslash
that has no place in the table, or the text has run out.
-/

namespace TemplateCompiler

namespace Lex

/-- The characters that literals are quoted by. -/
def quotes : List Char :=
  ['"', '\'', '\x60']

theorem isQuote_iff {c : Char} : CharClass.isQuote c = true ↔ c ∈ quotes := by
  simp [CharClass.isQuote, quotes, or_assoc]

/-- The characters that may be written by their letters. -/
def letters : List (Char × Char) :=
  [('n', '\n'), ('r', '\r'), ('t', '\t')]

/-- What may stand behind a backslash, and which character the two stand for. -/
def escapes : List (Char × Char) :=
  ('\\', '\\') :: (quotes.map (fun c => (c, c)) ++ letters)

theorem resolveEscape?_eq_some {escape resolved : Char} :
    resolveEscape? escape = some resolved ↔ (escape, resolved) ∈ escapes := by
  unfold resolveEscape?
  split <;> simp_all [escapes, quotes, letters, eq_comm]

/-- What may stand between quotes, and what it is the writing of. -/
inductive Decodes (quote : Char) : (body value : List Char) → Prop
  | nil : Decodes quote [] []
  | plain {c : Char} {body value : List Char} (notQuote : c ≠ quote) (notEscape : c ≠ '\\')
      (later : Decodes quote body value) : Decodes quote (c :: body) (c :: value)
  | escaped {escape resolved : Char} {body value : List Char}
      (stands : (escape, resolved) ∈ escapes) (later : Decodes quote body value) :
      Decodes quote ('\\' :: escape :: body) (resolved :: value)

/-- Writing a value between quotes: a backslash is written before the quote and before each
backslash, and some other characters may be written by their letters. -/
inductive Encodes (quote : Char) : (value body : List Char) → Prop
  | nil : Encodes quote [] []
  | plain {c : Char} {value body : List Char} (notQuote : c ≠ quote) (notEscape : c ≠ '\\')
      (later : Encodes quote value body) : Encodes quote (c :: value) (c :: body)
  | shielded {c : Char} {value body : List Char} (special : c = quote ∨ c = '\\')
      (later : Encodes quote value body) : Encodes quote (c :: value) ('\\' :: c :: body)
  | lettered {letter c : Char} {value body : List Char} (stands : (letter, c) ∈ letters)
      (later : Encodes quote value body) : Encodes quote (c :: value) ('\\' :: letter :: body)

/-- What may stand between quotes where a backslash shields whatever comes next. -/
inductive Shielded (quote : Char) : (body : List Char) → Prop
  | nil : Shielded quote []
  | plain {c : Char} {body : List Char} (notQuote : c ≠ quote) (notEscape : c ≠ '\\')
      (later : Shielded quote body) : Shielded quote (c :: body)
  | pair {body : List Char} (c : Char) (later : Shielded quote body) :
      Shielded quote ('\\' :: c :: body)

/-- A body between its quotes. -/
def literal (quote : Char) (body : List Char) : List Char :=
  quote :: (body ++ [quote])

variable {quote c escape resolved : Char} {text tail body value after : List Char}

theorem Encodes.decodes (encodes : Encodes quote value body) (isQuote : quote ∈ quotes) :
    Decodes quote body value := by
  induction encodes with
  | nil => exact .nil
  | plain notQuote notEscape later ih => exact .plain notQuote notEscape ih
  | shielded special later ih =>
      refine .escaped ?_ ih
      rcases special with rfl | rfl
      · simp [escapes, isQuote]
      · simp [escapes]
  | lettered stands later ih => exact .escaped (by simp [escapes, stands]) ih

theorem Decodes.shielded (decodes : Decodes quote body value) : Shielded quote body := by
  induction decodes with
  | nil => exact .nil
  | plain notQuote notEscape later ih => exact .plain notQuote notEscape ih
  | escaped stands later ih => exact .pair _ ih

theorem ne_backslash_of_mem_quotes (isQuote : quote ∈ quotes) : quote ≠ '\\' := by
  rintro rfl
  revert isQuote
  decide

section Readers

theorem QuotedBody.prepend_nil (body : QuotedBody) : body.prepend [] 0 = body := by
  cases body <;> simp [prepend]

/-- A reader goes through a body and on with what stands behind it. -/
theorem Decodes.readQuoted_append (decodes : Decodes quote body value)
    (notBackslash : quote ≠ '\\') (tail : List Char) :
    readQuoted quote (body ++ tail) = (readQuoted quote tail).prepend value body.length := by
  induction decodes with
  | nil => exact (QuotedBody.prepend_nil _).symm
  | plain notQuote notEscape later ih =>
      rw [List.cons_append, readQuoted_plain _ notQuote notEscape, ih,
        QuotedBody.prepend_prepend, List.length_cons, Nat.add_comm 1]
      rfl
  | escaped stands later ih =>
      rw [List.cons_append, List.cons_append,
        readQuoted_escape _ notBackslash (resolveEscape?_eq_some.2 stands), ih,
        QuotedBody.prepend_prepend, List.length_cons, List.length_cons, Nat.add_comm 2]
      rfl

theorem readProtected_plain (notQuote : c ≠ quote) (notEscape : c ≠ '\\') (text : List Char) :
    readProtected quote (c :: text) = (readProtected quote text).prepend [c] 1 := by
  rw [readProtected.eq_def]
  simp [notQuote, notEscape]

theorem readProtected_pair (notBackslash : quote ≠ '\\') (c : Char) (text : List Char) :
    readProtected quote ('\\' :: c :: text) = (readProtected quote text).prepend ['\\', c] 2 := by
  rw [readProtected.eq_def]
  simp [notBackslash.symm]

theorem readProtected_closed (quote : Char) (text : List Char) :
    readProtected quote (quote :: text) = .closed [] 1 := by
  rw [readProtected.eq_def]
  simp

theorem Shielded.readProtected_append (shielded : Shielded quote body)
    (notBackslash : quote ≠ '\\') (tail : List Char) :
    readProtected quote (body ++ tail) = (readProtected quote tail).prepend body body.length := by
  induction shielded with
  | nil => exact (QuotedBody.prepend_nil _).symm
  | plain notQuote notEscape later ih =>
      rw [List.cons_append, readProtected_plain notQuote notEscape, ih,
        QuotedBody.prepend_prepend, List.length_cons, Nat.add_comm 1]
      rfl
  | pair c later ih =>
      rw [List.cons_append, List.cons_append, readProtected_pair notBackslash, ih,
        QuotedBody.prepend_prepend, List.length_cons, List.length_cons, Nat.add_comm 2]
      rfl

end Readers

section Divisions

theorem Decodes.readQuoted_closed (decodes : Decodes quote body value)
    (notBackslash : quote ≠ '\\') (after : List Char) :
    readQuoted quote (body ++ quote :: after) = .closed value (body.length + 1) := by
  rw [decodes.readQuoted_append notBackslash, Lex.readQuoted_closed, QuotedBody.prepend,
    List.append_nil]

theorem Decodes.readQuoted_wrong (decodes : Decodes quote body value)
    (notBackslash : quote ≠ '\\') (noEscape : resolveEscape? escape = none)
    (after : List Char) :
    readQuoted quote (body ++ '\\' :: escape :: after) = .badEscape escape body.length := by
  have wrong : readQuoted quote ('\\' :: escape :: after) = .badEscape escape 0 := by
    rw [readQuoted.eq_def]
    simp [notBackslash.symm, noEscape]
  rw [decodes.readQuoted_append notBackslash, wrong, QuotedBody.prepend, Nat.add_zero]

theorem Shielded.readProtected_closed (shielded : Shielded quote body)
    (notBackslash : quote ≠ '\\') (after : List Char) :
    readProtected quote (body ++ quote :: after) = .closed body (body.length + 1) := by
  rw [shielded.readProtected_append notBackslash, Lex.readProtected_closed, QuotedBody.prepend,
    List.append_nil]

/-- Behind the longest body at the head of a text stands the closing quote, or a backslash that
has no place in the table, or too little for a reader to go on with. -/
theorem readQuoted_division (notBackslash : quote ≠ '\\') (text : List Char) :
    (∃ body value after, Decodes quote body value ∧ text = body ++ quote :: after ∧
      readQuoted quote text = .closed value (body.length + 1)) ∨
    (∃ body value escape after, Decodes quote body value ∧ resolveEscape? escape = none ∧
      text = body ++ '\\' :: escape :: after ∧
      readQuoted quote text = .badEscape escape body.length) ∨
    readQuoted quote text = .unclosed := by
  suffices divides : ∃ body value tail, Decodes quote body value ∧ text = body ++ tail ∧
      ((∃ after, tail = quote :: after) ∨
        (∃ escape after, resolveEscape? escape = none ∧ tail = '\\' :: escape :: after) ∨
        readQuoted quote tail = .unclosed) by
    obtain ⟨body, value, tail, decodes, rfl, ⟨after, rfl⟩ | ⟨escape, after, noEscape, rfl⟩ |
      unclosed⟩ := divides
    · exact .inl ⟨body, value, after, decodes, rfl, decodes.readQuoted_closed notBackslash after⟩
    · exact .inr (.inl ⟨body, value, escape, after, decodes, noEscape, rfl,
        decodes.readQuoted_wrong notBackslash noEscape after⟩)
    · rw [decodes.readQuoted_append notBackslash, unclosed]
      exact .inr (.inr rfl)
  fun_induction readQuoted quote text with
  | case1 => exact ⟨[], [], [], .nil, rfl, .inr (.inr rfl)⟩
  | case2 text => exact ⟨[], [], _, .nil, rfl, .inl ⟨text, rfl⟩⟩
  | case3 notQuote =>
      exact ⟨[], [], _, .nil, rfl, .inr (.inr (by simp [readQuoted, notQuote]))⟩
  | case4 escape text resolved resolvedEq notQuote ih =>
      obtain ⟨body, value, tail, decodes, rfl, ends⟩ := ih
      exact ⟨_, _, tail, .escaped (resolveEscape?_eq_some.1 resolvedEq) decodes, rfl, ends⟩
  | case5 escape text noEscape notQuote =>
      exact ⟨[], [], _, .nil, rfl, .inr (.inl ⟨escape, text, noEscape, rfl⟩)⟩
  | case6 c text notQuote notEscape ih =>
      obtain ⟨body, value, tail, decodes, rfl, ends⟩ := ih
      exact ⟨_, _, tail, .plain notQuote notEscape decodes, rfl, ends⟩

/-- A body where every pair is kept ends at its closing quote, or the text runs out. -/
theorem readProtected_division (quote : Char) (text : List Char) :
    (∃ body after, Shielded quote body ∧ text = body ++ quote :: after) ∨
      readProtected quote text = .unclosed := by
  fun_induction readProtected quote text with
  | case1 => exact .inr rfl
  | case2 text => exact .inl ⟨[], text, .nil, rfl⟩
  | case3 => exact .inr rfl
  | case4 escape text notQuote ih =>
      obtain ⟨body, after, shielded, rfl⟩ | unclosed := ih
      · exact .inl ⟨_, after, .pair escape shielded, rfl⟩
      · exact .inr (by rw [unclosed]; rfl)
  | case5 c text notQuote notEscape ih =>
      obtain ⟨body, after, shielded, rfl⟩ | unclosed := ih
      · exact .inl ⟨_, after, .plain notQuote notEscape shielded, rfl⟩
      · exact .inr (by rw [unclosed]; rfl)

end Divisions

/-- Whether a text begins with a literal that has a body and its value, and with no shorter
one. -/
structure BeginsWithLiteral (quote : Char) (body value text : List Char) : Prop where
  decodes : Decodes quote body value
  begins : literal quote body <+: text
  shortest : ∀ other otherValue, Decodes quote other otherValue → literal quote other <+: text →
    (literal quote body).length ≤ (literal quote other).length

/-- Whether a text begins with a quote, a body without an end and a backslash that does not
stand for anything with the character behind it. -/
structure BeginsWithWrongEscape (quote : Char) (body : List Char) (escape : Char)
    (text : List Char) : Prop where
  decodes : ∃ value, Decodes quote body value
  begins : quote :: (body ++ ['\\', escape]) <+: text
  unknown : ∀ resolved, (escape, resolved) ∉ escapes

theorem resolveEscape?_eq_none :
    resolveEscape? escape = none ↔ ∀ resolved, (escape, resolved) ∉ escapes := by
  simp only [Option.eq_none_iff_forall_ne_some, Ne, resolveEscape?_eq_some]

theorem length_literal (quote : Char) (body : List Char) :
    (literal quote body).length = body.length + 2 := by
  simp [literal]

theorem literal_prefix : literal quote body <+: quote :: text ↔
    ∃ after, text = body ++ quote :: after := by
  simp [literal, List.prefix_iff_exists_eq_append]

theorem Decodes.beginsWithLiteral (decodes : Decodes quote body value)
    (notBackslash : quote ≠ '\\') (after : List Char) :
    BeginsWithLiteral quote body value (quote :: (body ++ quote :: after)) := by
  refine ⟨decodes, literal_prefix.2 ⟨after, rfl⟩, fun other otherValue otherDecodes begins => ?_⟩
  obtain ⟨otherAfter, textEq⟩ := literal_prefix.1 begins
  have read := decodes.readQuoted_closed notBackslash after
  rw [textEq, otherDecodes.readQuoted_closed notBackslash, QuotedBody.closed.injEq] at read
  rw [length_literal, length_literal]
  omega

theorem scanString?_of_isQuote (isQuote : quote ∈ quotes) (text : List Char) :
    scanString? (quote :: text) =
      some ((readQuoted quote text).scan .string .unterminatedString (quote :: text)) :=
  if_pos (isQuote_iff.2 isQuote)

theorem scanProtectedString?_of_isQuote (isQuote : quote ∈ quotes) (text : List Char) :
    scanProtectedString? (quote :: text) =
      some ((readProtected quote text).scan .string .unterminatedString (quote :: text)) :=
  if_pos (isQuote_iff.2 isQuote)

theorem BeginsWithLiteral.scanString?_eq (isQuote : quote ∈ quotes)
    (begins : BeginsWithLiteral quote body value (quote :: text)) :
    scanString? (quote :: text) =
      some (.found (.string (String.ofList value)) (literal quote body).length) := by
  have notBackslash := ne_backslash_of_mem_quotes isQuote
  obtain ⟨after, rfl⟩ := literal_prefix.1 begins.begins
  rw [scanString?_of_isQuote isQuote, begins.decodes.readQuoted_closed notBackslash,
    length_literal]
  rfl

theorem BeginsWithWrongEscape.scanString?_eq (isQuote : quote ∈ quotes)
    (begins : BeginsWithWrongEscape quote body escape (quote :: text)) :
    scanString? (quote :: text) =
      some (.error ⟨.invalidEscape escape, body.length + 1, body.length + 3⟩) := by
  have notBackslash := ne_backslash_of_mem_quotes isQuote
  obtain ⟨value, decodes⟩ := begins.decodes
  obtain ⟨after, textEq⟩ := begins.begins
  obtain rfl : text = body ++ '\\' :: escape :: after := by simpa using textEq.symm
  rw [scanString?_of_isQuote isQuote,
    decodes.readQuoted_wrong notBackslash (resolveEscape?_eq_none.2 begins.unknown)]
  rfl

/-- A text begins with a literal or with a wrong escape behind its quote, or the quote is not
closed. -/
theorem scanString?_division (isQuote : quote ∈ quotes) (text : List Char) :
    (∃ body value, BeginsWithLiteral quote body value (quote :: text)) ∨
    (∃ body escape, BeginsWithWrongEscape quote body escape (quote :: text)) ∨
    scanString? (quote :: text) = some (.unterminated .unterminatedString (quote :: text)) := by
  have notBackslash := ne_backslash_of_mem_quotes isQuote
  obtain ⟨body, value, after, decodes, rfl, -⟩ | ⟨body, value, escape, after, decodes, noEscape,
    rfl, -⟩ | unclosed := readQuoted_division notBackslash text
  · exact .inl ⟨body, value, decodes.beginsWithLiteral notBackslash after⟩
  · refine .inr (.inl ⟨body, escape, ⟨value, decodes⟩, ⟨after, ?_⟩,
      resolveEscape?_eq_none.1 noEscape⟩)
    simp
  · rw [scanString?_of_isQuote isQuote, unclosed]
    exact .inr (.inr rfl)

end Lex

namespace Lexer

/-- What a reader of literals comes to at a cursor: the token of the literal and the cursor
behind it, nothing where no literal begins, or an error. -/
def literalAt (scan? : List Char → Option Lex.Scan) (cursor : Cursor) :
    Except Lex.Error (Option Scanned) :=
  match scan? cursor.rest with
  | none => .ok none
  | some (.ok lexeme?) => .ok (lexeme?.map (scannedOf cursor))
  | some (.error fault) => .error (.atMark fault.cause (cursor.advanceBy fault.anchor).mark)

variable {cursor : Cursor} {quote : Char} {text : List Char}

theorem scannedAt_eq_literalAt {scan? : List Char → Option Lex.Scan} {scan : Lex.Scan}
    {mode : LexMode} (tried : scan? cursor.rest = some scan)
    (scanEq : Lex.scanIn mode cursor.rest = scan) :
    scannedAt mode cursor = literalAt scan? cursor := by
  rw [scannedAt, literalAt, scanEq, tried]
  cases scan <;> rfl

end Lexer

end TemplateCompiler
