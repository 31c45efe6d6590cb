import TemplateCompiler.Compile
import TemplateCompiler.Proofs.Lex.MatterLines
import TemplateCompiler.Proofs.Lex.Simulation
import TemplateCompiler.Proofs.Parse.Tiling

/-!
# Where front matter ends

The lexer, the parser and the listing of the tokens of a source read the same front
matter: what stands before the first line that closes it.  Behind that line the parser and
the listing go on with the same lexer.  Where the front matter lacks its end, they report
the same error, at the start of the source.
-/

namespace TemplateCompiler

open TemplateCompiler.Lex

variable {text content behind : List Char} {token : Token} {error : Lex.Error} {after : Lexer}

namespace Parse

/-- A step of the parser leaves the front matter as it is. -/
theorem Step.frontMatter_eq {before after : State} (step : Step before after) :
    after.document.frontMatter = before.document.frontMatter := by
  cases step with
  | leaf => exact congrArg (·.frontMatter) (State.document_add _ _).1
  | opened =>
      unfold State.intoContent
      split <;> rfl
  | @closed tag piece =>
      obtain ⟨lexer, outEq, -⟩ := State.outOfContent_eq tag (before.after piece)
      rw [outEq, (State.document_closeNode _).1]
      rfl
  | code => exact congrArg (·.frontMatter) (State.document_addCode _ _ _).1
  | loop => rfl
  | block => rfl
  | blockClosed => exact congrArg (·.frontMatter) (State.document_closeBlock _).1
  | declared => rfl

theorem Steps.frontMatter_eq {before after : State} (steps : Steps before after) :
    after.document.frontMatter = before.document.frontMatter := by
  induction steps with
  | refl => rfl
  | tail _ step ih => rw [step.frontMatter_eq, ih]

end Parse

/-- A template has the front matter that was scanned. -/
theorem Template.frontMatter_of_parse {text content : String} {template : Template}
    {length : Nat} (parsed : Template.parse text = .ok template)
    (scanned : scanFrontMatter true text.toList = .found (.frontMatter content) length) :
    template.document.frontMatter = content := by
  obtain ⟨other, otherLength, after, otherScanned, steps, -, -, rfl⟩ := Parser.parse_steps parsed
  have sameKind := congrArg Lexeme.kind
    (Option.some.inj (Except.ok.inj (scanned.symm.trans otherScanned)))
  obtain rfl : content = other := TokenKind.frontMatter.inj sameKind
  exact steps.frontMatter_eq

section Readers

/-- In its mode front matter is read once. -/
theorem Lexer.next_of_hasMatter (matter : HasMatter text content behind) :
    ∃ token after, next (beforeMatter text) = .ok (some token) after ∧
      token.kind = .frontMatter (String.ofList content) ∧ after.ahead.rest = behind ∧
      next after = .ok none after := by
  obtain ⟨length, scanned, rfl⟩ := matter.scanned
  exact ⟨_, _, next_beforeMatter scanned, rfl, Cursor.advanceBy_rest _ _, next_of_ended rfl rfl⟩

theorem Lexer.next_of_lacksEnd (lacksEnd : LacksEnd text) :
    ∃ after, next (beforeMatter text) =
      .error (.atMark .unterminatedFrontMatter .start) after :=
  next_beforeMatter_error (scanFrontMatter_of_lacksEnd lacksEnd)

theorem Parser.frontMatter_of_next {content : String}
    (took : Lexer.next (Lexer.beforeMatter text) = .ok (some token) after)
    (isMatter : token.kind = .frontMatter content) :
    ∃ state, Parser.frontMatter (.ofText text) = .ok () state ∧
      state.document.frontMatter = content ∧ state.lexer = after.popMode := by
  obtain ⟨kind, position⟩ := token
  obtain rfl : kind = .frontMatter content := isMatter
  simp only [frontMatter, pushMode, popMode, lexing, run_bind, run_modify]
  rw [show (Parse.State.ofText text).lexer.pushMode .frontMatter = Lexer.beforeMatter text from rfl,
    took]
  exact ⟨_, rfl, rfl, rfl⟩

theorem Parser.frontMatter_of_failed
    (failed : Lexer.next (Lexer.beforeMatter text) = .error error after) :
    ∃ state, Parser.frontMatter (.ofText text) = .error (.lexical error) state := by
  simp only [frontMatter, pushMode, popMode, lexing, run_bind, run_modify]
  rw [show (Parse.State.ofText text).lexer.pushMode .frontMatter = Lexer.beforeMatter text from rfl,
    failed]
  exact ⟨_, rfl⟩

theorem Template.parse_of_failed {text : String}
    (failed : Lexer.next (Lexer.beforeMatter text.toList) = .error error after) :
    Template.parse text = .error (.lexical error) := by
  obtain ⟨state, frontMatterFailed⟩ := Parser.frontMatter_of_failed failed
  have templateFailed : Parser.template (text.toList.length + 1) (.ofText text.toList) =
      .error (.lexical error) state := by
    rw [Parser.template, run_bind, frontMatterFailed]
  simp only [Template.parse, templateFailed]

namespace Source

variable {source : Source}

theorem lexFrontMatter_of_next
    (took : Lexer.next (Lexer.beforeMatter text) = .ok (some token) after) :
    lexFrontMatter (.ofText text) = .ok (some token) after.popMode := by
  simp only [lexFrontMatter, run_bind, run_modify]
  rw [show (Lexer.ofText text).pushMode .frontMatter = Lexer.beforeMatter text from rfl, took]
  rfl

theorem lexFrontMatter_of_failed
    (failed : Lexer.next (Lexer.beforeMatter text) = .error error after) :
    lexFrontMatter (.ofText text) = .error error after := by
  simp only [lexFrontMatter, run_bind, run_modify]
  rw [show (Lexer.ofText text).pushMode .frontMatter = Lexer.beforeMatter text from rfl, failed]

theorem lex_of_collected {others : List Token} {last : Lexer}
    (took : Lexer.next (Lexer.beforeMatter source.text.toList) = .ok (some token) after)
    (collected : Lexer.collect after.popMode = .ok others last) :
    source.lex = .ok (if token.kind = .frontMatter "" then others else token :: others) := by
  simp only [lex, run_bind, lexFrontMatter_of_next took, collected]
  rfl

theorem lex_of_stuck {last : Lexer}
    (took : Lexer.next (Lexer.beforeMatter source.text.toList) = .ok (some token) after)
    (stuck : Lexer.collect after.popMode = .error error last) :
    source.lex = .error error.diagnostic := by
  simp only [lex, run_bind, lexFrontMatter_of_next took, stuck]

theorem lex_of_failed
    (failed : Lexer.next (Lexer.beforeMatter source.text.toList) = .error error after) :
    source.lex = .error error.diagnostic := by
  simp only [lex, run_bind, lexFrontMatter_of_failed failed]

/-- What is made of the front matter of a source: the lexer gives one token for it and goes
on behind it, and so do the parser and the listing of the tokens. -/
structure ReadsMatter (source : Source) (content behind : List Char) (token : Token)
    (after : Lexer) : Prop where
  taken : Lexer.next (Lexer.beforeMatter source.text.toList) = .ok (some token) after
  kind : token.kind = .frontMatter (String.ofList content)
  goesOn : after.ahead.rest = behind
  once : Lexer.next after = .ok none after
  /-- The parser keeps the content and goes on with the lexer. -/
  parsed : ∃ state, state.document.frontMatter = String.ofList content ∧
    state.lexer = after.popMode ∧ ∀ bound, Parser.template bound (.ofText source.text.toList) =
      (do Parser.markup bound; Parser.expectNothingOpen : Parser Unit) state
  template : ∀ template, source.parse = .ok template →
    template.document.frontMatter = String.ofList content
  /-- The listing has the token, unless it is empty, and goes on with the same lexer. -/
  listed : ∀ others last, Lexer.collect after.popMode = .ok others last →
    source.lex = .ok (if content = [] then others else token :: others)
  stuck : ∀ error last, Lexer.collect after.popMode = .error error last →
    source.lex = .error error.diagnostic

/-- The lexer, the parser and the listing of the tokens fail alike. -/
structure RejectsMatter (source : Source) (error : Lex.Error) : Prop where
  failed : ∃ after, Lexer.next (Lexer.beforeMatter source.text.toList) = .error error after
  parsed : source.parse = .error error.diagnostic
  listed : source.lex = .error error.diagnostic

theorem parse_text_eq_ok {template : Template} (parsed : source.parse = .ok template) :
    Template.parse source.text = .ok template := by
  unfold parse at parsed
  cases ended : Template.parse source.text with
  | error error => rw [ended] at parsed; cases parsed
  | ok other =>
      rw [ended] at parsed
      cases parsed
      rfl

theorem exists_readsMatter (matter : HasMatter source.text.toList content behind) :
    ∃ token after, source.ReadsMatter content behind token after := by
  obtain ⟨token, after, taken, kind, goesOn, once⟩ := Lexer.next_of_hasMatter matter
  obtain ⟨state, frontMatterEq, contentEq, lexerEq⟩ := Parser.frontMatter_of_next taken kind
  obtain ⟨length, scanned, -⟩ := matter.scanned
  have isEmpty : token.kind = .frontMatter "" ↔ content = [] := by
    rw [kind, TokenKind.frontMatter.injEq, String.ofList_eq_empty_iff]
  refine ⟨token, after, taken, kind, goesOn, once, ⟨state, contentEq, lexerEq, fun bound => ?_⟩,
    fun template parsed => ?_, fun others last collected => ?_,
    fun error last => lex_of_stuck taken⟩
  · rw [Parser.template, run_bind, frontMatterEq]
  · exact Template.frontMatter_of_parse (parse_text_eq_ok parsed) scanned
  · rw [lex_of_collected taken collected]
    simp only [isEmpty]

theorem rejectsMatter (lacksEnd : LacksEnd source.text.toList) :
    source.RejectsMatter (.atMark .unterminatedFrontMatter .start) := by
  obtain ⟨after, failed⟩ := Lexer.next_of_lacksEnd lacksEnd
  refine ⟨⟨after, failed⟩, ?_, lex_of_failed failed⟩
  rw [parse, Template.parse_of_failed failed]
  rfl

/-- Front matter ends at the first line that closes it.  What stands before that line is the
content, what is behind it is left to be read, and every reader of the source agrees on
both.  Front matter that no line closes is rejected where it opens. -/
theorem reads_frontMatter (source : Source) :
    (∀ content behind, HasMatter source.text.toList content behind →
      ∃ token after, source.ReadsMatter content behind token after) ∧
    (LacksEnd source.text.toList →
      ∃ error, error.cause = .unterminatedFrontMatter ∧ error.position.offset = 0 ∧
        source.RejectsMatter error) ∧
    ((∃ content behind, HasMatter source.text.toList content behind) ∨
      LacksEnd source.text.toList) ∧
    ∀ lineEnd content body, (lineEnd = ['\n'] ∨ lineEnd = ['\r', '\n']) →
      (∀ c ∈ content, CharClass.isQuote c = false) → '\r' ∉ content →
      ¬HasLine content delimiter →
      source.text.toList = delimiter ++ (lineEnd ++ (content ++ (lineEnd ++
        (delimiter ++ (lineEnd ++ body))))) →
      ∃ token after, source.ReadsMatter content body token after := by
  refine ⟨fun content behind matter => exists_readsMatter matter,
    fun lacksEnd => ⟨_, rfl, rfl, rejectsMatter lacksEnd⟩, hasMatter_or_lacksEnd _, ?_⟩
  intro lineEnd content body isLineEnd noQuote noReturn noLine textEq
  have matter := hasMatter_of_content isLineEnd noQuote noReturn noLine body
  rw [← textEq] at matter
  exact exists_readsMatter matter

/-- A line of one character between the delimiters, and front matter without its end. -/
theorem reads_frontMatter_oneLine :
    (∃ token after,
      ReadsMatter ⟨"page", "---\r\na\r\n---\r\nb"⟩ ['a'] ['b'] token after) ∧
    ∃ error, error.cause = .unterminatedFrontMatter ∧ error.position.offset = 0 ∧
      RejectsMatter ⟨"page", "---\n"⟩ error := by
  have noQuote : ∀ c ∈ ['a'], CharClass.isQuote c = false := by simp [CharClass.isQuote]
  have noLine : ¬HasLine ['a'] delimiter := by
    rintro ⟨before, after, textEq, -⟩
    have lengthEq := congrArg List.length textEq
    simp only [List.length_append, delimiter, List.length_cons, List.length_nil] at lengthEq
    omega
  have lacksEnd : LacksEnd (⟨"page", "---\n"⟩ : Source).text.toList := by
    refine ⟨[], ⟨['\n'], rfl, by simp, not_splitsPair_delimiter _, fun splits => ?_⟩, ?_⟩
    · cases splits.1
    · intro block ending behind closes
      have lengthEq := congrArg List.length closes.divides
      simp only [List.length_append, delimiter, List.length_cons, List.length_nil] at lengthEq
      omega
  exact ⟨(reads_frontMatter ⟨"page", "---\r\na\r\n---\r\nb"⟩).2.2.2 ['\r', '\n'] ['a'] ['b']
      (.inr rfl) noQuote (by simp) noLine rfl,
    (reads_frontMatter ⟨"page", "---\n"⟩).2.1 lacksEnd⟩

end Source

end Readers

end TemplateCompiler
