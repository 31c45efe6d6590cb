import TemplateCompiler.Proofs.Eval.MatchedNodes
import TemplateCompiler.Proofs.Html.Layout
import TemplateCompiler.Proofs.Parse.Concatenation
import TemplateCompiler.Proofs.Eval.Refinement
import TemplateCompiler.Proofs.Eval.ShapedTemplates

/-!
# Sources one behind the other

What stands before a source shows in its output only as what it is by itself.
Front matter shows nowhere but in the places of diagnostics, which it moves by its
bytes and its lines.
-/

namespace TemplateCompiler

theorem Source.compile_of_error (source : Source) {error : Parse.Error}
    (parsed : Template.parse source.text = .error error) (data : Json)
    (settings : Html.Settings) : source.compile data settings = .error error.diagnostic := by
  rcases source.evaluate_cases data with ⟨other, parsedAs, refused⟩ | ⟨template, parsedAs, -⟩
  · rw [parsed] at parsedAs
    cases parsedAs
    rw [Source.compile, refused]
    rfl
  · rw [parsed] at parsedAs
    cases parsedAs

theorem Source.compile_of_ok (source : Source) {template : Template}
    (parsed : Template.parse source.text = .ok template) (data : Json)
    (settings : Html.Settings) :
    source.compile data settings =
      match template.expansion (.ofData data) with
      | .ok document => .ok ⟨document.render settings, template.document.frontMatter⟩
      | .error error => .error error.diagnostic := by
  rcases source.evaluate_cases data with ⟨error, parsedAs, -⟩ | ⟨other, parsedAs, found⟩
  · rw [parsed] at parsedAs
    cases parsedAs
  · rw [parsed] at parsedAs
    cases parsedAs
    rw [Source.compile, found, template.evaluate_eq]
    cases template.expansion (.ofData data) <;> rfl

section FrontMatter

/-- The same diagnostic in a text that follows some bytes and some whole lines. -/
theorem Parse.Error.diagnostic_shifted (bytes lines : Nat) (error : Parse.Error) :
    ∃ position, error.diagnostic.position = some position ∧
      (error.shifted bytes lines).diagnostic =
        { error.diagnostic with position := some (position.shifted bytes lines) } := by
  cases error with
  | lexical error => exact ⟨error.position, rfl, rfl⟩
  | grammatical cause position => exact ⟨position, rfl, rfl⟩

/-- A source with some more text before it. -/
def Source.behind (block : String) (source : Source) : Source :=
  { source with text := block ++ source.text }

/-- Behind front matter that ends with a line feed a source is compiled as it is by
itself.  If that fails, the diagnostic is the same one but for its place, which is
as many bytes and lines further on as the front matter has. -/
theorem Source.compile_behind_frontMatter {source : Source} {block matter : String}
    (isBlock : Lex.scanFrontMatter true block.toList =
      .ok (some ⟨.frontMatter matter, block.toList.length⟩))
    (ended : block.toList.getLast? = some '\n')
    (noMatter : Lex.beginsWithDelimiterLine source.text.toList = false) (data : Json)
    (settings : Html.Settings) :
    match source.compile data settings with
    | .ok compiled => compiled.frontMatter = "" ∧
        (source.behind block).compile data settings = .ok ⟨compiled.output, matter⟩
    | .error diagnostic => ∃ position, diagnostic.position = some position ∧
        (source.behind block).compile data settings = .error
          { diagnostic with
            position := some
              { position with
                line := position.line + Text.lineBreaks block.toList none
                offset := position.offset + block.utf8ByteSize } } := by
  have notOpened : Lex.opensMatter source.text.toList = false := by
    rw [Lex.opensMatter, noMatter]
    rfl
  have read := Parser.parse_behindBlock notOpened isBlock ended
  rw [← Text.byteLength_toList]
  cases parsed : Template.parse source.text with
  | error error =>
      rw [parsed] at read
      obtain ⟨position, positionEq, shiftedEq⟩ := error.diagnostic_shifted
        (Text.byteLength block.toList) (Text.lineBreaks block.toList none)
      rw [source.compile_of_error parsed, (source.behind block).compile_of_error read, shiftedEq]
      exact ⟨position, positionEq, rfl⟩
  | ok template =>
      rw [parsed] at read
      obtain ⟨behind, parsedBehind, alike⟩ := read
      have echoes := Eval.Echoes.template alike rfl rfl (.ofData data)
      rw [source.compile_of_ok parsed, (source.behind block).compile_of_ok parsedBehind]
      cases expanded : template.expansion (.ofData data) with
      | ok document =>
          rw [expanded] at echoes
          rw [show behind.expansion (.ofData data) = .ok document from echoes]
          exact ⟨alike.plain, by rw [alike.matter]; rfl⟩
      | error error =>
          rw [expanded] at echoes
          rw [echoes trivial]
          exact ⟨error.position, rfl, rfl⟩

/-- Front matter of three lines and nineteen bytes. -/
def Source.titleBlock : String :=
  "---\ntitle: é\r\n---\n"

/-- A value that is missing in the second line. -/
def Source.missingValue : Source :=
  ⟨"missing value", "a\n\x7b\x7b b \x7d\x7d"⟩

theorem Source.compile_behind_titleBlock :
    ∃ diagnostic, missingValue.compile .null .standard = .error diagnostic ∧
      diagnostic.position = some ⟨2, 1, 2, some 7⟩ ∧
      (missingValue.behind titleBlock).compile .null .standard =
        .error { diagnostic with position := some ⟨5, 1, 21, some 7⟩ } := by
  have found : (match missingValue.compile .null .standard with
      | .ok _ => none
      | .error diagnostic => diagnostic.position) = some ⟨2, 1, 2, some 7⟩ := by
    decide +kernel
  have isBlock : Lex.scanFrontMatter true titleBlock.toList =
      .ok (some ⟨.frontMatter "title: é", titleBlock.toList.length⟩) := rfl
  have noMatter : Lex.beginsWithDelimiterLine missingValue.text.toList = false := by decide
  have lines : Text.lineBreaks titleBlock.toList none = 3 := by decide
  have bytes : titleBlock.utf8ByteSize = 19 := by decide
  -- From here on it does not matter what the source is.
  generalize missingValue = source at found noMatter ⊢
  have behind := compile_behind_frontMatter isBlock (by decide) noMatter .null .standard
  rw [lines, bytes] at behind
  cases fails : source.compile .null .standard with
  | ok compiled =>
      rw [fails] at found
      cases found
  | error diagnostic =>
      rw [fails] at behind found
      obtain ⟨position, positionEq, failsBehind⟩ := behind
      obtain rfl := Option.some.inj (positionEq.symm.trans found)
      exact ⟨diagnostic, rfl, found, failsBehind⟩

end FrontMatter

section Concatenation

theorem Eval.expansions_append (inStyle : Bool) (nodes others : List Node)
    (environment : Environment) :
    Eval.expansions inStyle (nodes ++ others) environment = do
      let before ← Eval.expansions inStyle nodes environment
      let after ← Eval.expansions inStyle others environment
      return before ++ after := by
  induction nodes with
  | nil =>
      rw [List.nil_append, Eval.expansions]
      cases Eval.expansions inStyle others environment <;> rfl
  | cons first nodes ih =>
      simp only [List.cons_append, Eval.expansions, ih, bind_assoc, pure_bind, List.append_assoc]

theorem Html.Node.layOuts_append (settings : Settings) (depth : Nat) (nodes others : List Node) :
    layOuts settings depth (nodes ++ others) =
      layOuts settings depth nodes ++ layOuts settings depth others := by
  induction nodes with
  | nil => rfl
  | cons first nodes ih => rw [List.cons_append, layOuts, layOuts, ih, List.append_assoc]

theorem Html.write_append (emissions others : List Emission) :
    write (emissions ++ others) = write emissions ++ write others := by
  rw [← String.toList_inj, String.toList_append, toList_write, toList_write, toList_write,
    characters_append]

/-- A document without a type is rendered behind another one as it is by itself. -/
theorem Html.Document.render_append {settings : Settings}
    (explicit : settings.implicitDoctype = false) {document others : Document}
    (noDoctype : others.doctype = none) :
    (⟨document.doctype, document.children ++ others.children⟩ : Document).render settings =
      document.render settings ++ others.render settings := by
  have notWritten : others.writtenDoctype? settings = none := by
    simp [writtenDoctype?, noDoctype, explicit]
  simp only [render, layOut, notWritten, Node.layOuts_append, ← List.append_assoc, write_append,
    List.nil_append]
  rfl

theorem Template.expansion_eq_ok {template : Template} {environment : Environment}
    {document : Html.Document} :
    template.expansion environment = .ok document ↔
      template.document.doctype? = document.doctype ∧
        Eval.expansions false template.children environment = .ok document.children := by
  obtain ⟨doctype, nodes⟩ := document
  rw [Template.expansion, template.document.declaredType?_eq]
  cases Eval.expansions false template.children environment with
  | error error => simp [bind, Except.bind]
  | ok expanded => simp [bind, Except.bind, pure, Except.pure]

/-- Nodes that are read from two texts, one behind the other, expand to what those of
both texts do. -/
theorem Parser.Appends.expansion {first second whole : Template} {environment : Environment}
    {document documentThen : Html.Document} (appends : Parser.Appends first second whole)
    (expands : first.expansion environment = .ok document)
    (expandsThen : second.expansion environment = .ok documentThen) :
    whole.expansion environment =
      .ok ⟨document.doctype, document.children ++ documentThen.children⟩ := by
  obtain ⟨doctypeEq, expands⟩ := Template.expansion_eq_ok.1 expands
  obtain ⟨-, expandsThen⟩ := Template.expansion_eq_ok.1 expandsThen
  obtain ⟨nodes, nodesThen, childrenEq, ⟨seam, matched⟩, ⟨seamThen, matchedThen⟩⟩ :=
    appends.children
  have echoes := Eval.Echoes.expansions false first.children nodes
    (seam.allMatch_iff.2 matched) environment
  have echoesThen := Eval.Echoes.expansions false second.children nodesThen
    (seamThen.allMatch_iff.2 matchedThen) environment
  rw [expands] at echoes
  rw [expandsThen] at echoesThen
  refine Template.expansion_eq_ok.2 ⟨appends.doctype.trans doctypeEq, ?_⟩
  rw [childrenEq, Eval.expansions_append, echoes, echoesThen]
  rfl

theorem Source.exists_of_compile (source : Source) {template : Template} {data : Json}
    {settings : Html.Settings} {compiled : Compiled}
    (parsed : Template.parse source.text = .ok template)
    (compiles : source.compile data settings = .ok compiled) :
    ∃ document, template.expansion (.ofData data) = .ok document ∧
      compiled = ⟨document.render settings, template.document.frontMatter⟩ := by
  rw [source.compile_of_ok parsed] at compiles
  cases expands : template.expansion (.ofData data) with
  | ok document =>
      rw [expands] at compiles
      exact ⟨document, rfl, (Except.ok.inj compiles).symm⟩
  | error error =>
      rw [expands] at compiles
      cases compiles

/-- A source that closes what it opens is compiled as it is by itself, whatever is
written behind it, and so is that.  The two must not meet within a run of text, and
declarations and front matter belong at the beginning. -/
theorem Source.compile_append {source others : Source} {first second : Template} {data : Json}
    {settings : Html.Settings} {compiled compiledThen : Compiled} (name : String)
    (explicit : settings.implicitDoctype = false)
    (noMatter : Lex.opensMatter source.text.toList = false)
    (noDelimiter : Lex.beginsWithDelimiterLine others.text.toList = false)
    (parsed : Template.parse source.text = .ok first)
    (parsedThen : Template.parse others.text = .ok second)
    (undeclared : second.document.declarations = [])
    (apart : ¬(first.EndsWithText ∧ second.BeginsWithText))
    (compiles : source.compile data settings = .ok compiled)
    (compilesThen : others.compile data settings = .ok compiledThen) :
    (⟨name, source.text ++ others.text⟩ : Source).compile data settings =
      .ok ⟨compiled.output ++ compiledThen.output, ""⟩ := by
  obtain ⟨whole, parsedWhole, appends⟩ :=
    Parser.parse_append noMatter noDelimiter parsed parsedThen undeclared apart
  obtain ⟨document, expands, rfl⟩ := source.exists_of_compile parsed compiles
  obtain ⟨documentThen, expandsThen, rfl⟩ := others.exists_of_compile parsedThen compilesThen
  have noDoctype : documentThen.doctype = none := by
    rw [← (Template.expansion_eq_ok.1 expandsThen).1, Document.doctype?, undeclared]
    rfl
  have compilesWhole :=
    Source.compile_of_ok ⟨name, source.text ++ others.text⟩ parsedWhole data settings
  rw [appends.expansion expands expandsThen, appends.matter] at compilesWhole
  rw [compilesWhole, ← Html.Document.render_append explicit noDoctype]

/-- A line that ends with an element. -/
def Source.headingLine : Source :=
  ⟨"heading", "One <h1>\x7b\x7b title \x7d\x7d</h1>"⟩

/-- A line that begins with a text. -/
def Source.textLine : Source :=
  ⟨"text", "and two<br>"⟩

theorem Source.compile_append_lines :
    (⟨"lines", headingLine.text ++ textLine.text⟩ : Source).compile
        (.object [("title", .string "a")]) ⟨.minify, 0, false⟩ =
      .ok ⟨"One<h1>a</h1>and two<br/>", ""⟩ := by
  have parses : (Template.parse headingLine.text).toOption.any (!decide ·.EndsWithText) = true := by
    decide +kernel
  have parsesThen : (Template.parse textLine.text).toOption.any
      (·.document.declarations.isEmpty) = true := by decide +kernel
  have compiles : headingLine.compile (.object [("title", .string "a")]) ⟨.minify, 0, false⟩ =
      .ok ⟨"One<h1>a</h1>", ""⟩ := by decide +kernel
  have compilesThen : textLine.compile (.object [("title", .string "a")]) ⟨.minify, 0, false⟩ =
      .ok ⟨"and two<br/>", ""⟩ := by decide +kernel
  have noMatter : Lex.opensMatter headingLine.text.toList = false := by decide
  have noDelimiter : Lex.beginsWithDelimiterLine textLine.text.toList = false := by decide
  -- From here on it does not matter what the sources are.
  generalize headingLine = source, textLine = others at *
  obtain ⟨first, parsed, noText⟩ := Template.exists_of_parse parses
  obtain ⟨second, parsedThen, undeclared⟩ := Template.exists_of_parse parsesThen
  have apart : ¬(first.EndsWithText ∧ second.BeginsWithText) :=
    fun meets => by simp [meets.1] at noText
  exact compile_append "lines" rfl noMatter noDelimiter parsed parsedThen
    (List.isEmpty_iff.1 undeclared) apart compiles compilesThen

end Concatenation

end TemplateCompiler
