import TemplateCompiler.Proofs.Eval.ShapedTemplates
import TemplateCompiler.Proofs.Html.ReadBack

/-!
# The document type in the output

The type that a template declares stands at the head of its output, in every mode.  It
is written as the parameters of the declaration with blanks between them, so it is read
back as the same declaration if all of them are names.  Strings are written without
their quotes and are lost.
-/

namespace TemplateCompiler

open Parse Written

namespace Html

/-- The declaration that is written for a document type. -/
def doctypeLine (doctype : String) : List Char :=
  characters [.text "<!DOCTYPE ", .text doctype, .text ">"]

variable {document : Document} {doctype : String}

/-- A document that has a type is written behind it. -/
theorem toList_render_declared (settings : Settings) (declared : document.doctype = some doctype) :
    (document.render settings).toList = doctypeLine doctype ++
      ((if settings.mode = .minify then [] else ['\n']) ++
        characters (Node.layOuts settings 0 document.children)) := by
  have lineEndEq : characters (if settings.mode = .minify then [] else [.newline]) =
      if settings.mode = .minify then [] else ['\n'] := by
    split <;> rfl
  rw [Document.render, toList_write, Document.layOut, Document.writtenDoctype?, declared,
    Option.some_or]
  simp only [characters_append, doctypeLine, lineEndEq, List.append_assoc]

theorem parametersSource_eq (parameter : TagName) (others : List TagName) :
    parametersSource (parameter :: others) =
      ' ' :: (" ".intercalate ((parameter :: others).map (·.text))).toList := by
  induction others generalizing parameter with
  | nil => simp [parametersSource]
  | cons other others ih =>
      have restEq := ih other
      rw [List.map_cons, List.map_cons, String.intercalate_cons_cons, ← List.map_cons]
      simp only [parametersSource, List.flatMap_cons] at restEq ⊢
      rw [restEq]
      simp

/-- What is written for names is a declaration of them. -/
theorem doctypeLine_cons (parameter : TagName) (others : List TagName) :
    doctypeLine (" ".intercalate ((parameter :: others).map (·.text))) =
      declarationSource doctypeWord (parameter :: others) := by
  rw [declarationSource, parametersSource_eq]
  simp [doctypeLine, doctypeWord, Emission.written]

theorem doctypeLine_nil :
    doctypeLine (" ".intercalate []) =
      ['<'] ++ (['!'] ++ (doctypeWord.text.toList ++ [' ', '>'])) := by
  simp [doctypeLine, doctypeWord, Emission.written]

/-- What is read as a declaration before all nodes is a template by itself. -/
theorem exists_template_of_declaration {piece : List Char} {name : String}
    {parameters : List String} (noMatter : Lex.opensMatter piece = false)
    (leads : ∀ before, Parser.Facing before piece [] → before.atStart = true →
      Parser.Leads before ((before.after piece).declare ⟨name, parameters, before.spanOf piece⟩)) :
    ∃ template position, Template.parse (String.ofList piece) = .ok template ∧
      template.document.declarations = [⟨name, parameters, position⟩] ∧
      template.children = [] := by
  have scanned : Lex.scanFrontMatter true (String.ofList piece).toList =
      .ok (some ⟨.frontMatter "", 0⟩) := by
    rw [String.toList_ofList]
    exact Lex.scanFrontMatter_none noMatter
  have facing : Parser.Facing (Parser.behindMatter (String.ofList piece).toList "" 0) piece [] :=
    ⟨rfl, by rw [Parser.rest_behindMatter, String.toList_ofList, List.drop_zero, List.append_nil]⟩
  have facingWhole : Parser.Facing _ (piece ++ []) [] := facing.regroup (by simp)
  have wellFormed : Construct.AllWellFormed [] := trivial
  obtain ⟨template, parsed, documentEq, -, outlinesEq⟩ := Parser.exists_template_of_leads
    wellFormed scanned (leads _ facing rfl)
    (facingWhole.after.change (State.declare_lexerFree _)) rfl rfl
  refine ⟨template, _, parsed, congrArg Document.declarations documentEq, ?_⟩
  cases childrenEq : template.children with
  | nil => rfl
  | cons first others =>
      rw [childrenEq] at outlinesEq
      contradiction

theorem opensMatter_less (text : List Char) : Lex.opensMatter ('<' :: text) = false :=
  rfl

/-- A document type that consists of names is read as a declaration of them. -/
theorem exists_template_of_doctypeLine (parameters : List TagName) :
    ∃ template position,
      Template.parse
          (String.ofList (doctypeLine (" ".intercalate (parameters.map (·.text))))) =
        .ok template ∧
      template.document.declarations = [⟨"DOCTYPE", parameters.map (·.text), position⟩] ∧
      template.children = [] := by
  cases parameters with
  | nil =>
      rw [List.map_nil, doctypeLine_nil]
      exact exists_template_of_declaration (opensMatter_less _) fun _ facing atStart =>
        Parser.leads_declaration_blank doctypeWord facing atStart
  | cons parameter others =>
      rw [doctypeLine_cons]
      exact exists_template_of_declaration (opensMatter_less _) fun _ facing atStart =>
        Parser.leads_declaration doctypeWord (parameter :: others) facing atStart

end Html

theorem exists_tagNames {names : List String} (plain : ∀ name ∈ names, IsPlainName name) :
    ∃ words : List TagName, names = words.map (·.text) := by
  induction names with
  | nil => exact ⟨[], rfl⟩
  | cons name names ih =>
      obtain ⟨⟨isName, notBoolean⟩, plainOthers⟩ := List.forall_mem_cons.1 plain
      obtain ⟨words, rfl⟩ := ih plainOthers
      exact ⟨⟨name, isName, notBoolean⟩ :: words, rfl⟩

/-- The type of a document is the first one its template declares. -/
theorem Template.doctype_of_evaluate {template : Template} {data : Json}
    {document : Html.Document} (evaluated : template.evaluate data = .ok document) :
    document.doctype = template.document.doctype? := by
  rw [template.evaluate_eq] at evaluated
  obtain ⟨children, -, evaluated⟩ := Eval.ok_of_bind evaluated
  cases evaluated
  exact template.document.declaredType?_eq

/-- Whether a declaration declares a document type. -/
def Declaration.IsDoctype (declaration : Declaration) : Prop :=
  Text.equalIgnoreCase declaration.name.toList "doctype".toList = true

theorem Document.doctype?_eq {document : Document} {before after : List Declaration}
    {declaration : Declaration} (divided : document.declarations = before ++ declaration :: after)
    (isDoctype : declaration.IsDoctype) (first : ∀ other ∈ before, ¬ other.IsDoctype) :
    document.doctype? = some (" ".intercalate declaration.parameters) := by
  have found : declaration.doctype? = some (" ".intercalate declaration.parameters) :=
    if_pos isDoctype
  have missing : before.findSome? Declaration.doctype? = none :=
    List.findSome?_eq_none_iff.2 fun other member => if_neg (first other member)
  rw [doctype?, divided, List.findSome?_append, missing, List.findSome?_cons, found]
  rfl

/-- Whatever the mode, the output begins with the document type that the template
declares first, and on a line of its own unless it is minified.  If the parameters of
the declaration are names, then the type is read as a declaration of the same ones. -/
theorem Source.compile_doctype {source : Source} {data : Json} {settings : Html.Settings}
    {template : Template} {compiled : Compiled} {before after : List Declaration}
    {declaration : Declaration} (parsed : source.parse = .ok template)
    (compiles : source.compile data settings = .ok compiled)
    (divided : template.document.declarations = before ++ declaration :: after)
    (isDoctype : declaration.IsDoctype) (first : ∀ other ∈ before, ¬ other.IsDoctype) :
    ∃ line rest, compiled.output.toList = line ++ rest ∧
      line = "<!DOCTYPE ".toList ++ ((" ".intercalate declaration.parameters).toList ++ ['>']) ∧
      (settings.mode ≠ .minify → ['\n'] <+: rest) ∧
      ((∀ parameter ∈ declaration.parameters, IsPlainName parameter) →
        ∃ again position, Template.parse (String.ofList line) = .ok again ∧
          again.document.declarations = [⟨"DOCTYPE", declaration.parameters, position⟩] ∧
          again.children = []) := by
  obtain ⟨found, document, parsedAs, evaluated, rfl⟩ := Source.exists_document_of_compile compiles
  obtain rfl : found = template := by
    rw [Source.parse, parsedAs] at parsed
    exact Except.ok.inj parsed
  have declared := Template.doctype_of_evaluate evaluated
  rw [Document.doctype?_eq divided isDoctype first] at declared
  refine ⟨_, _, Html.toList_render_declared settings declared, ?_, fun broken => ?_, ?_⟩
  · simp [Html.doctypeLine, Html.Emission.written]
  · rw [if_neg broken]
    exact List.prefix_append _ _
  · intro names
    obtain ⟨words, wordsEq⟩ := exists_tagNames names
    rw [wordsEq]
    exact Html.exists_template_of_doctypeLine words

/-- A document type behind another declaration. -/
def Source.secondDeclaration : Source :=
  ⟨"second", "<!entity nbsp>\n<!doctype html compact><p>x</p>"⟩

theorem Source.compile_doctype_secondDeclaration :
    ∃ template compiled before declaration after,
      secondDeclaration.parse = .ok template ∧
      secondDeclaration.compile .null .standard = .ok compiled ∧
      template.document.declarations = before ++ declaration :: after ∧
      declaration.IsDoctype ∧ (∀ other ∈ before, ¬ other.IsDoctype) ∧
      (∀ parameter ∈ declaration.parameters, IsPlainName parameter) ∧
      ∃ line rest, compiled.output.toList = line ++ rest ∧
        ∃ again position, Template.parse (String.ofList line) = .ok again ∧
          again.document.declarations = [⟨"DOCTYPE", declaration.parameters, position⟩] := by
  have succeeds : (secondDeclaration.compile .null .standard).toBool = true := by decide +kernel
  have declared : (match secondDeclaration.parse with
      | .ok template => template.document.declarations
      | .error _ => []) =
        [⟨"entity", ["nbsp"], ⟨1, 1, 0, some 14⟩⟩] ++
          [⟨"doctype", ["html", "compact"], ⟨2, 1, 15, some 23⟩⟩] := by
    decide +kernel
  have isDoctype : Declaration.IsDoctype
      ⟨"doctype", ["html", "compact"], ⟨2, 1, 15, some 23⟩⟩ := by
    rw [Declaration.IsDoctype]
    decide
  have first : ∀ other ∈ [(⟨"entity", ["nbsp"], ⟨1, 1, 0, some 14⟩⟩ : Declaration)],
      ¬ other.IsDoctype := by
    rw [List.forall_mem_singleton, Declaration.IsDoctype]
    decide
  have names : ∀ parameter ∈ ["html", "compact"], IsPlainName parameter := by
    rw [List.forall_mem_cons, List.forall_mem_singleton]
    exact ⟨⟨⟨'h', "tml".toList, rfl, rfl, by decide⟩, by decide⟩,
      ⟨⟨'c', "ompact".toList, rfl, rfl, by decide⟩, by decide⟩⟩
  cases parsed : secondDeclaration.parse with
  | error diagnostic =>
      rw [parsed] at declared
      cases declared
  | ok template =>
      rw [parsed] at declared
      cases compiles : secondDeclaration.compile .null .standard with
      | error diagnostic =>
          rw [compiles] at succeeds
          cases succeeds
      | ok compiled =>
          obtain ⟨line, rest, outputEq, -, -, reads⟩ :=
            Source.compile_doctype parsed compiles declared isDoctype first
          obtain ⟨again, position, parsedAgain, declaredAgain, -⟩ := reads names
          exact ⟨template, compiled, _, _, _, rfl, rfl, declared, isDoctype, first, names, line,
            rest, outputEq, again, position, parsedAgain, declaredAgain⟩

/-- A document type with a public identifier, which is a string. -/
def Source.publicDoctype : Source :=
  ⟨"public", "<!DOCTYPE html PUBLIC \"-//W3C//DTD HTML 4.01//EN\">"⟩

/-- The string is written without its quotes, and the type is no declaration any more. -/
theorem Source.compile_publicDoctype_unreadable :
    (∃ template declaration, publicDoctype.parse = .ok template ∧
      template.document.declarations = [declaration] ∧
      declaration.parameters = ["html", "PUBLIC", "-//W3C//DTD HTML 4.01//EN"]) ∧
    (∃ compiled, publicDoctype.compile .null ⟨.minify, 2, true⟩ = .ok compiled ∧
      compiled.output = "<!DOCTYPE html PUBLIC -//W3C//DTD HTML 4.01//EN>" ∧
      ∀ template, Template.parse compiled.output ≠ .ok template) := by
  constructor
  · have declared : (match publicDoctype.parse with
        | .ok template => template.document.declarations
        | .error _ => []) =
          [⟨"DOCTYPE", ["html", "PUBLIC", "-//W3C//DTD HTML 4.01//EN"], ⟨1, 1, 0, some 50⟩⟩] := by
      decide +kernel
    cases parsed : publicDoctype.parse with
    | error diagnostic =>
        rw [parsed] at declared
        cases declared
    | ok template =>
        rw [parsed] at declared
        exact ⟨template, _, rfl, declared, rfl⟩
  · have written : (publicDoctype.compile .null ⟨.minify, 2, true⟩).toOption.map (·.output) =
        some "<!DOCTYPE html PUBLIC -//W3C//DTD HTML 4.01//EN>" := by
      decide +kernel
    have fails : (Template.parse "<!DOCTYPE html PUBLIC -//W3C//DTD HTML 4.01//EN>").toBool =
        false := by
      decide +kernel
    cases compiles : publicDoctype.compile .null ⟨.minify, 2, true⟩ with
    | error diagnostic =>
        rw [compiles] at written
        cases written
    | ok compiled =>
        rw [compiles] at written
        have outputEq : compiled.output = _ := Option.some.inj written
        refine ⟨compiled, rfl, outputEq, fun template parsed => ?_⟩
        rw [outputEq] at parsed
        rw [parsed] at fails
        cases fails

end TemplateCompiler
