import TemplateCompiler.Eval.Basic
import TemplateCompiler.Html.Render
import TemplateCompiler.Parse.Markup
import TemplateCompiler.Source.Basic

/-!
# Compilation

A source is parsed, evaluated against data, and rendered.  The first error of
any stage ends the compilation and is given as a diagnostic.
-/

namespace TemplateCompiler

/-- An evaluated source. -/
structure Evaluated where
  document : Html.Document
  /-- The front matter; empty when there is none. -/
  frontMatter : String

/-- A compiled source. -/
structure Compiled where
  output : String
  /-- The front matter; empty when there is none. -/
  frontMatter : String
deriving DecidableEq, Repr

namespace Source

/-- Parses a source. -/
def parse (source : Source) : Except Diagnostic Template :=
  (Template.parse source.text).mapError (·.diagnostic)

/-- Parses a source and evaluates it against data. -/
def evaluate (source : Source) (data : Json) : Except Diagnostic Evaluated := do
  let template ← source.parse
  let document ← (template.evaluate data).mapError (·.diagnostic)
  return ⟨document, template.document.frontMatter⟩

/-- Compiles a source. -/
def compile (source : Source) (data : Json) (settings : Html.Settings) :
    Except Diagnostic Compiled := do
  let evaluated ← source.evaluate data
  return ⟨evaluated.document.render settings, evaluated.frontMatter⟩

/-- The front matter of a source and the lexer behind it. -/
def lexFrontMatter : Lexing (Option Token) := do
  modify (·.pushMode .frontMatter)
  let token ← Lexer.next
  modify (·.popMode)
  return token

/-- The tokens of a source: its front matter unless that is empty, then all the
rest as markup.  Nothing enters a tag, so the inside of tags shows as text. -/
def lex (source : Source) : Except Diagnostic (List Token) :=
  let tokens : Lexing (List Token) := do
    let first ← lexFrontMatter
    let others ← Lexer.collect
    match first with
    | some token => return if token.kind = .frontMatter "" then others else token :: others
    | none => return others
  match tokens (.ofText source.text.toList) with
  | .ok result _ => .ok result
  | .error error _ => .error error.diagnostic

end Source

end TemplateCompiler
