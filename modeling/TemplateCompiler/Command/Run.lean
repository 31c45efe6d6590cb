import TemplateCompiler.Command.Inspect
import TemplateCompiler.Command.Render
import TemplateCompiler.Command.Usage
import TemplateCompiler.Diagnostic.Explanation

/-!
# The command line

The first argument names a command; the others belong to the command.
-/

namespace TemplateCompiler

namespace Command

/-- Prints a text and succeeds. -/
def showing (text : String) : Program :=
  .print text (.finish 0)

/-- Explains an error code. -/
def explain (name : String) : Program :=
  match ErrorCode.ofText? name with
  | some code => showing (code.explanation ++ "\n")
  | none => .fail (unknownCodeText name)

/-- Renders templates as arguments say. -/
def renderArguments (colors : Bool) (arguments : List String) : Program :=
  match RenderOptions.ofArguments arguments with
  | .ok options => render colors options
  | .error error => .fail (s!"error: {error.message}\n\n" ++ renderUsageText)

/-- Runs a command on its first argument, which it cannot do without. -/
def withArgument (usage : String) (command : String → Program) : List String → Program
  | [] => .fail usage
  | argument :: _ => command argument

/-- The program that arguments ask for.  `colors` tells whether reports are
colored. -/
def program (colors : Bool) : List String → Program
  | [] => showing usageText
  | name :: arguments =>
      match name with
      | "render" => renderArguments colors arguments
      | "lex" => withArgument lexUsageText (lex colors) arguments
      | "parse" => withArgument parseUsageText (parse colors) arguments
      | "explain" | "--explain" => withArgument explainUsageText explain arguments
      | "help" | "--help" | "-h" => showing usageText
      | "version" | "--version" | "-V" => showing versionText
      | unknown => .printError (unknownCommandText unknown) (.print usageText (.finish 1))

end Command

end TemplateCompiler
