import TemplateCompiler.Eval.Value
import TemplateCompiler.Html.Settings

/-!
# Arguments of the render command

Options begin with a dash and may stand between the template paths.  Of
repeated options the last one counts.
-/

namespace TemplateCompiler

namespace Command

/-- What is written for a template. -/
inductive OutputKind where
  /-- The rendered document. -/
  | html
  /-- The evaluated document as JSON. -/
  | tree
deriving DecidableEq, Repr

namespace OutputKind

def ofName? (name : String) : Option OutputKind :=
  if name = "html" then some .html
  else if name = "vdom" || name = "json" then some .tree
  else none

def name : OutputKind → String
  | .html => "html"
  | .tree => "vdom"

def extension : OutputKind → String
  | .html => "html"
  | .tree => "json"

end OutputKind

/-- What the render command is asked to do. -/
structure RenderOptions where
  files : List String
  /-- The path of the data; without one the data is an empty object. -/
  data : Option String
  settings : Html.Settings
  /-- The directory to write into instead of the standard output. -/
  out : Option String
  kind : OutputKind
deriving DecidableEq, Repr

/-- Why arguments are refused. -/
inductive ArgumentError where
  | unknownMode (name : String)
  | invalidIndent (value : String)
  | unknownKind (name : String)
  | unknownOption (option : String)
  | missingTemplate
deriving DecidableEq, Repr

/-- The wording of a refusal. -/
def ArgumentError.message : ArgumentError → String
  | .unknownMode name => Html.Mode.unknownMessage name
  | .invalidIndent value => s!"invalid indent '{value}', expected a number of spaces"
  | .unknownKind name => s!"unknown emit type '{name}', options: html, vdom"
  | .unknownOption option => s!"unknown option '{option}'"
  | .missingTemplate => "missing template path"

namespace RenderOptions

def initial : RenderOptions :=
  ⟨[], none, .standard, none, .html⟩

/-- The value of an option given as `name=value`. -/
def optionValue? (name argument : String) : Option String :=
  let lead := name.toList ++ ['=']
  let characters := argument.toList
  if Text.startsWith lead characters then some (String.ofList (characters.drop lead.length))
  else none

/-- The options after one more argument. -/
def apply (options : RenderOptions) (argument : String) : Except ArgumentError RenderOptions :=
  if let some path := optionValue? "--data" argument then
    .ok { options with data := some path }
  else if let some name := optionValue? "--mode" argument then
    match Html.Mode.ofName? name with
    | some mode => .ok { options with settings := { options.settings with mode := mode } }
    | none => .error (.unknownMode name)
  else if let some value := optionValue? "--indent" argument then
    match Json.position? value with
    | some indent => .ok { options with settings := { options.settings with indent := indent } }
    | none => .error (.invalidIndent value)
  else if argument = "--no-doctype" then
    .ok { options with settings := { options.settings with implicitDoctype := false } }
  else if let some path := optionValue? "--out" argument then
    .ok { options with out := some path }
  else if let some name := optionValue? "--emit" argument then
    match OutputKind.ofName? name with
    | some kind => .ok { options with kind := kind }
    | none => .error (.unknownKind name)
  else if Text.startsWith ['-'] argument.toList then .error (.unknownOption argument)
  else .ok { options with files := options.files ++ [argument] }

/-- The options that arguments give.  There must be a template. -/
def ofArguments (arguments : List String) : Except ArgumentError RenderOptions := do
  let options ← arguments.foldlM apply initial
  if options.files.isEmpty then throw .missingTemplate
  return options

end RenderOptions

end Command

end TemplateCompiler
