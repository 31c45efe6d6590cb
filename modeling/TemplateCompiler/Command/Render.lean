import TemplateCompiler.Command.Failure
import TemplateCompiler.Command.OutputPath
import TemplateCompiler.Compile
import TemplateCompiler.Json.Reader
import TemplateCompiler.Json.Writer

/-!
# Rendering templates

Every template is compiled for itself against the same data.  Everything is read
before anything is written; outputs are written in the order of the arguments,
and what is wrong with templates is reported at the end in that order.
-/

namespace TemplateCompiler

namespace Command

/-- A template and what became of it. -/
structure Rendered where
  source : Source
  result : Except Diagnostic String

def renderSource (options : RenderOptions) (data : Json) (source : Source) :
    Except Diagnostic String :=
  match options.kind with
  | .html => (source.compile data options.settings).map (·.output)
  | .tree => (source.evaluate data).map (·.document.json.indentedText)

/-- An output as it is printed, with a line break at its end. -/
def printedOutput (output : String) : String :=
  if output.toList.getLast? = some '\n' then output else output ++ "\n"

/-- The diagnostics of the templates that could not be rendered. -/
def problems (units : List Rendered) : List (Source × Diagnostic) :=
  units.filterMap fun item =>
    match item.result with
    | .ok _ => none
    | .error diagnostic => some (item.source, diagnostic)

namespace Program

/-- Reads the data.  Without a path it is an empty object. -/
def readingData : Option String → (Json → Program) → Program
  | none, next => next (.object [])
  | some path, next =>
      reading path fun text =>
        match Json.read Json.dataDepth text with
        | .ok data => next data
        | .error error => fail s!"error: invalid JSON in '{path}': {error.message}\n"

/-- Makes a directory and the directories above it.  The bound is on the number
of the latter. -/
def makingDirectories (path : String) :
    (bound : Nat) → (next : Except FileError Unit → Program) → Program
  | 0, next => next (.error .notFound)
  | bound + 1, next =>
      if path.isEmpty then next (.ok ())
      else
        .makeDirectory path fun
          | .ok () => next (.ok ())
          | .error .notFound =>
              match parentPath? path with
              | none => next (.error (.other "failed to create whole tree"))
              | some parent =>
                  makingDirectories parent bound fun
                    | .ok () =>
                        .makeDirectory path fun
                          | .ok () => next (.ok ())
                          | .error failure => acceptingDirectory path failure next
                    | .error failure => next (.error failure)
          | .error failure => acceptingDirectory path failure next
where
  /-- A directory that could not be made will do if it is there already. -/
  acceptingDirectory (path : String) (failure : FileError)
      (next : Except FileError Unit → Program) : Program :=
    .isDirectory path fun found => next (if found then .ok () else .error failure)

/-- Makes the directory that output is written to, if there is one. -/
def preparingOutput : Option String → Program → Program
  | none, next => next
  | some directory, next =>
      makingDirectories directory (directory.length + 1) fun
        | .ok () => next
        | .error failure =>
            fail
              s!"error: cannot create output directory '{directory}': {failure.systemMessage}\n"

/-- Writes or prints the output of one template. -/
def writingOutput (options : RenderOptions) (template output : String) (next : Program) :
    Program :=
  match options.out with
  | none => .print (printedOutput output) next
  | some directory =>
      let path := outputPath directory options.kind template
      .writeFile path output fun
        | .ok () => next
        | .error failure => fail s!"error: cannot write '{path}': {failure.systemMessage}\n"

/-- Writes or prints the outputs of the templates that could be rendered. -/
def writingOutputs (options : RenderOptions) : List Rendered → Program → Program
  | [], next => next
  | item :: items, next =>
      match item.result with
      | .ok output =>
          writingOutput options item.source.name output (writingOutputs options items next)
      | .error _ => writingOutputs options items next

/-- Reports what is wrong with templates, if anything is. -/
def reporting (colors : Bool) (problems : List (Source × Diagnostic)) : Program :=
  if problems.isEmpty then .finish 0 else fail (reportText colors problems)

/-- Ends the command if two templates would be written to one file. -/
def refusingCollision (options : RenderOptions) (next : Program) : Program :=
  match options.out.bind fun directory =>
      findCollision? options.files directory options.kind with
  | some collision =>
      fail
        (s!"error: '{collision.first}' and '{collision.second}' would both be written to "
          ++ s!"'{collision.path}'\n")
  | none => next

end Program

/-- Renders templates. -/
def render (colors : Bool) (options : RenderOptions) : Program :=
  .refusingCollision options <|
    .readingData options.data fun data =>
      .readingSources options.files fun sources =>
        let units := sources.map fun source => ⟨source, renderSource options data source⟩
        .preparingOutput options.out <|
          .writingOutputs options units <|
            .reporting colors (problems units)

end Command

end TemplateCompiler
