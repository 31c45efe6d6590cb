import TemplateCompiler.Command.Arguments
import TemplateCompiler.Text.Search

/-!
# Output paths

The output of a template goes to a file named after the template, in the output
directory.  Two templates in different directories may have the same name; such
a collision is found before anything is read or written.
-/

namespace TemplateCompiler

namespace Command

/-- The names that a path goes through.  Empty names and single dots do not
count. -/
def pathNames (path : List Char) : List (List Char) :=
  (Text.pieces '/' path).filter fun name => !name.isEmpty && name != ['.']

/-- A file name without its extension: what comes before its last dot, unless
that is nothing. -/
def stem (name : List Char) : List Char :=
  match (name.reverse.dropWhile (· != '.')).drop 1 with
  | [] => name
  | before => before.reverse

/-- The name of the file that a path denotes, without its extension.  A path
that ends at a directory by its form denotes none. -/
def fileStem? (path : String) : Option String :=
  match (pathNames path.toList).getLast? with
  | none => none
  | some name => if name = ['.', '.'] then none else some (String.ofList (stem name))

/-- A path continued by a name. -/
def joinPath (directory name : String) : String :=
  if directory.isEmpty || directory.toList.getLast? = some '/' then directory ++ name
  else directory ++ "/" ++ name

/-- The path that the output of a template is written to. -/
def outputPath (directory : String) (kind : OutputKind) (template : String) : String :=
  joinPath directory ((fileStem? template).getD "out" ++ "." ++ kind.extension)

/-- Two templates whose output would be written to one path. -/
structure Collision where
  first : String
  second : String
  path : String
deriving DecidableEq, Repr

/-- The first template that collides with one before it; `seen` holds those
before it with their output paths. -/
def collisionAfter (path : String → String) :
    (seen : List (String × String)) → List String → Option Collision
  | _, [] => none
  | seen, template :: templates =>
      match seen.lookup (path template) with
      | some first => some ⟨first, template, path template⟩
      | none => collisionAfter path (seen ++ [(path template, template)]) templates

/-- The first collision among templates. -/
def findCollision? (templates : List String) (directory : String) (kind : OutputKind) :
    Option Collision :=
  collisionAfter (outputPath directory kind) [] templates

/-- The path of the directory that a path lies in, if its form shows one. -/
def parentPath? (path : String) : Option String :=
  let backwards := path.toList.reverse
  let trimmed := trimPath backwards
  if trimmed.isEmpty then none
  else
    let parent := trimPath (trimmed.dropWhile (· != '/'))
    if parent.isEmpty && path.toList.head? = some '/' then some "/"
    else some (String.ofList parent.reverse)
where
  /-- A path written backwards, without the slashes and single dots at its
  end. -/
  trimPath : List Char → List Char
    | '/' :: rest => trimPath rest
    | '.' :: '/' :: rest => trimPath ('/' :: rest)
    | path => path

end Command

end TemplateCompiler
