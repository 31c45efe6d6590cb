import TemplateCompiler.Command.Program
import TemplateCompiler.Text.Search

/-!
# Trees of files

A tree of files in memory, seen from a working directory, and the run of a
program against it.  Places are lists of names from the working directory on;
names for the directory above lead out of it, to directories of which nothing
else is known.
-/

namespace TemplateCompiler

namespace Command

/-- A place in a tree, as the names that lead to it. -/
abbrev TreePlace := List (List Char)

/-- Files and directories. -/
structure FileTree where
  /-- The text of every file; bytes that are no text have none. -/
  files : List (TreePlace × Option String)
  directories : List TreePlace
deriving DecidableEq, Repr

/-- What a path leads to. -/
inductive Target where
  | file (place : TreePlace) (content : Option String)
  | directory (place : TreePlace)
  /-- Nothing, but its directory exists. -/
  | missing (place : TreePlace)
deriving DecidableEq, Repr

namespace FileTree

/-- The name of the directory above. -/
def above : List Char := ['.', '.']

/-- The longest name in bytes. -/
def maxNameLength : Nat := 255

/-- The length in bytes from which on a path is too long. -/
def maxPathLength : Nat := 4096

/-- Whether a place is a directory.  The working directory, the directories
above it and the root are. -/
def hasDirectory (tree : FileTree) (place : TreePlace) : Bool :=
  place.all (fun name => name == above || name == ['/']) || tree.directories.contains place

/-- The directory above a place. -/
def placeAbove (place : TreePlace) : TreePlace :=
  match place.getLast? with
  | none => [above]
  | some name =>
      if name = above then place ++ [above]
      else if name = ['/'] then place
      else place.dropLast

/-- Follows the names of a path from a directory. -/
def follow (tree : FileTree) : (place : TreePlace) → List (List Char) → Except FileError Target
  | place, [] => .ok (.directory place)
  | place, name :: names =>
      if name.isEmpty || name = ['.'] then follow tree place names
      else if name = above then follow tree (placeAbove place) names
      else if maxNameLength < (String.ofList name).utf8ByteSize then .error .nameTooLong
      else
        let next := place ++ [name]
        match tree.files.lookup next with
        | some content => if names.isEmpty then .ok (.file next content) else .error .notDirectory
        | none =>
            if tree.hasDirectory next then follow tree next names
            else if names.all List.isEmpty then .ok (.missing next)
            else .error .notFound

/-- The names of a path, and the directory they are followed from. -/
def route (path : String) : Except FileError (TreePlace × List (List Char)) :=
  if maxPathLength ≤ path.utf8ByteSize then .error .nameTooLong
  else
    match path.toList with
    | [] => .error .notFound
    | '/' :: rest => .ok ([['/']], Text.pieces '/' rest)
    | characters => .ok ([], Text.pieces '/' characters)

/-- What a path leads to.  A path that ends in a slash does not lead to a file. -/
def target (tree : FileTree) (path : String) : Except FileError Target :=
  match route path with
  | .ok (start, names) => tree.follow start names
  | .error error => .error error

/-- The names of a path without the empty ones that slashes at its end make. -/
def withoutEndSlashes : List (List Char) → List (List Char)
  | [] => []
  | name :: names =>
      match withoutEndSlashes names with
      | [] => if name = [] then [] else [name]
      | kept => name :: kept

/-- What stands at the place that a path names, whether or not it ends in a
slash. -/
def targetOfName (tree : FileTree) (path : String) : Except FileError Target :=
  match route path with
  | .ok (start, names) => tree.follow start (withoutEndSlashes names)
  | .error error => .error error

/-- Reads a file as text. -/
def read (tree : FileTree) (path : String) : Except FileError String :=
  match tree.target path with
  | .ok (.file _ (some text)) => .ok text
  | .ok (.file _ none) => .error .notText
  | .ok (.directory _) => .error .isDirectory
  | .ok (.missing _) => .error .notFound
  | .error error => .error error

/-- Makes a directory, the parent of which must exist.  Whatever has its name
already stands in the way. -/
def makeDirectory (tree : FileTree) (path : String) : Except FileError FileTree :=
  match tree.targetOfName path with
  | .ok (.missing place) => .ok { tree with directories := place :: tree.directories }
  | .ok _ => .error .exists
  | .error error => .error error

/-- Whether a path leads to a directory. -/
def isDirectory (tree : FileTree) (path : String) : Bool :=
  match tree.target path with
  | .ok (.directory _) => true
  | _ => false

/-- Writes a file, in place of what it held before. -/
def write (tree : FileTree) (path text : String) : Except FileError FileTree :=
  match tree.target path with
  | .ok (.file place _) =>
      .ok { tree with
        files := tree.files.map fun file =>
          if file.1 = place then (place, some text) else file }
  | .ok (.missing place) => .ok { tree with files := tree.files ++ [(place, some text)] }
  | .ok (.directory _) => .error .isDirectory
  | .error error => .error error

/-- The places of the directories that a place lies in, below the working
directory. -/
def directoriesAbove (place : TreePlace) : List TreePlace :=
  ((List.range place.length).drop 1).map place.take

/-- The tree of the given files and of the directories they lie in. -/
def ofFiles (files : List (String × Option String)) : FileTree :=
  let places := files.map fun (path, content) => (Text.pieces '/' path.toList, content)
  { files := places
    directories := (places.flatMap fun (place, _) => directoriesAbove place).eraseDups }

end FileTree

/-- The outcome of a run. -/
structure Outcome where
  exitCode : Nat
  stdout : String
  stderr : String
  tree : FileTree

/-- Runs a program against a tree of files. -/
def Program.run : Program → FileTree → Outcome
  | .finish exitCode, tree => ⟨exitCode, "", "", tree⟩
  | .readFile path next, tree => (next (tree.read path)).run tree
  | .makeDirectory path next, tree =>
      match tree.makeDirectory path with
      | .ok larger => (next (.ok ())).run larger
      | .error error => (next (.error error)).run tree
  | .isDirectory path next, tree => (next (tree.isDirectory path)).run tree
  | .writeFile path text next, tree =>
      match tree.write path text with
      | .ok larger => (next (.ok ())).run larger
      | .error error => (next (.error error)).run tree
  | .print text next, tree =>
      let outcome := next.run tree
      { outcome with stdout := text ++ outcome.stdout }
  | .printError text next, tree =>
      let outcome := next.run tree
      { outcome with stderr := text ++ outcome.stderr }

end Command

end TemplateCompiler
