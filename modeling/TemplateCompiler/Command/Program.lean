/-!
# Programs

A command is a program of single steps: reading a file, making a directory,
writing a file, printing.  What follows a step depends on its outcome.  A
program does nothing by itself; it can be run against the file system or against
a tree of files in memory.
-/

namespace TemplateCompiler

namespace Command

/-- Why a step on the file system fails. -/
inductive FileError where
  | notFound
  | permissionDenied
  /-- The content is not text in UTF-8. -/
  | notText
  | exists
  | notDirectory
  | isDirectory
  | nameTooLong
  /-- Any other failure, in the words of the system. -/
  | other (message : String)
deriving DecidableEq, Repr

def FileError.systemMessage : FileError → String
  | .notFound => "No such file or directory (os error 2)"
  | .permissionDenied => "Permission denied (os error 13)"
  | .notText => "stream did not contain valid UTF-8"
  | .exists => "File exists (os error 17)"
  | .notDirectory => "Not a directory (os error 20)"
  | .isDirectory => "Is a directory (os error 21)"
  | .nameTooLong => "File name too long (os error 36)"
  | .other message => message

/-- The steps of a command. -/
inductive Program where
  | finish (exitCode : Nat)
  | readFile (path : String) (next : Except FileError String → Program)
  | makeDirectory (path : String) (next : Except FileError Unit → Program)
  | isDirectory (path : String) (next : Bool → Program)
  | writeFile (path text : String) (next : Except FileError Unit → Program)
  | print (text : String) (next : Program)
  | printError (text : String) (next : Program)

end Command

end TemplateCompiler
