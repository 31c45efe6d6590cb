/-!
# Line breaks

A line feed, a carriage return, or the two in that order each end one line.  A
carriage return that a line feed follows is the first half of a pair: the line
ends with the line feed, and the carriage return itself has no column.

Whether a carriage return at the end of a text is such a first half depends on
the character that follows the text, so the functions here take it as `next`.
-/

namespace TemplateCompiler

namespace Text

/-- The two characters that take part in line breaks. -/
def isLineBreak (c : Char) : Bool :=
  c == '\n' || c == '\r'

/-- Whether `c`, followed by `next`, ends a line. -/
def endsLine (c : Char) (next : Option Char) : Bool :=
  c == '\n' || (c == '\r' && next != some '\n')

/-- The number of lines that end within a text. -/
def lineBreaks : List Char → Option Char → Nat
  | [], _ => 0
  | c :: text, next =>
      (if endsLine c (text.head?.or next) then 1 else 0) + lineBreaks text next

/-- The number of columns taken by the characters after the last line break of
a text.  A final carriage return whose line feed is `next` takes none. -/
def tailWidth (text : List Char) (next : Option Char) : Nat :=
  let backwards := text.reverse
  let columns :=
    match backwards with
    | '\r' :: earlier => if next = some '\n' then earlier else backwards
    | _ => backwards
  (columns.takeWhile fun c => !isLineBreak c).length

/-- A text divided after its first line break.  The flag tells whether there
was one. -/
def splitLine : List Char → Bool × List Char × List Char
  | [] => (false, [], [])
  | '\r' :: '\n' :: text => (true, ['\r', '\n'], text)
  | c :: text =>
      if isLineBreak c then (true, [c], text)
      else
        let (broken, line, rest) := splitLine text
        (broken, c :: line, rest)

end Text

end TemplateCompiler
