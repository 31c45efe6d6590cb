import TemplateCompiler.Source.Position
import TemplateCompiler.Text.LineBreak
import TemplateCompiler.Text.Utf8

/-!
# The lines of a source

A line table holds the byte offset at which each line of a source starts.  It
answers which line an offset lies in, where a line starts and what its text is.
Lines end as they do for a cursor, so the two agree on line numbers.
-/

namespace TemplateCompiler

/-- The byte offset of the start of every line, in order. -/
structure LineTable where
  starts : List Nat
deriving DecidableEq, Repr

namespace LineTable

/-- The offsets after each line break of a text that begins at `offset`. -/
def startsAfter : Nat → List Char → List Nat
  | _, [] => []
  | offset, c :: text =>
      let next := offset + c.utf8Size
      if Text.endsLine c text.head? then next :: startsAfter next text
      else startsAfter next text

/-- The line table of a text. -/
def ofText (text : List Char) : LineTable :=
  ⟨0 :: startsAfter 0 text⟩

/-- The number of lines; a text without line breaks is one line. -/
def lineCount (table : LineTable) : Nat :=
  table.starts.length

/-- The line an offset lies in: the last one that starts at or before it. -/
def lineOf (table : LineTable) (offset : Nat) : Nat :=
  max 1 (table.starts.countP (· ≤ offset))

/-- The offset a line starts at. -/
def start? (table : LineTable) (line : Nat) : Option Nat :=
  if line = 0 then none else table.starts[line - 1]?

/-- The line and the column of an offset.  The column is one more than the
number of characters before the offset on its line. -/
def lineAndColumn (table : LineTable) (text : List Char) (offset : Nat) : Nat × Nat :=
  let line := table.lineOf offset
  let start := (table.start? line).getD 0
  let before := Text.slice start (min offset (Text.byteLength text)) text
  (line, before.length + 1)

/-- The text of a line without its line break. -/
def lineText? (table : LineTable) (text : List Char) (line : Nat) : Option (List Char) := do
  let start ← table.start? line
  let stop := (table.start? (line + 1)).getD (Text.byteLength text)
  let raw ← Text.slice? start stop text
  return (raw.reverse.dropWhile Text.isLineBreak).reverse

end LineTable

end TemplateCompiler
