import TemplateCompiler.Source.Lines

/-!
# Source excerpts

An excerpt shows the line of a problem between some lines before and after it,
and underlines the problem:

```text
  1 | <ul>
> 2 |   <li class="a>One</li>
    |             ^
  3 | </ul>
```

The line of the problem is narrowed to a window around it.  Other lines are cut
at a width.  Whatever is left out is marked by ` ...`.
-/

namespace TemplateCompiler

/-- How much an excerpt shows. -/
structure ExcerptLayout where
  /-- The number of lines above the line of the problem. -/
  linesBefore : Nat
  /-- The number of lines below the line of the problem. -/
  linesAfter : Nat
  /-- The number of characters that other lines are cut at. -/
  lineWidth : Nat
  /-- The number of characters kept on each side of the problem. -/
  sideWidth : Nat
deriving DecidableEq, Repr

/-- Five lines above and below, cut at 120 characters, and fifty characters on
each side. -/
def ExcerptLayout.standard : ExcerptLayout :=
  ⟨5, 5, 120, 50⟩

/-- The characters that are underlined. -/
structure Highlight where
  /-- The number of shown characters before the first of them. -/
  start : Nat
  /-- Their number, one at least. -/
  width : Nat
deriving DecidableEq, Repr

/-- A line of an excerpt. -/
structure ExcerptLine where
  number : Nat
  text : List Char
  /-- Whether part of the line is not shown. -/
  truncated : Bool
  /-- What is underlined, on the line of the problem. -/
  highlight : Option Highlight
deriving DecidableEq, Repr

/-- The lines of an excerpt. -/
structure Excerpt where
  /-- The width of the widest line number. -/
  gutterWidth : Nat
  lines : List ExcerptLine
deriving DecidableEq, Repr

namespace Excerpt

/-- A line without a problem. -/
def contextLine (layout : ExcerptLayout) (number : Nat) (text : List Char) : ExcerptLine :=
  ⟨number, text.take layout.lineWidth, layout.lineWidth < text.length, none⟩

/-- The number of characters to underline, when `left` characters of the line
follow the start of the problem: those of the span on the line, one at least. -/
def highlightWidth (source : List Char) (position : Position) (left : Nat) : Nat :=
  match position.length with
  | none => 1
  | some length =>
      let span := position.span
      let characters := ((Text.slice? span.start span.stop source).map List.length).getD length
      max 1 (min characters left)

/-- The line of a problem. -/
def problemLine (layout : ExcerptLayout) (source : List Char) (position : Position)
    (number : Nat) (text : List Char) : ExcerptLine :=
  let column := min (position.column - 1) text.length
  let width := highlightWidth source position (text.length - column)
  let first := column - layout.sideWidth
  let last := min (column + width + layout.sideWidth) text.length
  { number := number
    text := (text.take last).drop first
    truncated := 0 < first || last < text.length
    highlight := some ⟨column - first, width⟩ }

/-- The excerpt around a place.  A line past the end counts as the last one. -/
def build (layout : ExcerptLayout) (source : List Char) (position : Position) : Excerpt :=
  let table := LineTable.ofText source
  let count := table.lineCount
  let problem := max 1 (min position.line count)
  let first := max 1 (problem - layout.linesBefore)
  let last := min (problem + layout.linesAfter) count
  { gutterWidth := (toString last).length
    lines := (List.range' first (last + 1 - first)).map fun number =>
      let text := (table.lineText? source number).getD []
      if number = problem then problemLine layout source position number text
      else contextLine layout number text }

def blanks (count : Nat) : String :=
  String.ofList (List.replicate count ' ')

def carets (count : Nat) : String :=
  String.ofList (List.replicate count '^')

/-- A line number in the gutter, at its right edge. -/
def gutterNumber (width number : Nat) : String :=
  let digits := toString number
  blanks (width - digits.length) ++ digits

/-- The lines of text that a line of an excerpt takes. -/
def lineText (width : Nat) (line : ExcerptLine) : String :=
  let marker := if line.highlight.isSome then ">" else " "
  let ending := if line.truncated then " ..." else ""
  let shown :=
    marker ++ " " ++ gutterNumber width line.number ++ " | " ++ String.ofList line.text
      ++ ending ++ "\n"
  match line.highlight with
  | some highlight =>
      shown ++ "  " ++ blanks width ++ " | " ++ blanks highlight.start
        ++ carets highlight.width ++ "\n"
  | none => shown

/-- The text of an excerpt, without color. -/
def plainText (excerpt : Excerpt) : String :=
  String.join (excerpt.lines.map (lineText excerpt.gutterWidth))

end Excerpt

end TemplateCompiler
