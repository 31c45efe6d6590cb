import TemplateCompiler.Diagnostic.Basic
import TemplateCompiler.Diagnostic.Excerpt
import TemplateCompiler.Source.Basic

/-!
# Reports on a terminal

A report consists of segments, some of which have a style.  Styles become
escape sequences when colors are on, and are left out when they are off; the
text is the same.
-/

namespace TemplateCompiler

/-- When colors are used. -/
inductive ColorChoice where
  /-- When the output is a terminal. -/
  | auto
  | always
  | never
deriving DecidableEq, Repr

namespace ColorChoice

/-- Whether colors are used, given whether the output is a terminal. -/
def usesColors (choice : ColorChoice) (isTerminal : Bool) : Bool :=
  match choice with
  | .auto => isTerminal
  | .always => true
  | .never => false

/-- The choice that the variable `NO_COLOR` makes.  An empty value makes none. -/
def ofNoColor (value : Option String) : ColorChoice :=
  if value.any (!·.isEmpty) then .never else .auto

end ColorChoice

namespace Terminal

/-- The style of a part of a report. -/
inductive Style where
  | error
  | warning
  | bold
  | gutter
  | dim
deriving DecidableEq, Repr

/-- The escape sequence that begins a style. -/
def Style.escape : Style → String
  | .error => "\x1b[1;31m"
  | .warning => "\x1b[1;33m"
  | .bold => "\x1b[1m"
  | .gutter => "\x1b[1;34m"
  | .dim => "\x1b[90m"

/-- The escape sequence that ends a style. -/
def resetEscape : String := "\x1b[0m"

def Style.ofSeverity : Severity → Style
  | .error => .error
  | .warning => .warning

/-- A part of a report. -/
structure Segment where
  style : Option Style
  text : String
deriving DecidableEq, Repr

def plain (text : String) : Segment :=
  ⟨none, text⟩

def styled (style : Style) (text : String) : Segment :=
  ⟨some style, text⟩

/-- The characters of a part. -/
def Segment.written (colors : Bool) (segment : Segment) : String :=
  match segment.style with
  | some style => if colors then style.escape ++ segment.text ++ resetEscape else segment.text
  | none => segment.text

def write (colors : Bool) (segments : List Segment) : String :=
  String.join (segments.map (·.written colors))

/-- The mark for what is left out of a line. -/
def ellipsis (line : ExcerptLine) : List Segment :=
  if line.truncated then [styled .dim " ..."] else []

/-- A line of an excerpt, with the accent of a severity. -/
def excerptLine (accent : Style) (width : Nat) (line : ExcerptLine) : List Segment :=
  let gutter := styled .gutter (Excerpt.gutterNumber width line.number ++ " |")
  match line.highlight with
  | some highlight =>
      let before := line.text.take highlight.start
      let marked := (line.text.drop highlight.start).take highlight.width
      let after := line.text.drop (highlight.start + highlight.width)
      [styled accent ">", plain " ", gutter, plain " ", plain (String.ofList before),
          styled accent (String.ofList marked), plain (String.ofList after)]
        ++ ellipsis line
        ++ [plain "\n", plain "  ", styled .gutter (Excerpt.blanks width ++ " |"),
          plain (" " ++ Excerpt.blanks highlight.start),
          styled accent (Excerpt.carets highlight.width), plain "\n"]
  | none =>
      [plain "  ", gutter, plain " ", styled .dim (String.ofList line.text)] ++ ellipsis line
        ++ [plain "\n"]

/-- The severity, the code and the message of a diagnostic. -/
def headline (diagnostic : Diagnostic) : List Segment :=
  [styled (.ofSeverity diagnostic.severity) diagnostic.severity.text,
    styled .bold s!"[{diagnostic.code.text}]: {diagnostic.message}", plain "\n"]

/-- The place of a diagnostic, with the name of the source if it is known. -/
def location (source : Option Source) (position : Position) : List Segment :=
  let place :=
    match source with
    | some source => s!"{source.name}:{position.text}"
    | none => position.text
  [plain "  ", styled .gutter "-->", plain s!" {place}\n"]

def noteLine (note : String) : List Segment :=
  [plain "  = ", styled .bold "note", plain s!": {note}\n"]

/-- The excerpt of a source around a place. -/
def excerpt (layout : ExcerptLayout) (source : Source) (severity : Severity)
    (position : Position) : List Segment :=
  let lines := Excerpt.build layout source.text.toList position
  lines.lines.flatMap (excerptLine (.ofSeverity severity) lines.gutterWidth)

/-- The report of a diagnostic.  With a source, the place is followed by an
excerpt. -/
def report (layout : ExcerptLayout) (source : Option Source) (diagnostic : Diagnostic) :
    List Segment :=
  let place :=
    match diagnostic.position with
    | some position =>
        location source position
          ++ (match source with
            | some source => excerpt layout source diagnostic.severity position
            | none => [])
    | none => []
  headline diagnostic ++ place ++ diagnostic.notes.flatMap noteLine ++ [plain "\n"]

/-- The number of warnings in words. -/
def warningCount (warnings : Nat) : String :=
  if warnings = 1 then "1 warning emitted" else s!"{warnings} warnings emitted"

/-- The closing line of a run.  There is none when nothing was reported. -/
def summary (errors warnings : Nat) : List Segment :=
  if 0 < errors then
    let count := if errors = 1 then "previous error" else s!"{errors} previous errors"
    let rest := if 0 < warnings then s!"; {warningCount warnings}" else ""
    [styled .error "error", plain s!": aborting due to {count}{rest}\n"]
  else if 0 < warnings then [styled .warning "warning", plain s!": {warningCount warnings}\n"]
  else []

end Terminal

end TemplateCompiler
