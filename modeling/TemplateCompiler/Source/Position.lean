/-!
# Places in a source text

A span is a range of bytes.  A position is what a reader is told: a line, a
column counted in characters, the byte offset of the first character, and, when
the place covers more than a point, its extent in bytes.

Offsets are 32-bit quantities.  They are natural numbers here; the two places
where the width shows are the end of a position, which stops at the largest
offset, and the conversion of arbitrary bounds to a span, which is refused.
-/

namespace TemplateCompiler

/-- The largest byte offset. -/
def maxOffset : Nat := 4294967295

/-- A range of bytes, its end excluded. -/
structure Span where
  start : Nat
  stop : Nat
deriving DecidableEq, Repr

/-- Why a pair of bounds is no span. -/
inductive Span.Error where
  | startTooLarge (bound : Nat)
  | stopTooLarge (bound : Nat)
deriving DecidableEq, Repr

namespace Span

def Error.message : Error → String
  | .startTooLarge bound => s!"span start {bound} exceeds u32::MAX"
  | .stopTooLarge bound => s!"span end {bound} exceeds u32::MAX"

/-- The span between two bounds that are offsets; the start is checked first. -/
def ofBounds (start stop : Nat) : Except Error Span :=
  if maxOffset < start then .error (.startTooLarge start)
  else if maxOffset < stop then .error (.stopTooLarge stop)
  else .ok ⟨start, stop⟩

/-- The number of bytes in a span, as a difference of 32-bit offsets. -/
def length (span : Span) : Nat :=
  (span.stop + (maxOffset + 1) - span.start) % (maxOffset + 1)

def isEmpty (span : Span) : Bool :=
  span.start == span.stop

/-- The smallest span that covers two. -/
def merge (first second : Span) : Span :=
  ⟨min first.start second.start, max first.stop second.stop⟩

def point (offset : Nat) : Span :=
  ⟨offset, offset⟩

/-- The two bounds, as in `3..8`. -/
def text (span : Span) : String :=
  s!"{span.start}..{span.stop}"

end Span

/-- A place in a source text.  Lines and columns count from one. -/
structure Position where
  line : Nat
  column : Nat
  offset : Nat
  length : Option Nat
deriving DecidableEq, Repr

namespace Position

/-- The place of the first character of any source. -/
def start : Position :=
  ⟨1, 1, 0, none⟩

/-- The same place with an extent. -/
def withLength (position : Position) (length : Nat) : Position :=
  { position with length := some length }

/-- The bytes a place covers; a point covers none. -/
def span (position : Position) : Span :=
  ⟨position.offset, min (position.offset + position.length.getD 0) maxOffset⟩

/-- The offset just past the bytes a place covers. -/
def endOffset (position : Position) : Nat :=
  position.span.stop

def text (position : Position) : String :=
  s!"{position.line}:{position.column}"

/-- Line, column and extent, as in `2:5+3`. -/
def detailedText (position : Position) : String :=
  match position.length with
  | some length => s!"{position.line}:{position.column}+{length}"
  | none => position.text

end Position

end TemplateCompiler
