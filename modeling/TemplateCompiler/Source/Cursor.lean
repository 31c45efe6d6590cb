import TemplateCompiler.Source.Position
import TemplateCompiler.Text.LineBreak
import TemplateCompiler.Text.Search
import TemplateCompiler.Text.Utf8

/-!
# Cursors

A cursor stands between two characters of a source and knows the line and
column of its place.  It advances by single characters, or in one move over a
stretch that was found by searching.  A move over a stretch counts the line
breaks in it and measures what follows the last of them; a step looks at one
character.  Both give the same mark.

A cursor may also be set down at any mark.  When the offset of the mark falls
inside a character or past the end there is nothing to read, but a search that
finds nothing still carries a cursor within the text to the end.
-/

namespace TemplateCompiler

/-- Byte offset, line and column of a cursor. -/
structure Mark where
  offset : Nat
  line : Nat
  column : Nat
deriving DecidableEq, Repr

namespace Mark

def start : Mark :=
  ⟨0, 1, 1⟩

/-- The mark after one more character, `next` being the one that follows it. -/
def step (mark : Mark) (c : Char) (next : Option Char) : Mark :=
  if Text.endsLine c next then ⟨mark.offset + c.utf8Size, mark.line + 1, 1⟩
  else if c = '\r' then { mark with offset := mark.offset + c.utf8Size }
  else ⟨mark.offset + c.utf8Size, mark.line, mark.column + 1⟩

/-- The mark after a stretch of text, `next` being the character that follows
it. -/
def jump (mark : Mark) (stretch : List Char) (next : Option Char) : Mark :=
  let breaks := Text.lineBreaks stretch next
  { offset := mark.offset + Text.byteLength stretch
    line := mark.line + breaks
    column := (if breaks = 0 then mark.column else 1) + Text.tailWidth stretch next }

def position (mark : Mark) : Position :=
  ⟨mark.line, mark.column, mark.offset, none⟩

end Mark

/-- A place in a source text and the characters that follow it. -/
structure Cursor where
  source : List Char
  rest : List Char
  mark : Mark
deriving DecidableEq, Repr

namespace Cursor

def ofText (source : List Char) : Cursor :=
  ⟨source, source, .start⟩

def ofMark (source : List Char) (mark : Mark) : Cursor :=
  ⟨source, (Text.dropBytes? mark.offset source).getD [], mark⟩

/-- The same source at another mark. -/
def reset (cursor : Cursor) (mark : Mark) : Cursor :=
  ofMark cursor.source mark

def current? (cursor : Cursor) : Option Char :=
  cursor.rest.head?

/-- The character some places ahead; zero places ahead is the current one. -/
def peek? (cursor : Cursor) (places : Nat) : Option Char :=
  cursor.rest[places]?

/-- Whether the offset is at the end of the source or past it. -/
def atEnd (cursor : Cursor) : Bool :=
  Text.byteLength cursor.source ≤ cursor.mark.offset

/-- Whether the text ahead begins with a pattern. -/
def startsWith (cursor : Cursor) (pattern : List Char) : Bool :=
  Text.startsWith pattern cursor.rest

/-- Whether the text ahead begins with a pattern, in any ASCII case. -/
def startsWithIgnoreCase (cursor : Cursor) (pattern : List Char) : Bool :=
  Text.startsWithIgnoreCase pattern cursor.rest

/-- The cursor one character further on; at the end it stays. -/
def advance (cursor : Cursor) : Cursor :=
  match cursor.rest with
  | [] => cursor
  | c :: rest => { cursor with rest := rest, mark := cursor.mark.step c rest.head? }

/-- The cursor `count` characters further on, or at the end. -/
def advanceBy : Nat → Cursor → Cursor
  | 0, cursor => cursor
  | count + 1, cursor =>
      if cursor.rest.isEmpty then cursor else advanceBy count cursor.advance

/-- Steps over a character if it is the expected one. -/
def eat? (cursor : Cursor) (expected : Char) : Option Cursor :=
  if cursor.current? = some expected then some cursor.advance else none

/-- Steps over characters as long as they belong to a class. -/
def eatWhile (cursor : Cursor) (member : Char → Bool) : Cursor :=
  advanceBy (cursor.rest.takeWhile member).length cursor

/-- Moves over the stretch that leads to `rest`. -/
private def moveOver (cursor : Cursor) (stretch rest : List Char) : Cursor :=
  { cursor with rest := rest, mark := cursor.mark.jump stretch rest.head? }

/-- Moves to the end of the source.  From inside a character the stretch begins
with the next one, and columns are counted only from a line break on.  A cursor
past the end stays where it is. -/
def toEnd (cursor : Cursor) : Cursor :=
  match cursor.rest with
  | [] =>
      let stretch := Text.fromByte cursor.mark.offset cursor.source
      let moved := cursor.mark.jump stretch none
      { cursor with
        mark :=
          { offset := max cursor.mark.offset (Text.byteLength cursor.source)
            line := moved.line
            column :=
              if Text.lineBreaks stretch none = 0 then cursor.mark.column else moved.column } }
  | rest => cursor.moveOver rest []

/-- Moves over a pattern if the text ahead begins with it. -/
def eatPattern? (cursor : Cursor) (pattern : List Char) : Option Cursor :=
  if cursor.startsWith pattern then
    some (cursor.moveOver pattern (cursor.rest.drop pattern.length))
  else none

/-- Moves to the next occurrence of a pattern and stays before it; when there
is none, moves to the end.  The flag tells whether one was found. -/
def eatUntil (cursor : Cursor) (pattern : List Char) : Bool × Cursor :=
  match Text.splitAtFirst? pattern cursor.rest with
  | some (before, after) => (true, cursor.moveOver before after)
  | none => (false, cursor.toEnd)

/-- Moves over the rest of the line and its line break; when there is no line
break, moves to the end.  The flag tells whether there was one. -/
def eatLine (cursor : Cursor) : Bool × Cursor :=
  match Text.splitLine cursor.rest with
  | (true, line, rest) => (true, cursor.moveOver line rest)
  | (false, _, _) => (false, cursor.toEnd)

/-- The source between two byte offsets, and nothing when one of them is no
boundary. -/
def slice (cursor : Cursor) (start stop : Nat) : List Char :=
  Text.slice start stop cursor.source

def sliceFrom (cursor : Cursor) (start : Nat) : List Char :=
  cursor.slice start cursor.mark.offset

/-- The text between a cursor and a later one over the same source. -/
def textTo (cursor later : Cursor) : List Char :=
  (Text.takeBytes? (later.mark.offset - cursor.mark.offset) cursor.rest).getD []

end Cursor

end TemplateCompiler
