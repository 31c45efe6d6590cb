/-!
# Texts measured in UTF-8 bytes

Positions count bytes while the scanners read characters.  This file measures
a list of characters in bytes and cuts it at byte offsets.  A cut exists only
between two characters, so an offset that falls inside one has no answer.
-/

namespace TemplateCompiler

namespace Text

/-- The number of bytes a text takes in UTF-8. -/
def byteLength : List Char → Nat
  | [] => 0
  | c :: text => c.utf8Size + byteLength text

@[simp]
theorem byteLength_nil : byteLength [] = 0 :=
  rfl

@[simp]
theorem byteLength_cons (c : Char) (text : List Char) :
    byteLength (c :: text) = c.utf8Size + byteLength text :=
  rfl

@[simp]
theorem byteLength_append (first second : List Char) :
    byteLength (first ++ second) = byteLength first + byteLength second := by
  induction first with
  | nil => simp
  | cons c text ih => simp [ih, Nat.add_assoc]

/-- The characters after the first `count` bytes, unless that many bytes end
inside a character or past the end of the text. -/
def dropBytes? : Nat → List Char → Option (List Char)
  | 0, text => some text
  | _ + 1, [] => none
  | count + 1, c :: text =>
      if c.utf8Size ≤ count + 1 then dropBytes? (count + 1 - c.utf8Size) text
      else none

/-- The characters within the first `count` bytes, unless that many bytes end
inside a character or past the end of the text. -/
def takeBytes? : Nat → List Char → Option (List Char)
  | 0, _ => some []
  | _ + 1, [] => none
  | count + 1, c :: text =>
      if c.utf8Size ≤ count + 1 then
        (takeBytes? (count + 1 - c.utf8Size) text).map (c :: ·)
      else none

/-- The characters between two byte offsets. -/
def slice? (start stop : Nat) (text : List Char) : Option (List Char) :=
  if start ≤ stop then (dropBytes? start text).bind (takeBytes? (stop - start))
  else none

/-- The characters between two byte offsets, and nothing when one of the
offsets is not a boundary of the text. -/
def slice (start stop : Nat) (text : List Char) : List Char :=
  (slice? start stop text).getD []

/-- The characters that begin at or after a byte offset.  A character that the
offset falls into has begun before it and is left out. -/
def fromByte : Nat → List Char → List Char
  | 0, text => text
  | _ + 1, [] => []
  | count + 1, c :: text => fromByte (count + 1 - c.utf8Size) text

theorem dropBytes?_byteLength (first second : List Char) :
    dropBytes? (byteLength first) (first ++ second) = some second := by
  induction first with
  | nil => simp [dropBytes?]
  | cons c text ih =>
      have positive : 0 < c.utf8Size := Char.utf8Size_pos c
      obtain ⟨count, countEq⟩ : ∃ count, c.utf8Size + byteLength text = count + 1 :=
        ⟨c.utf8Size + byteLength text - 1, by omega⟩
      have within : c.utf8Size ≤ count + 1 := by omega
      have remaining : count + 1 - c.utf8Size = byteLength text := by omega
      simp [countEq, dropBytes?, within, remaining, ih]

theorem takeBytes?_byteLength (first second : List Char) :
    takeBytes? (byteLength first) (first ++ second) = some first := by
  induction first with
  | nil => simp [takeBytes?]
  | cons c text ih =>
      have positive : 0 < c.utf8Size := Char.utf8Size_pos c
      obtain ⟨count, countEq⟩ : ∃ count, c.utf8Size + byteLength text = count + 1 :=
        ⟨c.utf8Size + byteLength text - 1, by omega⟩
      have within : c.utf8Size ≤ count + 1 := by omega
      have remaining : count + 1 - c.utf8Size = byteLength text := by omega
      simp [countEq, takeBytes?, within, remaining, ih]

end Text

end TemplateCompiler
