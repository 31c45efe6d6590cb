import TemplateCompiler.Json.Writer

/-!
# Values in templates

How a path is followed into a value, and what text a value shows.
-/

namespace TemplateCompiler

namespace Json

/-- The largest position that a segment can denote. -/
def maxPosition : Nat := 18446744073709551615

/-- The position that a segment denotes: decimal digits, which a plus sign may
precede. -/
def position? (segment : String) : Option Nat :=
  let digits :=
    match segment.toList with
    | '+' :: rest => rest
    | all => all
  if digits.isEmpty || !digits.all Char.isDigit then none
  else
    let value := digits.foldl (fun value digit => value * 10 + (digit.toNat - '0'.toNat)) 0
    if maxPosition < value then none else some value

/-- One step into a value: a field of an object by its name, an item of an array
by its position. -/
def step? (value : Json) (segment : String) : Option Json :=
  match value with
  | .object fields => fields.lookup segment
  | .array items => (position? segment).bind (items[·]?)
  | _ => none

/-- Follows the segments of a path into a value. -/
def lookup? (value : Json) (segments : List String) : Option Json :=
  segments.foldlM step? value

/-- The text a value shows.  Strings have no quotes and null shows nothing;
arrays and objects show their JSON text. -/
def text : Json → String
  | .null => ""
  | .bool value => if value then "true" else "false"
  | .number (.integer value) => toString value
  | .number (.real value) => NumberLayout.output.text value
  | .string value => value
  | .array items => (Json.array items).compactText
  | .object fields => (Json.object fields).compactText

/-- The items that a loop goes through: those of an array, or the values of an
object in the order of their names. -/
def items? : Json → Option (List Json)
  | .array items => some items
  | .object fields => some (fields.map (·.2))
  | _ => none

end Json

end TemplateCompiler
