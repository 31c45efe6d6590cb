import TemplateCompiler.Eval.Value
import TemplateCompiler.Proofs.Number.Decimals

/-!
# What values mean to templates

A path leads from a value to another one, a value shows a text, and some values have items that
a loop goes through.  Here this is said of the values alone.  The evaluator finds the same.
-/

namespace TemplateCompiler

namespace Json

/-- The position that a segment of a path writes in decimal digits, with a plus sign or without
one.  It has to fit into 64 bits. -/
def writtenPosition? (segment : String) : Option Nat :=
  let digits :=
    if segment.toList.head? = some '+' then segment.toList.tail else segment.toList
  if digits ≠ [] ∧ digits.all Char.isDigit = true ∧ decimal digits < 2 ^ 64 then
    some (decimal digits)
  else none

/-- What the segments of a path lead to: from an object to the field of a name, and from an array
to the item at a position. -/
def reached? : Json → (segments : List String) → Option Json
  | value, [] => some value
  | .object fields, name :: segments =>
      (fields.find? (·.1 == name)).bind fun field => field.2.reached? segments
  | .array items, position :: segments =>
      ((writtenPosition? position).bind (items[·]?)).bind fun item => item.reached? segments
  | _, _ :: _ => none

/-- The text that a value shows: none for null, a string without its quotes, and of a value that
holds others the text that it has in JSON. -/
def shown : Json → String
  | .null => ""
  | .bool true => "true"
  | .bool false => "false"
  | .number (.integer value) => toString value
  | .number (.real value) => NumberLayout.output.text value
  | .string value => value
  | .array items => (Json.array items).compactText
  | .object fields => (Json.object fields).compactText

theorem checked_digits (digits : List Char) :
    (if digits.isEmpty || !digits.all Char.isDigit then none
      else if maxPosition < decimal digits then none else some (decimal digits)) =
    if digits ≠ [] ∧ digits.all Char.isDigit = true ∧ decimal digits < 2 ^ 64 then
      some (decimal digits)
    else none := by
  have fits : maxPosition < decimal digits ↔ ¬decimal digits < 2 ^ 64 := by
    rw [maxPosition]
    omega
  have isRun : (digits.isEmpty || !digits.all Char.isDigit) = true ↔
      ¬(digits ≠ [] ∧ digits.all Char.isDigit = true) := by
    simp [Classical.or_iff_not_imp_left]
  by_cases run : digits ≠ [] ∧ digits.all Char.isDigit = true
  · by_cases bound : decimal digits < 2 ^ 64
    · rw [if_neg (isRun.not_left.2 run), if_neg (fits.not_left.2 bound),
        if_pos ⟨run.1, run.2, bound⟩]
    · rw [if_neg (isRun.not_left.2 run), if_pos (fits.2 bound), if_neg fun all => bound all.2.2]
  · rw [if_pos (isRun.2 run), if_neg fun all => run ⟨all.1, all.2.1⟩]

theorem position?_eq_writtenPosition? (segment : String) :
    position? segment = writtenPosition? segment := by
  unfold position? writtenPosition?
  simp only [foldl_digits]
  cases segment.toList with
  | nil => rfl
  | cons c rest =>
      by_cases sign : c = '+'
      · subst sign
        exact checked_digits rest
      · simpa [sign] using checked_digits (c :: rest)

theorem lookup_eq_find? (fields : List (String × Json)) (name : String) :
    fields.lookup name = (fields.find? (·.1 == name)).map (·.2) := by
  induction fields with
  | nil => rfl
  | cons field fields ih =>
      rw [List.lookup_cons, List.find?_cons, ih, BEq.comm]
      cases field.1 == name <;> rfl

theorem step?_bind_reached? (value : Json) (segment : String) (segments : List String) :
    (value.step? segment).bind (·.reached? segments) = value.reached? (segment :: segments) := by
  cases value with
  | object fields =>
      rw [step?, lookup_eq_find?, reached?, Option.bind_map]
      rfl
  | array items => rw [step?, position?_eq_writtenPosition?, reached?]
  | _ => rfl

theorem lookup?_eq_reached? (value : Json) (segments : List String) :
    value.lookup? segments = value.reached? segments := by
  induction segments generalizing value with
  | nil => cases value <;> rfl
  | cons segment segments ih =>
      rw [← step?_bind_reached?, ← funext fun found => ih found]
      rfl

theorem text_eq_shown (value : Json) : value.text = value.shown := by
  cases value with
  | bool value => cases value <;> rfl
  | number value => cases value <;> rfl
  | _ => rfl

end Json

end TemplateCompiler
