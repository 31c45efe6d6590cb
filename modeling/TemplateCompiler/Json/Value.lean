/-!
# JSON values

The data that templates are evaluated against.  Numbers keep apart integers,
which are exact, and reals, which are doubles.  An object lists its fields; the
reader puts them in the order of their names and keeps one field per name.
-/

namespace TemplateCompiler

/-- A JSON number. -/
inductive JsonNumber where
  | integer (value : Int)
  | real (value : Float)
deriving DecidableEq

/-- A JSON value. -/
inductive Json where
  | null
  | bool (value : Bool)
  | number (value : JsonNumber)
  | string (value : String)
  | array (items : List Json)
  | object (fields : List (String × Json))
deriving Inhabited

namespace Json

/-- The fields of an object with one more, in the order of their names; a field
of the same name is replaced. -/
def insertField (name : String) (value : Json) :
    List (String × Json) → List (String × Json)
  | [] => [(name, value)]
  | (other, otherValue) :: fields =>
      if name = other then (name, value) :: fields
      else if name < other then (name, value) :: (other, otherValue) :: fields
      else (other, otherValue) :: insertField name value fields

/-- The field of a name. -/
def field? (value : Json) (name : String) : Option Json :=
  match value with
  | .object fields => fields.lookup name
  | _ => none

/-- What kind of value it is, in the words of messages. -/
def kindName : Json → String
  | .null => "null"
  | .bool _ => "boolean"
  | .number _ => "number"
  | .string _ => "string"
  | .array _ => "array"
  | .object _ => "object"

/-- A whole number that is not negative. -/
def ofNat (value : Nat) : Json :=
  .number (.integer value)

end Json

end TemplateCompiler
