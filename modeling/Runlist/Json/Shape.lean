import Runlist.Json.Printer
import Runlist.Text.Quoted

/-!
# Reading values of a given shape

A record is written as a mapping, whose further keys do not count, or as a list of its fields in
order.

* `ShapeError`: how a value fails to have a shape, and the wording.
* `Shape.readString`, `Shape.readOptionalString`, `Shape.readPaths`: single values.
* `Shape.field`, `Shape.place`: the fields of a record, by key and by position.
-/

namespace Runlist

/-- What a value should have been. -/
inductive Shape where
  | string
  | path
  | sequence
  | map
  | record (name : String)
deriving DecidableEq, Inhabited, Repr

/-- The wording of a shape. -/
def Shape.message : Shape → String
  | .string => "a string"
  | .path => "path string"
  | .sequence => "a sequence"
  | .map => "a map"
  | .record name => "struct " ++ name

/-- How a value fails to have a shape. -/
inductive ShapeError where
  | unexpected (found : Json) (expected : Shape)
  | missingField (name : String)
  /-- The value has none of the forms of a choice. -/
  | noForm (choice : String)
  /-- A list has too few fields for a record. -/
  | tooShort (length : Nat) (record : String) (fields : Nat)
  /-- A list has too many fields. -/
  | tooLong (length : Nat)
  | notBoolean (text : String)
deriving Inhabited, Repr

/-- What a value is called that has not the expected shape. -/
def Json.found : Json → String
  | .null => "null"
  | .bool b => "boolean `" ++ (if b then "true" else "false") ++ "`"
  | .number (.int i) => "integer `" ++ toString i ++ "`"
  | .number (.float x) => "floating point `" ++ x.text ++ "`"
  | .string s => "string " ++ Text.quoted s
  | .array _ => "sequence"
  | .object _ => "map"

/-- The wording of a failure. -/
def ShapeError.message : ShapeError → String
  | .unexpected found expected =>
    "invalid type: " ++ found.found ++ ", expected " ++ expected.message
  | .missingField name => "missing field `" ++ name ++ "`"
  | .noForm choice => "data did not match any variant of untagged enum " ++ choice
  | .tooShort length record fields =>
    "invalid length " ++ toString length ++ ", expected struct " ++ record ++ " with " ++
      toString fields ++ (if fields = 1 then " element" else " elements")
  | .tooLong length => "invalid length " ++ toString length ++ ", expected fewer elements in array"
  | .notBoolean text => "invalid boolean value: " ++ text

namespace Shape

/-- A string. -/
def readString : Json → Except ShapeError String
  | .string s => .ok s
  | other => .error (.unexpected other .string)

/-- A string or null. -/
def readOptionalString : Json → Except ShapeError (Option String)
  | .null => .ok none
  | other => (readString other).map some

/-- A list of paths. -/
def readPaths : Json → Except ShapeError (List String)
  | .array items => items.mapM fun item =>
    match item with
    | .string s => .ok s
    | other => .error (.unexpected other .path)
  | other => .error (.unexpected other .sequence)

/-- A field of a mapping; a default stands for a missing one. -/
def field {α : Type} (entries : Fields) (key : String) (otherwise : α)
    (read : Json → Except ShapeError α) : Except ShapeError α :=
  match Fields.get? entries key with
  | some value => read value
  | none => .ok otherwise

/-- A field of a list by its position; a default stands for a missing one. -/
def place {α : Type} (items : List Json) (index : Nat) (otherwise : α)
    (read : Json → Except ShapeError α) : Except ShapeError α :=
  match items[index]? with
  | some value => read value
  | none => .ok otherwise

/-- The list has no more than the given number of fields. -/
def checkLength (items : List Json) (fields : Nat) : Except ShapeError Unit :=
  if fields < items.length then .error (.tooLong items.length) else .ok ()

end Shape

end Runlist
