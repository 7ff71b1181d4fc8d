import ComponentLowering.Json.Basic
import ComponentLowering.Text.Quoted
/-!
Faults of content: a text is well-formed, but a value in it is not the one asked for. A fault tells
what was found and, behind that, what would have been right.
-/

namespace ComponentLowering

inductive Found where
  | null
  | bool (value : Bool)
  | number (value : Number)
  | string (value : String)
  | sequence
  | map

/-- A kind of record, as faults tell of it: its name and the number of its fields. -/
structure RecordForm where
  name : String
  size : Nat
  deriving DecidableEq, Repr

inductive Expected where
  | null
  | bool
  | natural
  | string
  | sequence
  | record (form : RecordForm)
  /-- As many elements as a record has fields. -/
  | fieldsOf (form : RecordForm)
  /-- As many elements as were taken from a sequence. -/
  | elements (count : Nat)
  /-- A named value: its name, or an object. -/
  | stringOrMap
  /-- The one member of an object that stands for a named value. -/
  | singleMember
  | variantName
  /-- The index of a named value among so many. -/
  | variantIndex (count : Nat)
  deriving DecidableEq, Repr

/-- A well-formed value that is not the one asked for. -/
inductive Fault where
  | missingField (name : String)
  | duplicateField (name : String)
  | unknownVariant (name : String) (known : List String)
  | invalidLength (length : Nat) (expected : Expected)
  | invalidType (found : Found) (expected : Expected)
  | invalidValue (found : Found) (expected : Expected)

def Json.found : Json → Found
  | .null => .null
  | .bool value => .bool value
  | .num value => .number value
  | .str value => .string value
  | .arr _ => .sequence
  | .obj _ => .map

namespace Found

def describe : Found → String
  | null => "null"
  | bool true => "boolean `true`"
  | bool false => "boolean `false`"
  | number (.whole value) => "integer `" ++ String.ofList (Number.digits value) ++ "`"
  | number (.real value) => "floating point `" ++ String.ofList (Decimal.ofFloat value) ++ "`"
  | string value => "string " ++ Text.quoted value
  | sequence => "sequence"
  | map => "map"

end Found

namespace Expected

def elementCount (count : Nat) : String :=
  decimal count ++ if count = 1 then " element" else " elements"

def describe : Expected → String
  | null => "unit"
  | bool => "a boolean"
  | natural => "usize"
  | string => "a string"
  | sequence => "a sequence"
  | record form => "struct " ++ form.name
  | fieldsOf form => "struct " ++ form.name ++ " with " ++ elementCount form.size
  | elements count => elementCount count ++ " in sequence"
  | stringOrMap => "string or map"
  | singleMember => "map with a single key"
  | variantName => "variant identifier"
  | variantIndex count => "variant index 0 <= i < " ++ decimal count

end Expected

namespace Fault

def choice (names : List String) : String :=
  match names.map fun name => "`" ++ name ++ "`" with
  | [name] => name
  | [first, second] => first ++ " or " ++ second
  | names => "one of " ++ ", ".intercalate names

def summary : Fault → String
  | missingField name => "missing field `" ++ name ++ "`"
  | duplicateField name => "duplicate field `" ++ name ++ "`"
  | unknownVariant name _ => "unknown variant `" ++ name ++ "`"
  | invalidLength length _ => "invalid length " ++ decimal length
  | invalidType found _ => "invalid type: " ++ found.describe
  | invalidValue found _ => "invalid value: " ++ found.describe

/-- What would have been right, where that is told. -/
def expectation? : Fault → Option String
  | missingField _ | duplicateField _ => none
  | unknownVariant _ known => some (choice known)
  | invalidLength _ expected | invalidType _ expected | invalidValue _ expected =>
    some expected.describe

def message (fault : Fault) : String :=
  match fault.expectation? with
  | some expectation => fault.summary ++ ", expected " ++ expectation
  | none => fault.summary

end Fault

end ComponentLowering
