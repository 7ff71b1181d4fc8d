import ComponentLowering.Json.Fault
import ComponentLowering.Named
/-!
Taking values out of JSON that was read before. Only the content can be at fault here.
-/

namespace ComponentLowering.Json

variable {α : Type}

def asString : Json → Except Fault String
  | .str value => .ok value
  | value => .error (.invalidType value.found .string)

/-- Nothing from `null`, and any other value as `item` takes it. -/
def asOptional (item : Json → Except Fault α) : Json → Except Fault (Option α)
  | .null => .ok none
  | value => (item value).map some

/-- A list, each element as `item` takes it; the first fault counts. -/
def asList (item : Json → Except Fault α) : Json → Except Fault (List α)
  | .arr elements => elements.mapM item
  | value => .error (.invalidType value.found .sequence)

def variantOfName [Named α] (name : String) : Except Fault α :=
  match Named.ofName? name with
  | some a => .ok a
  | none => .error (.unknownVariant name (Named.names α))

/-- A named value: its name, or an object whose one member has that name and holds nothing. -/
def asVariant [Named α] : Json → Except Fault α
  | .str name => variantOfName name
  | .obj [(name, content)] => do
    let a ← variantOfName name
    match content with
    | .null | .obj [] => return a
    | content => throw (.invalidType content.found .null)
  | .obj _ => .error (.invalidValue .map .singleMember)
  | value => .error (.invalidType value.found .stringOrMap)

/-- The value of a field, unless the field was taken before. -/
def once (name : String) (before : Option α) (item : Json → Except Fault α) (value : Json) :
    Except Fault (Option α) :=
  if before.isSome then .error (.duplicateField name) else (item value).map some

def required (name : String) : Option α → Except Fault α
  | some a => .ok a
  | none => .error (.missingField name)

end ComponentLowering.Json
