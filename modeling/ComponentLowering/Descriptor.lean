import ComponentLowering.Json.Skip
import ComponentLowering.Json.Stored
/-!
What a tag is bound to. A descriptor is read from a text of its own, or taken out of a tree that was
read before; the two differ in which faults they find first.
-/

namespace ComponentLowering

inductive DescriptorKind where
  | component
  | childContent
  | eventHandler
  | bind
  | key
  | ref
  | splat
  /-- A plain markup tag helper. -/
  | tagHelper
  deriving DecidableEq, Repr

instance : Named DescriptorKind where
  all := [.component, .childContent, .eventHandler, .bind, .key, .ref, .splat, .tagHelper]
  name
    | .component => "component"
    | .childContent => "childContent"
    | .eventHandler => "eventHandler"
    | .bind => "bind"
    | .key => "key"
    | .ref => "ref"
    | .splat => "splat"
    | .tagHelper => "tagHelper"
  mem_all a := by cases a <;> simp
  name_injective a b := by cases a <;> cases b <;> simp

structure Descriptor where
  name : String
  kind : DescriptorKind
  deriving DecidableEq, Repr

namespace Descriptor

def isComponent (descriptor : Descriptor) : Bool :=
  descriptor.kind = .component

def toJson (descriptor : Descriptor) : Json :=
  .obj [("name", .str descriptor.name), ("kind", .str (Named.name descriptor.kind))]

/-- A descriptor among the records of a text. -/
def form : RecordForm :=
  ⟨"TagHelperDescriptor", 2⟩

/-- The fields of a descriptor that were found so far. -/
structure Draft where
  name : Option String := none
  kind : Option DescriptorKind := none

/-- Takes a member of an object that was read before. -/
def Draft.takeMember (draft : Draft) : String × Json → Except Fault Draft
  | ("name", value) =>
    return { draft with name := ← Json.once "name" draft.name Json.asString value }
  | ("kind", value) =>
    return { draft with kind := ← Json.once "kind" draft.kind Json.asVariant value }
  | _ => return draft

/-- Takes a descriptor out of JSON that was read before. -/
def ofJson : Json → Except Fault Descriptor
  | .obj members => do
    let draft ← members.foldlM Draft.takeMember {}
    return ⟨← Json.required "name" draft.name, draft.kind.getD .tagHelper⟩
  | .arr [] => .error (.invalidLength 0 (.fieldsOf form))
  | .arr [name] => return ⟨← name.asString, .tagHelper⟩
  | .arr (name :: kind :: rest) => do
    let descriptor : Descriptor := ⟨← name.asString, ← kind.asVariant⟩
    if rest.isEmpty then return descriptor
    else throw (.invalidLength (rest.length + 2) (.elements 2))
  | value => .error (.invalidType value.found (.record form))

open Json Json.Reader

def Draft.readMember (depth : Nat) (draft : Draft) (key : String) : Reader Draft := do
  match key with
  | "name" => return { draft with name := ← once key draft.name string }
  | "kind" => return { draft with kind := ← once key draft.kind (variant depth) }
  | _ => colon; skip; return draft

def Draft.complete (draft : Draft) : Reader Descriptor := do
  return ⟨← required "name" draft.name, draft.kind.getD .tagHelper⟩

def readElements (depth : Nat) : Reader Descriptor := do
  let name ← field form 0 string
  if ← nextElement false then
    let kind ← variant depth
    closeArray
    return ⟨name, kind⟩
  else return ⟨name, .tagHelper⟩

def read (depth : Nat) : Reader Descriptor :=
  record form depth (fun depth => do (← members (Draft.readMember depth) {}).complete) readElements

def ofText (text : String) : Except ReadError Descriptor :=
  (read depthLimit).run text.toList

end Descriptor

end ComponentLowering
