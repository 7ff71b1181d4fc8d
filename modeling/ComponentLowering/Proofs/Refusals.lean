import ComponentLowering.Proofs.Format
import ComponentLowering.Proofs.RoundTrip
/-!
What is wrong with a value that stands for no node, said of JSON values without a reader. Several
things may be wrong at once, and one of them counts: `Offence` finds the first member of an object
that is at fault, and `Node.Refused` says in which order fields are looked at.
-/

namespace ComponentLowering

open Json

variable {ε : Type}

/-! ### Members -/

section

variable (keys : List String) (Stands : String → Json → Prop) (Wrong : String → Json → ε → Prop)
  (duplicate : String → ε)

/-- Each of some fields stands in an object at most once, and with a value that is right. -/
def Right (members : List (String × Json)) : Prop :=
  ∀ key ∈ keys, valuesOf key members = [] ∨
    ∃ value, valuesOf key members = [value] ∧ Stands key value

/-- What is wrong with the first member at fault: its key was there before, or its value is wrong.
What stands behind it has no influence. -/
inductive Offence : List (String × Json) → ε → Prop
  | repeated {before after : List (String × Json)} {key : String} {value : Json} :
      Right keys Stands before → key ∈ keys → valuesOf key before ≠ [] →
      Offence (before ++ (key, value) :: after) (duplicate key)
  | wrong {before after : List (String × Json)} {key : String} {value : Json} {error : ε} :
      Right keys Stands before → key ∈ keys → valuesOf key before = [] → Wrong key value error →
      Offence (before ++ (key, value) :: after) error

end

/-- What is wrong with a list: that it is none, or what is wrong with its first bad element. -/
inductive ListRefused (Stands : Json → Prop) (Wrong : Json → ReadError.Cause → Prop) :
    Json → ReadError.Cause → Prop
  | mistyped {value : Json} : (∀ elements, value ≠ .arr elements) →
      ListRefused Stands Wrong value (.unsuitable (.invalidType value.found .sequence))
  | element {before after : List Json} {element : Json} {cause : ReadError.Cause} :
      (∀ earlier ∈ before, Stands earlier) → Wrong element cause →
      ListRefused Stands Wrong (.arr (before ++ element :: after)) cause

/-! ### Kinds -/

/-- What is wrong with the kind of a node. -/
inductive Tag.Refused : Json → Fault → Prop
  | unknown {name : String} : name ∉ Named.names Tag →
      Refused (.str name) (.unknownVariant name (Named.names Tag))
  | beyond {index : Nat} : (Named.names Tag).length ≤ index →
      Refused (.natural index)
        (.invalidValue (.number (.whole index)) (.variantIndex (Named.names Tag).length))
  | mistyped {value : Json} : (∀ name, value ≠ .str name) → (∀ index, value ≠ .natural index) →
      Refused value (.invalidType value.found .variantName)

namespace Tag

/-- Whether a value will do for a field of some kind, and what is wrong with it if not. -/
def checkField (value : Json) : Tag → String → Except Fault Unit
  | document, "file_kind" => Functor.discard (value.asVariant : Except Fault FileKind)
  | document, "file_path" => Functor.discard (value.asOptional asString)
  | tagHelper, "tag_name" | propertyBinding, "attribute_name" | propertyBinding, "property_name"
  | htmlAttribute, "attribute_name" | token, "content" => Functor.discard value.asString
  | tagHelper, "descriptors" => Functor.discard (value.asList Descriptor.ofJson)
  | token, "token_kind" => Functor.discard (value.asVariant : Except Fault TokenKind)
  | _, _ => .ok ()

/-- The fields that nodes of a kind need, in the order of their declaration. -/
def requiredNames : Tag → List String
  | tagHelper => ["tag_name"]
  | propertyBinding => ["attribute_name", "property_name"]
  | htmlAttribute => ["attribute_name"]
  | token => ["content"]
  | document | tagHelperBody | genericValue | htmlContent | expression | codeBlock | template => []

/-- The fields of a kind are right as far as they are there. -/
def RightFields (tag : Tag) (members : List (String × Json)) : Prop :=
  Right tag.fieldNames (fun key value => tag.checkField value key = .ok ()) members

/-- The first fault in a field of a kind. -/
def FieldOffence (tag : Tag) (members : List (String × Json)) (fault : Fault) : Prop :=
  Offence tag.fieldNames (fun key value => tag.checkField value key = .ok ())
    (fun key value fault => tag.checkField value key = .error fault) .duplicateField members fault

end Tag

/-- The first fault in a member that tells the kind of a node. -/
def Kind.Offence (members : List (String × Json)) (fault : Fault) : Prop :=
  ComponentLowering.Offence ["kind"] (fun _ value => ∃ tag, Tag.Loads value tag)
    (fun _ => Tag.Refused) .duplicateField members fault

/-- What is wrong with all that belongs to a kind. The kind itself comes first, then its fields as
they stand in the text, and then those that are not there. -/
inductive Kind.Refused (members : List (String × Json)) : Fault → Prop
  | kind {fault : Fault} : Kind.Offence members fault → Refused members fault
  | noKind : valuesOf "kind" members = [] → Refused members (.missingField "kind")
  | field {tag : Tag} {fault : Fault} :
      Required Tag.Loads "kind" members tag → tag.FieldOffence members fault →
      Refused members fault
  | missing {tag : Tag} {name : String} :
      Required Tag.Loads "kind" members tag → tag.RightFields members →
      tag.requiredNames.find? (fun name => (valuesOf name members).isEmpty) = some name →
      Refused members (.missingField name)

/-! ### Nodes -/

/-- What is wrong with a value is what is reported where it stands alone. -/
def Span.Refused (value : Json) (cause : ReadError.Cause) : Prop :=
  (Span.ofText (value.render .compact)).mapError ReadError.cause = .error cause

def Diagnostic.Refused (value : Json) (cause : ReadError.Cause) : Prop :=
  (Diagnostic.ofText (value.render .compact)).mapError ReadError.cause = .error cause

namespace Node

/-- The values that will do for the fields that all nodes may have. -/
inductive FieldLoads : String → Json → Prop
  | children {value : Json} {nodes : List Node} :
      ListOf Loads value nodes → FieldLoads "children" value
  | diagnostics {value : Json} {diagnostics : List Diagnostic} :
      ListOf Diagnostic.Loads value diagnostics → FieldLoads "diagnostics" value
  | span {value : Json} {span : Option Span} :
      OrNull Span.Loads value span → FieldLoads "span" value

mutual

/-- What is wrong with a node. The fields that all nodes may have come first, as they stand in the
text and whatever the kind is; only if they are right, the kind and all that belongs to it. -/
inductive Refused : Json → ReadError.Cause → Prop
  | mistyped {value : Json} : (∀ members, value ≠ .obj members) →
      Refused value (.unsuitable (.invalidType value.found (.record form)))
  | field {members : List (String × Json)} {cause : ReadError.Cause} :
      Offence fieldNames FieldLoads FieldRefused (fun key => .unsuitable (.duplicateField key))
        members cause →
      Refused (.obj members) cause
  | kind {members : List (String × Json)} {fault : Fault} :
      Right fieldNames FieldLoads members → Kind.Refused members fault →
      Refused (.obj members) (.unsuitable fault)

inductive FieldRefused : String → Json → ReadError.Cause → Prop
  | children {value : Json} {cause : ReadError.Cause} :
      ListRefused (fun element => ∃ node, Loads element node) Refused value cause →
      FieldRefused "children" value cause
  | diagnostics {value : Json} {cause : ReadError.Cause} :
      ListRefused (fun element => ∃ diagnostic, Diagnostic.Loads element diagnostic)
        Diagnostic.Refused value cause →
      FieldRefused "diagnostics" value cause
  | span {value : Json} {cause : ReadError.Cause} :
      value ≠ .null → Span.Refused value cause → FieldRefused "span" value cause

end

end Node

/-! ### Members in front of others -/

section

variable {keys : List String} {Stands : String → Json → Prop} {Wrong : String → Json → ε → Prop}
  {duplicate : String → ε} {before members : List (String × Json)}

theorem valuesOf_append (key : String) (members more : List (String × Json)) :
    valuesOf key (members ++ more) = valuesOf key members ++ valuesOf key more := by
  rw [valuesOf, List.filter_append, List.map_append]
  rfl

theorem valuesOf_singleton (key other : String) (value : Json) :
    valuesOf key [(other, value)] = if other = key then [value] else [] := by
  by_cases h : other = key <;> simp [valuesOf, h]

theorem right_of_not_mem (h : ∀ m ∈ members, m.1 ∉ keys) : Right keys Stands members := by
  intro key hkey
  left
  rw [valuesOf, List.map_eq_nil_iff, List.filter_eq_nil_iff]
  intro m hm heq
  exact h m hm (of_decide_eq_true heq ▸ hkey)

theorem Right.of_append (h : Right keys Stands (before ++ members)) : Right keys Stands before := by
  intro key hkey
  have hvalues := h key hkey
  rw [valuesOf_append] at hvalues
  rcases hvalues with hnone | ⟨value, hone, hstands⟩
  · exact .inl (List.append_eq_nil_iff.mp hnone).1
  · rcases List.append_eq_singleton_iff.mp hone with ⟨hnone, _⟩ | ⟨hsome, _⟩
    · exact .inl hnone
    · exact .inr ⟨value, hsome, hstands⟩

/-- A member behind those that are right. -/
theorem right_append_singleton {key : String} {value : Json} (h : Right keys Stands before) :
    Right keys Stands (before ++ [(key, value)]) ↔
      (key ∈ keys → valuesOf key before = [] ∧ Stands key value) := by
  constructor
  · intro hall hkey
    have hvalues := hall key hkey
    rw [valuesOf_append, valuesOf_singleton, if_pos rfl] at hvalues
    rcases hvalues with hnone | ⟨only, hone, hstands⟩
    · simp at hnone
    · rcases List.append_eq_singleton_iff.mp hone with ⟨hnone, hvalue⟩ | ⟨_, hvalue⟩
      · cases hvalue
        exact ⟨hnone, hstands⟩
      · cases hvalue
  · intro hmember other hother
    rw [valuesOf_append, valuesOf_singleton]
    by_cases hkey : key = other
    · subst hkey
      obtain ⟨hnone, hstands⟩ := hmember hother
      rw [if_pos rfl, hnone]
      exact .inr ⟨value, rfl, hstands⟩
    · rw [if_neg hkey, List.append_nil]
      exact h other hother

theorem Offence.append {error : ε} (h : Offence keys Stands Wrong duplicate members error)
    (more : List (String × Json)) :
    Offence keys Stands Wrong duplicate (members ++ more) error := by
  cases h with
  | repeated hright hkey hbefore =>
      rw [List.append_assoc]
      exact .repeated hright hkey hbefore
  | wrong hright hkey hbefore hwrong =>
      rw [List.append_assoc]
      exact .wrong hright hkey hbefore hwrong

end

end ComponentLowering
