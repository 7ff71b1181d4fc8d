import ComponentLowering.Proofs.Decoding
import Mathlib.Data.List.Forall2
/-!
The format of documents, said of JSON values without a reader: which values stand for a span, a
diagnostic, a descriptor or a node, and for which one. Fields are looked up by their keys, so the
order of members plays no part. Decoding gives what a value stands for, as long as the brackets in
it do not nest too deep.
-/

namespace ComponentLowering

open Json

variable {α : Type}

/-! ### Fields -/

/-- The values of a key among the members of an object, in their order. -/
def valuesOf (key : String) (members : List (String × Json)) : List Json :=
  (members.filter fun m => m.1 = key).map Prod.snd

/-- A field that has to stand in an object, once. -/
def Required (Loads : Json → α → Prop) (key : String) (members : List (String × Json)) (a : α) :
    Prop :=
  ∃ value, valuesOf key members = [value] ∧ Loads value a

/-- A field that may stand in an object, once. -/
def Optional (Loads : Json → α → Prop) (key : String) (members : List (String × Json)) :
    Option α → Prop
  | none => valuesOf key members = []
  | some a => Required Loads key members a

def IsString (value : Json) (s : String) : Prop :=
  value = .str s

def IsNatural (value : Json) (n : UInt64) : Prop :=
  value = .natural n.toNat

/-- A name, or an object whose one member has that name and holds `null`. -/
def Names [Named α] (value : Json) (a : α) : Prop :=
  value = .str (Named.name a) ∨ value = .obj [(Named.name a, .null)]

/-- A name that was stored before it is taken; there an empty object counts as `null`. -/
def NamesStored [Named α] (value : Json) (a : α) : Prop :=
  Names value a ∨ value = .obj [(Named.name a, .obj [])]

/-- `null` or a value that stands for something. -/
def OrNull (Loads : Json → α → Prop) (value : Json) : Option α → Prop
  | none => value = .null
  | some a => value ≠ .null ∧ Loads value a

def ListOf (Loads : Json → α → Prop) (value : Json) (as : List α) : Prop :=
  ∃ elements, value = .arr elements ∧ List.Forall₂ Loads elements as

/-- A span: all its fields by name, or in order. -/
inductive Span.Loads : Json → Span → Prop
  | object {members : List (String × Json)} {span : Span} :
      Required IsString "file_path" members span.filePath →
      Required IsNatural "offset" members span.offset →
      Required IsNatural "line" members span.line →
      Required IsNatural "col" members span.col →
      Required IsNatural "length" members span.length →
      Loads (.obj members) span
  | array (span : Span) :
      Loads (.arr [.str span.filePath, .natural span.offset.toNat, .natural span.line.toNat,
        .natural span.col.toNat, .natural span.length.toNat]) span

/-- A diagnostic: all its fields by name, or in order. Its span may be missing. -/
inductive Diagnostic.Loads : Json → Diagnostic → Prop
  | object {members : List (String × Json)} {code : DiagnosticCode} {severity : Severity}
      {message : String} {span : Option (Option Span)} :
      Required Names "code" members code →
      Required Names "severity" members severity →
      Required IsString "message" members message →
      Optional (OrNull Span.Loads) "span" members span →
      Loads (.obj members) ⟨code, severity, message, span.join⟩
  | array {first second : Json} {code : DiagnosticCode} {severity : Severity} {message : String} :
      Names first code → Names second severity →
      Loads (.arr [first, second, .str message]) ⟨code, severity, message, none⟩
  | arrayWithSpan {first second last : Json} {code : DiagnosticCode} {severity : Severity}
      {message : String} {span : Option Span} :
      Names first code → Names second severity → OrNull Span.Loads last span →
      Loads (.arr [first, second, .str message, last]) ⟨code, severity, message, span⟩

/-- A descriptor in a node: its fields by name, or in order. Its kind may be missing. -/
inductive Descriptor.Loads : Json → Descriptor → Prop
  | object {members : List (String × Json)} {name : String} {kind : Option DescriptorKind} :
      Required IsString "name" members name →
      Optional NamesStored "kind" members kind →
      Loads (.obj members) ⟨name, kind.getD .tagHelper⟩
  | array (name : String) : Loads (.arr [.str name]) ⟨name, .tagHelper⟩
  | arrayWithKind {last : Json} {name : String} {kind : DescriptorKind} :
      NamesStored last kind → Loads (.arr [.str name, last]) ⟨name, kind⟩

/-- A kind by its name or its index. -/
def Tag.Loads (value : Json) (tag : Tag) : Prop :=
  value = .str (Named.name tag) ∨ value = .natural tag.index

/-- The names of the fields that belong to nodes of a kind. -/
def Tag.fieldNames : Tag → List String
  | document => ["file_kind", "file_path"]
  | tagHelper => ["tag_name", "descriptors"]
  | propertyBinding => ["attribute_name", "property_name"]
  | htmlAttribute => ["attribute_name"]
  | token => ["content", "token_kind"]
  | tagHelperBody | genericValue | htmlContent | expression | codeBlock | template => []

/-- What belongs to a kind, found among the members of a node. -/
def Kind.Loads (members : List (String × Json)) : Kind → Prop
  | document fileKind filePath =>
    ∃ fileKind? filePath?, Optional NamesStored "file_kind" members fileKind? ∧
      Optional (OrNull IsString) "file_path" members filePath? ∧
      fileKind = fileKind?.getD .component ∧ filePath = filePath?.join
  | tagHelper tagName descriptors =>
    Required IsString "tag_name" members tagName ∧
      ∃ descriptors?, Optional (ListOf Descriptor.Loads) "descriptors" members descriptors? ∧
        descriptors = descriptors?.getD []
  | propertyBinding attributeName propertyName =>
    Required IsString "attribute_name" members attributeName ∧
      Required IsString "property_name" members propertyName
  | htmlAttribute attributeName => Required IsString "attribute_name" members attributeName
  | token content tokenKind =>
    Required IsString "content" members content ∧
      ∃ tokenKind?, Optional NamesStored "token_kind" members tokenKind? ∧
        tokenKind = tokenKind?.getD .code
  | tagHelperBody | genericValue | htmlContent | expression | codeBlock | template => True

/-- A node: an object with the fields that all nodes may have and with those of its kind. -/
inductive Node.Loads : Json → Node → Prop
  | object {members : List (String × Json)} {kind : Kind} {values : List Json}
      {children : List Node} {diagnostics : Option (List Diagnostic)}
      {span : Option (Option Span)} :
      Required Tag.Loads "kind" members kind.tag →
      Kind.Loads members kind →
      (valuesOf "children" members = [.arr values] ∨
        valuesOf "children" members = [] ∧ values = []) →
      List.Forall₂ Loads values children →
      Optional (ListOf Diagnostic.Loads) "diagnostics" members diagnostics →
      Optional (OrNull Span.Loads) "span" members span →
      Loads (.obj members) ⟨kind, children, diagnostics.getD [], span.join⟩

/-! ### Members without influence -/

section

variable {members other : List (String × Json)}

theorem Required.congr {Loads : Json → α → Prop} {key : String} {a : α}
    (h : valuesOf key other = valuesOf key members) :
    Required Loads key other a ↔ Required Loads key members a := by
  rw [Required, Required, h]

theorem Optional.congr {Loads : Json → α → Prop} {key : String} {found : Option α}
    (h : valuesOf key other = valuesOf key members) :
    Optional Loads key other found ↔ Optional Loads key members found := by
  cases found with
  | none => rw [Optional, Optional, h]
  | some a => exact Required.congr h

theorem Kind.Loads.congr {kind : Kind}
    (h : ∀ key ∈ kind.tag.fieldNames, valuesOf key other = valuesOf key members) :
    Kind.Loads other kind ↔ Kind.Loads members kind := by
  cases kind <;> simp only [Kind.tag, Tag.fieldNames, List.forall_mem_cons] at h
  case document => simp only [Kind.Loads, Optional.congr h.1, Optional.congr h.2.1]
  case tagHelper => simp only [Kind.Loads, Required.congr h.1, Optional.congr h.2.1]
  case propertyBinding => simp only [Kind.Loads, Required.congr h.1, Required.congr h.2.1]
  case htmlAttribute => simp only [Kind.Loads, Required.congr h.1]
  case token => simp only [Kind.Loads, Required.congr h.1, Optional.congr h.2.1]
  all_goals exact Iff.rfl

end

end ComponentLowering
