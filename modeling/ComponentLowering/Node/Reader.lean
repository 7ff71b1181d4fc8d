import ComponentLowering.Node.Writer
/-!
Reading trees. The children, diagnostics and span of a node are read as they come; its other members
are only stored until the end of the node is reached. Then the kind is resolved, and what belongs to
the kind is taken out of the stored members.
-/

namespace ComponentLowering

open Json

/-! ### What belongs to a kind -/

namespace Tag

/-- A kind by its name or by its index. -/
def ofJson : Json → Except Fault Tag
  | .str name => variantOfName name
  | .num (.whole (.ofNat index)) =>
    match (Named.all : List Tag)[index]? with
    | some tag => .ok tag
    | none =>
      .error (.invalidValue (.number (.whole index)) (.variantIndex (Named.names Tag).length))
  | value => .error (.invalidType value.found .variantName)

def ofMembers (members : List (String × Json)) : Except Fault Tag := do
  let take (tag : Option Tag) : String × Json → Except Fault (Option Tag)
    | ("kind", value) => once "kind" tag ofJson value
    | _ => return tag
  required "kind" (← members.foldlM take none)

end Tag

/-- What was found so far of all that may belong to a kind. -/
structure KindDraft where
  fileKind : Option FileKind := none
  filePath : Option (Option String) := none
  tagName : Option String := none
  descriptors : Option (List Descriptor) := none
  attributeName : Option String := none
  propertyName : Option String := none
  content : Option String := none
  tokenKind : Option TokenKind := none

namespace KindDraft

def takeMember (tag : Tag) (draft : KindDraft) : String × Json → Except Fault KindDraft
  | (key, value) => do
    match tag, key with
    | .document, "file_kind" =>
      return { draft with fileKind := ← once key draft.fileKind asVariant value }
    | .document, "file_path" =>
      return { draft with filePath := ← once key draft.filePath (asOptional asString) value }
    | .tagHelper, "tag_name" =>
      return { draft with tagName := ← once key draft.tagName asString value }
    | .tagHelper, "descriptors" =>
      return { draft with
        descriptors := ← once key draft.descriptors (asList Descriptor.ofJson) value }
    | .propertyBinding, "attribute_name" | .htmlAttribute, "attribute_name" =>
      return { draft with attributeName := ← once key draft.attributeName asString value }
    | .propertyBinding, "property_name" =>
      return { draft with propertyName := ← once key draft.propertyName asString value }
    | .token, "content" =>
      return { draft with content := ← once key draft.content asString value }
    | .token, "token_kind" =>
      return { draft with tokenKind := ← once key draft.tokenKind asVariant value }
    | _, _ => return draft

/-- The kind of a draft that lacks nothing it needs. -/
def complete (draft : KindDraft) : Tag → Except Fault Kind
  | .document => return .document (draft.fileKind.getD .component) draft.filePath.join
  | .tagHelper =>
    return .tagHelper (← required "tag_name" draft.tagName) (draft.descriptors.getD [])
  | .tagHelperBody => return .tagHelperBody
  | .propertyBinding =>
    return .propertyBinding (← required "attribute_name" draft.attributeName)
      (← required "property_name" draft.propertyName)
  | .htmlAttribute => return .htmlAttribute (← required "attribute_name" draft.attributeName)
  | .genericValue => return .genericValue
  | .htmlContent => return .htmlContent
  | .expression => return .expression
  | .codeBlock => return .codeBlock
  | .template => return .template
  | .token => return .token (← required "content" draft.content) (draft.tokenKind.getD .code)

end KindDraft

def Kind.ofMembers (members : List (String × Json)) : Except Fault Kind := do
  let tag ← Tag.ofMembers members
  (← members.foldlM (KindDraft.takeMember tag) {}).complete tag

/-! ### Nodes -/

open Reader

namespace Node

/-- A node among the records of a text: what belongs to its kind, and three fields that all have. -/
def form : RecordForm :=
  ⟨"Node", 4⟩

/-- What was read of a node so far; the stored members stand latest first. -/
structure Draft where
  stored : List (String × Json) := []
  children : Option (List Node) := none
  diagnostics : Option (List Diagnostic) := none
  span : Option (Option Span) := none

def readDiagnostics (depth : Nat) : Reader (List Diagnostic) := do
  opening '[' .sequence
  match depth with
  | 0 => malformed .tooDeep
  | depth + 1 =>
    drop
    elements (Diagnostic.read depth)

/-- The node of a draft whose stored members describe a kind. -/
def Draft.complete (draft : Draft) : Reader Node := do
  match Kind.ofMembers draft.stored.reverse with
  | .ok kind => return ⟨kind, draft.children.getD [], draft.diagnostics.getD [], draft.span.join⟩
  | .error fault => reject fault

def Draft.readMember (depth : Nat) (children : Reader (List Node)) (draft : Draft) (key : String) :
    Reader Draft := do
  match key with
  | "children" => return { draft with children := ← once key draft.children children }
  | "diagnostics" =>
    return { draft with diagnostics := ← once key draft.diagnostics (readDiagnostics depth) }
  | "span" => return { draft with span := ← once key draft.span (optional (Span.read depth)) }
  | _ =>
    colon
    return { draft with stored := (key, ← value depth) :: draft.stored }

def read (depth : Nat) : Reader Node := do
  opening '{' (.record form)
  match depth with
  | 0 => malformed .tooDeep
  | depth + 1 =>
    drop
    let children : Reader (List Node) := do
      opening '[' .sequence
      match depth with
      | 0 => malformed .tooDeep
      | depth + 1 =>
        drop
        elements (read depth)
    (← members (Draft.readMember depth children) {}).complete

def ofText (text : String) : Except ReadError Node :=
  (read depthLimit).run text.toList

end Node

/-! ### Documents -/

inductive DocumentError where
  | unreadable (error : ReadError)
  | notADocument (root : Tag)

namespace DocumentError

def message : DocumentError → String
  | unreadable error => "malformed IR document: " ++ error.message
  | notADocument root => "expected a document root, found `" ++ root.title ++ "`"

def causes (error : DocumentError) : List String :=
  error.message ::
    match error with
    | unreadable error => [error.message]
    | notADocument _ => []

end DocumentError

namespace Node

/-- The document that a text holds: a tree with a document at its root. -/
def documentOfText (text : String) : Except DocumentError Node :=
  match ofText text with
  | .error error => .error (.unreadable error)
  | .ok root => if root.tag = .document then .ok root else .error (.notADocument root.tag)

/-- Records where a document was read from, unless it says so itself. -/
def withFilePath (path : String) (node : Node) : Node :=
  match node.kind with
  | .document fileKind none => { node with kind := .document fileKind (some path) }
  | _ => node

end Node

end ComponentLowering
