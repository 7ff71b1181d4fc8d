import ComponentLowering.Node.Basic
/-!
Trees as JSON: the kind, what belongs to the kind, and then the children, diagnostics and span as
far as there are any.
-/

namespace ComponentLowering

def Kind.toMembers : Kind → List (String × Json)
  | document fileKind filePath =>
    ("file_kind", .str (Named.name fileKind)) ::
      (filePath.map fun path => ("file_path", .str path)).toList
  | tagHelper tagName descriptors =>
    [("tag_name", .str tagName), ("descriptors", .arr (descriptors.map Descriptor.toJson))]
  | propertyBinding attributeName propertyName =>
    [("attribute_name", .str attributeName), ("property_name", .str propertyName)]
  | htmlAttribute attributeName => [("attribute_name", .str attributeName)]
  | token content tokenKind =>
    [("content", .str content), ("token_kind", .str (Named.name tokenKind))]
  | tagHelperBody | genericValue | htmlContent | expression | codeBlock | template => []

namespace Node

/-- A member that holds a list, unless the list is empty. -/
def listMember (key : String) (elements : List Json) : List (String × Json) :=
  if elements.isEmpty then [] else [(key, .arr elements)]

mutual

def toJson : Node → Json
  | ⟨kind, children, diagnostics, span⟩ =>
    .obj (
      ("kind", .str (Named.name kind.tag)) :: kind.toMembers ++
        listMember "children" (toJsonAll children) ++
        listMember "diagnostics" (diagnostics.map Diagnostic.toJson) ++
        (span.map fun span => ("span", span.toJson)).toList)

def toJsonAll : List Node → List Json
  | [] => []
  | node :: rest => node.toJson :: toJsonAll rest

end

def render (layout : Layout) (node : Node) : String :=
  node.toJson.render layout

end Node

end ComponentLowering
