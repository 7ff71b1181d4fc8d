import ComponentLowering.Pass.Basic
import ComponentLowering.Pass.Content
/-!
The pass that keeps complex content away from components. An attribute of a component whose content
is not a single fragment is removed and reported; plain tag helpers keep such content.
-/

namespace ComponentLowering

/-- What the pass did about an attribute with complex content. -/
inductive ContentEvent where
  | kept (attributeName tagName : String)
  | removed (attributeName tagName : String)
  deriving DecidableEq, Repr

def ContentEvent.log : ContentEvent → LogM Unit
  | kept attributeName tagName =>
    LogM.debug ("keeping complex content of '" ++ attributeName ++ "' on tag helper <" ++
      tagName ++ ">")
  | removed attributeName tagName =>
    LogM.info ("removed attribute '" ++ attributeName ++
      "' with complex content from component <" ++ tagName ++ ">")

namespace ComplexContent

structure Checked where
  children : List Node
  /-- The reports about removed attributes, from the last attribute to the first. -/
  diagnostics : List Diagnostic
  /-- What was done, from the last attribute to the first. -/
  events : List ContentEvent

/-- Checks one child of a tag, the children behind it being checked. -/
def checkChild (isComponent : Bool) (tagName : String) (child : Node) (later : Checked) : Checked :=
  match child.attributeName? with
  | none => { later with children := child :: later.children }
  | some name =>
    match Node.classify child.children with
    | (.simple, content) =>
      { later with children := { child with children := content } :: later.children }
    | (.complex, _) =>
      if isComponent then
        { children := later.children
          diagnostics := later.diagnostics ++ [.unsupportedComplexContent child.span name]
          events := later.events ++ [.removed name tagName] }
      else
        { later with
          children := child :: later.children
          events := later.events ++ [.kept name tagName] }

/-- Checks the children of a tag, from the last to the first. -/
def checkChildren (isComponent : Bool) (tagName : String) (children : List Node) : Checked :=
  children.foldr (checkChild isComponent tagName) ⟨[], [], []⟩

/-- Checks the attributes of a node, if the node is a tag; some descriptors call for a component. -/
def checkNode (gate : Descriptor → Bool) (node : Node) : Node × List ContentEvent :=
  match node.kind with
  | .tagHelper tagName descriptors =>
    let checked := checkChildren (descriptors.any gate) tagName node.children
    ({ node with
        children := checked.children
        diagnostics := node.diagnostics ++ checked.diagnostics },
      checked.events)
  | _ => (node, [])

theorem sizeOfAll_checkChild_le (isComponent : Bool) (tagName : String) (child : Node)
    (later : Checked) :
    Node.sizeOfAll (checkChild isComponent tagName child later).children ≤
      child.size + Node.sizeOfAll later.children := by
  unfold checkChild
  split
  · simp [Node.sizeOfAll]
  · split
    · rename_i content h
      have := Node.sizeOfAll_classify_le child.children
      simp only [h] at this
      simp only [Node.sizeOfAll, Node.size_eq]
      omega
    · split
      · simp
      · simp [Node.sizeOfAll]

theorem sizeOfAll_checkChildren_le (isComponent : Bool) (tagName : String) (children : List Node) :
    Node.sizeOfAll (checkChildren isComponent tagName children).children ≤
      Node.sizeOfAll children := by
  induction children with
  | nil => exact Nat.le_refl _
  | cons child rest ih =>
    have := sizeOfAll_checkChild_le isComponent tagName child
      (checkChildren isComponent tagName rest)
    simp only [checkChildren, List.foldr_cons, Node.sizeOfAll] at this ih ⊢
    omega

/-- Checking a tag never enlarges it, so that a visit ends. -/
theorem size_checkNode_le (gate : Descriptor → Bool) (node : Node) :
    (checkNode gate node).1.size ≤ node.size := by
  unfold checkNode
  split
  · simpa only [Node.size_eq, Nat.add_le_add_iff_right] using
      sizeOfAll_checkChildren_le _ _ node.children
  · exact Nat.le_refl _

/-- Checks every tag of a tree, outer tags first: an unwrapped template loses its markers before the
tags in it are checked, and a removed attribute is not looked into. -/
def visit (gate : Descriptor → Bool) (node : Node) : LogM Node := do
  let checked := checkNode gate node
  checked.2.forM ContentEvent.log
  let children ← checked.1.children.attach.mapM fun ⟨child, _⟩ => visit gate child
  return { checked.1 with children }
termination_by node.size
decreasing_by
  have h : child ∈ (checkNode gate node).1.children := by assumption
  have := size_checkNode_le gate node
  have := Node.size_le_sizeOfAll h
  simp only [Node.size_eq] at *
  omega

/-- Checks a tree, unless its root is a legacy document. -/
def execute (gate : Descriptor → Bool) (node : Node) : LogM Node := do
  if node.fileKind? = some .legacy then
    LogM.debug "skipping complex attribute content check for a legacy document"
    return node
  else visit gate node

end ComplexContent

/-- The pass for the tags that `gate` makes components. It runs ahead of all passes that rely on
simple content. -/
def Pass.complexContent (gate : Descriptor → Bool) : Pass where
  name := "ComponentComplexAttributeContent"
  order := -1000
  execute := ComplexContent.execute gate

/-- The pipeline for documents of components. -/
def Pipeline.standard : Pipeline :=
  Pipeline.empty.add (Pass.complexContent Descriptor.isComponent)

end ComponentLowering
