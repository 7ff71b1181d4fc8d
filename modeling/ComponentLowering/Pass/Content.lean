import ComponentLowering.Node.Query
/-!
The shape of the content of an attribute. Components support a single fragment: one expression, one
literal or one template. Two shapes only look like more, an explicit expression in redundant
parentheses around a value or around a template; they are unwrapped to the fragment they hold.
-/

namespace ComponentLowering

/-- Whether content is a single fragment. -/
inductive ContentShape where
  | simple
  | complex
  deriving DecidableEq, Repr

namespace Node

/-- Drops a marker token in front of the children. -/
def dropMarker (node : Node) : Node :=
  match node.children with
  | first :: rest => if first.isToken "@" then { node with children := rest } else node
  | [] => node

/-- Drops the markers of all expressions below a node. Later paths come first: a path stays valid
while nodes behind it lose children. -/
def stripMarkers (node : Node) : Node :=
  (node.find (.singleton .expression)).foldr (fun path tree => tree.modifyAt dropMarker path) node

/-- The single fragment in the parts of an explicit expression: what stands between parentheses, or
a template with an empty token behind it, which loses the markers that the parentheses called
for. -/
def unwrap? : List Node → Option Node
  | [opening, part, closing] =>
    if opening.isToken "(" ∧ closing.isToken ")" then some part else none
  | [opening, part, empty, closing] =>
    if opening.isToken "(" ∧ part.tag = .template ∧ empty.isToken "" ∧ closing.isToken ")" then
      some part.stripMarkers
    else none
  | _ => none

/-- The shape of the content of an attribute, and the content without redundant parentheses. -/
def classify : List Node → ContentShape × List Node
  | [] => (.simple, [])
  | [node] =>
    match node.kind with
    | .codeBlock => (.complex, [node])
    | .genericValue => (if 1 < node.children.length then .complex else .simple, [node])
    | .expression =>
      if 1 < node.children.length then
        match unwrap? node.children with
        | some part => (.simple, [{ node with children := [part] }])
        | none => (.complex, [node])
      else (.simple, [node])
    | _ => (.simple, [node])
  | nodes => (.complex, nodes)

/-! ### Size -/

theorem size_dropMarker_le (node : Node) : node.dropMarker.size ≤ node.size := by
  unfold dropMarker
  split
  · split
    · simp_all [size_eq, sizeOfAll]
    · exact Nat.le_refl _
  · exact Nat.le_refl _

theorem size_stripMarkers_le (node : Node) : node.stripMarkers.size ≤ node.size := by
  unfold stripMarkers
  induction node.find (.singleton .expression) with
  | nil => exact Nat.le_refl _
  | cons path paths ih =>
    exact Nat.le_trans (size_modifyAt_le dropMarker size_dropMarker_le path _) ih

theorem size_unwrap?_le {parts : List Node} {part : Node} (h : unwrap? parts = some part) :
    part.size ≤ sizeOfAll parts := by
  unfold unwrap? at h
  split at h
  · split at h
    · cases h
      simp only [sizeOfAll]
      omega
    · cases h
  · split at h
    · cases h
      have := size_stripMarkers_le
      rename_i opening part empty closing _
      have := size_stripMarkers_le part
      simp only [sizeOfAll]
      omega
    · cases h
  · cases h

/-- Classification never enlarges content. -/
theorem sizeOfAll_classify_le (nodes : List Node) :
    sizeOfAll (classify nodes).2 ≤ sizeOfAll nodes := by
  unfold classify
  split
  · exact Nat.le_refl _
  · split <;> try exact Nat.le_refl _
    split
    · split
      · rename_i part h
        have := size_unwrap?_le h
        simp only [sizeOfAll, size_eq] at this ⊢
        omega
      · exact Nat.le_refl _
    · exact Nat.le_refl _
  · exact Nat.le_refl _

end Node

end ComponentLowering
