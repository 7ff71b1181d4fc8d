import ComponentLowering.Node.Basic
/-!
Nodes by the child indices that lead to them from a root.
-/

namespace ComponentLowering

/-- The child indices from a root to one of its nodes. -/
abbrev Path : Type :=
  List Nat

namespace Node

def at? : Path → Node → Option Node
  | [], node => some node
  | index :: path, node => node.children[index]? >>= at? path

/-- Changes the node at a path; a path that leads nowhere changes nothing. -/
def modifyAt (f : Node → Node) : Path → Node → Node
  | [], node => f node
  | index :: path, node =>
    { node with children := node.children.modify index (modifyAt f path) }

theorem sizeOfAll_modify_le (f : Node → Node) (nodes : List Node)
    (h : ∀ node ∈ nodes, (f node).size ≤ node.size) (index : Nat) :
    sizeOfAll (nodes.modify index f) ≤ sizeOfAll nodes := by
  induction nodes generalizing index with
  | nil => simp
  | cons head rest ih =>
    cases index with
    | zero =>
      have := h head (by simp)
      simp [sizeOfAll]
      omega
    | succ index =>
      have := ih (fun node hn => h node (by simp [hn])) index
      simp [sizeOfAll]
      omega

/-- A change that does not enlarge the node it is made to does not enlarge the tree. -/
theorem size_modifyAt_le (f : Node → Node) (h : ∀ node, (f node).size ≤ node.size) (path : Path)
    (node : Node) : (node.modifyAt f path).size ≤ node.size := by
  induction path generalizing node with
  | nil => exact h node
  | cons index path ih =>
    have := sizeOfAll_modify_le (modifyAt f path) node.children (fun child _ => ih child) index
    simp only [modifyAt, size_eq]
    omega

end Node

end ComponentLowering
