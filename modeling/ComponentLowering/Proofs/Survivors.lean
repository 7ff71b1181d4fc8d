import ComponentLowering.Proofs.Lowering
import Mathlib.Data.List.Flatten
/-!
What stays of a tree, node by node as it was before the pass, and what tags lose. `visited` follows
the recursion from the top without changing anything; the nodes of the tree that is left are those
visited, in the same order, each with the reports on what it lost (`shells_lower`). From there the
diagnostics of a whole document are read off (`mem_allDiagnostics_outcome`).
-/

namespace ComponentLowering

namespace Node

mutual

/-- All nodes of a tree, in pre-order. -/
def nodes : Node → List Node
  | ⟨kind, children, diagnostics, span⟩ =>
    ⟨kind, children, diagnostics, span⟩ :: nodesOfAll children

def nodesOfAll : List Node → List Node
  | [] => []
  | node :: rest => node.nodes ++ nodesOfAll rest

end

theorem nodesOfAll_eq_flatMap (nodes : List Node) :
    nodesOfAll nodes = nodes.flatMap Node.nodes := by
  induction nodes with
  | nil => rfl
  | cons node rest ih => rw [nodesOfAll, ih, List.flatMap_cons]

theorem nodes_eq (node : Node) : node.nodes = node :: node.children.flatMap nodes := by
  rw [← nodesOfAll_eq_flatMap]
  cases node
  rfl

mutual

theorem allDiagnostics_eq (node : Node) :
    node.allDiagnostics = node.nodes.flatMap Node.diagnostics := by
  match node with
  | ⟨kind, children, diagnostics, span⟩ =>
    rw [allDiagnostics, nodes, List.flatMap_cons, diagnosticsOfAll_eq children]

theorem diagnosticsOfAll_eq (nodes : List Node) :
    diagnosticsOfAll nodes = (nodesOfAll nodes).flatMap Node.diagnostics := by
  match nodes with
  | [] => rfl
  | node :: rest =>
    rw [diagnosticsOfAll, nodesOfAll, List.flatMap_append, allDiagnostics_eq node,
      diagnosticsOfAll_eq rest]

end

/-- A node without its children. -/
def shell (node : Node) : Node :=
  { node with children := [] }

theorem nodes_sublist_of_mem {child node : Node} (h : child ∈ node.children) :
    child.nodes.Sublist (node.children.flatMap nodes) := by
  have hsingle : [child].Sublist node.children := List.singleton_sublist.mpr h
  have hnodes := hsingle.flatMap nodes
  rwa [List.flatMap_singleton] at hnodes

end Node

namespace ComplexContent

/-- A node that the recursion from the top comes to, and how many templates came out of parentheses
around it. -/
structure Visited where
  count : Nat
  node : Node

end ComplexContent

/-- The nodes that stay of a child of a tag: `go` and `below` give those that stay of what is gone
on with. -/
def Reading.visited (isComponent : Bool) (count : Nat)
    (go below : Node → List ComplexContent.Visited) (child : Node) :
    Reading → List ComplexContent.Visited
  | .whole => go child
  | .value expression part => ⟨count, child⟩ :: ⟨count, expression⟩ :: go part
  | .template expression part => ⟨count, child⟩ :: ⟨count, expression⟩ :: below part
  | .mixed => if isComponent then [] else go child

namespace ComplexContent

open Node (dropMarkers removal removals)

/-- The nodes that `lower` keeps, as they stand in the tree, in pre-order. -/
def visited (gate : Descriptor → Bool) (count : Nat) (node : Node) : List Visited :=
  ⟨count, node⟩ ::
    match node.kind with
    | .tagHelper _ descriptors =>
      node.children.attach.flatMap fun ⟨child, _⟩ =>
        match h : child.reading count with
        | .whole => visited gate count child
        | .value expression part => ⟨count, child⟩ :: ⟨count, expression⟩ :: visited gate count part
        | .template expression part =>
          ⟨count, child⟩ :: ⟨count, expression⟩ :: visited gate (count + 1) part
        | .mixed => if descriptors.any gate then [] else visited gate count child
    | .expression =>
      (dropMarkers count node.children).attach.flatMap fun ⟨child, _⟩ => visited gate count child
    | _ => node.children.attach.flatMap fun ⟨child, _⟩ => visited gate count child
termination_by node.size
decreasing_by
  · exact Node.size_lt_of_mem ‹_›
  · exact Nat.lt_trans (Node.size_of_value h) (Node.size_lt_of_mem ‹_›)
  · exact Nat.lt_trans (Node.size_of_template h) (Node.size_lt_of_mem ‹_›)
  · exact Node.size_lt_of_mem ‹_›
  · exact Node.size_lt_of_mem (Node.mem_of_mem_dropMarkers ‹_›)
  · exact Node.size_lt_of_mem ‹_›

def visitedChild (gate : Descriptor → Bool) (count : Nat) (isComponent : Bool) (child : Node) :
    List Visited :=
  (child.reading count).visited isComponent count (visited gate count) (visited gate (count + 1))
    child

section

variable (gate : Descriptor → Bool) (count : Nat) {node : Node}

theorem visited_of_tag {tagName : String} {descriptors : List Descriptor}
    (h : node.kind = .tagHelper tagName descriptors) :
    visited gate count node =
      ⟨count, node⟩ :: node.children.flatMap (visitedChild gate count (descriptors.any gate)) := by
  rw [visited]
  simp only [h]
  congr 1
  let step := visitedChild gate count (descriptors.any gate)
  refine (List.flatMap_subtype (g := step) fun child _ => ?_).trans (by rw [List.unattach_attach])
  dsimp only [step, visitedChild]
  split <;> rename_i hreading <;> rw [hreading] <;> rfl

theorem visited_of_expression (h : node.kind = .expression) :
    visited gate count node =
      ⟨count, node⟩ :: (dropMarkers count node.children).flatMap (visited gate count) := by
  rw [visited]
  simp only [h]
  congr 1
  exact (List.flatMap_subtype (g := visited gate count) fun child _ => rfl).trans
    (by rw [List.unattach_attach])

theorem visited_of_other (htag : node.tag ≠ .tagHelper) (h : node.kind ≠ .expression) :
    visited gate count node = ⟨count, node⟩ :: node.children.flatMap (visited gate count) := by
  rw [visited]
  split
  · rename_i hkind
    rw [Node.tag, hkind] at htag
    exact absurd rfl htag
  · rename_i hkind
    exact absurd hkind h
  · congr 1
    exact (List.flatMap_subtype (g := visited gate count) fun child _ => rfl).trans
      (by rw [List.unattach_attach])

end

/-! ### What tags lose -/

/-- The children of a tag of which nothing is left. -/
def Visited.lost (gate : Descriptor → Bool) (visited : Visited) : List Node :=
  match visited.node.kind with
  | .tagHelper _ descriptors =>
    visited.node.children.filter fun child =>
      (lowerChild gate visited.count (descriptors.any gate) child).isNone
  | _ => []

/-- What is left of a node, but for its children: reports on what it lost are added. -/
def Visited.shell (gate : Descriptor → Bool) (visited : Visited) : Node :=
  { visited.node.shell with
    diagnostics := visited.node.diagnostics ++ (visited.lost gate).reverse.map removal }

section

variable {gate : Descriptor → Bool} {count : Nat} {node : Node}

theorem isNone_lowerChild (isComponent : Bool) (child : Node) :
    (lowerChild gate count isComponent child).isNone =
      (isComponent && (child.reading count).isMixed) := by
  rw [lowerChild]
  cases child.reading count with
  | mixed => cases isComponent <;> rfl
  | _ => exact (Bool.and_false isComponent).symm

theorem shell_of_tag {tagName : String} {descriptors : List Descriptor}
    (h : node.kind = .tagHelper tagName descriptors) :
    Visited.shell gate ⟨count, node⟩ =
      { node.shell with
        diagnostics :=
          node.diagnostics ++ removals (descriptors.any gate) count node.children } := by
  simp only [Visited.shell, Visited.lost, h, isNone_lowerChild, removals]

theorem shell_of_not_tag (h : node.tag ≠ .tagHelper) :
    Visited.shell gate ⟨count, node⟩ = node.shell := by
  have hlost : Visited.lost gate ⟨count, node⟩ = [] := by
    unfold Visited.lost
    split
    · rename_i hkind
      rw [Node.tag, hkind] at h
      exact absurd rfl h
    · rfl
  simp only [Visited.shell, hlost, List.reverse_nil, List.map_nil, List.append_nil]
  rfl

/-- The two nodes around what stays between parentheses stay as they are. -/
theorem shells_unwrapped {binding expression part : Node} {below : List Visited}
    (hbinding : binding.attributeName?.isSome) (hkind : expression.kind = .expression)
    (h : part.nodes.map Node.shell = below.map (Visited.shell gate)) :
    (binding.unwrapped expression part).nodes.map Node.shell =
      (⟨count, binding⟩ :: ⟨count, expression⟩ :: below).map (Visited.shell gate) := by
  rw [List.map_cons, List.map_cons, shell_of_not_tag (Node.kind_of_attribute hbinding).1,
    shell_of_not_tag (Node.tag_of_expression hkind), ← h]
  simp only [Node.unwrapped, Node.nodes_eq, List.flatMap_cons, List.flatMap_nil, List.append_nil,
    List.map_cons]
  rfl

theorem shells_lowerChild (isComponent : Bool) {child : Node}
    (ih : child.Below (fun count node => (lower gate count node).nodes.map Node.shell =
      (visited gate count node).map (Visited.shell gate)) count) :
    ((lowerChild gate count isComponent child).toList.flatMap Node.nodes).map Node.shell =
      (visitedChild gate count isComponent child).map (Visited.shell gate) := by
  have hone : ∀ kept : Node,
      ((some kept).toList.flatMap Node.nodes).map Node.shell = kept.nodes.map Node.shell :=
    fun kept => congrArg (List.map Node.shell) (List.append_nil kept.nodes)
  rw [lowerChild, visitedChild]
  cases hreading : child.reading count with
  | whole => exact (hone _).trans ih.self
  | value expression part =>
      obtain ⟨hbinding, _, hkind, _⟩ := Node.reading_eq_value hreading
      exact (hone _).trans (shells_unwrapped hbinding hkind (ih.value hreading))
  | template expression part =>
      obtain ⟨hbinding, _, hkind, _⟩ := Node.reading_eq_template hreading
      exact (hone _).trans (shells_unwrapped hbinding hkind (ih.template hreading))
  | mixed =>
      cases isComponent with
      | true => rfl
      | false => exact (hone _).trans ih.self

/-- Node by node, what is left of a tree is what is left of the nodes that the recursion comes
to. -/
theorem shells_lower (gate : Descriptor → Bool) (count : Nat) (node : Node) :
    (lower gate count node).nodes.map Node.shell =
      (visited gate count node).map (Visited.shell gate) := by
  have hall : ∀ {count : Nat} {children : List Node},
      (∀ child ∈ children, (lower gate count child).nodes.map Node.shell =
        (visited gate count child).map (Visited.shell gate)) →
      ((children.map (lower gate count)).flatMap Node.nodes).map Node.shell =
        (children.flatMap (visited gate count)).map (Visited.shell gate) := by
    intro count children h
    rw [List.flatMap_map, List.map_flatMap, List.map_flatMap]
    exact List.flatMap_congr h
  induction count, node using Node.byReading with
  | tag count node tagName descriptors h ih =>
      have hchildren : ((node.children.filterMap
            (lowerChild gate count (descriptors.any gate))).flatMap Node.nodes).map Node.shell =
          (node.children.flatMap
            (visitedChild gate count (descriptors.any gate))).map (Visited.shell gate) := by
        rw [List.filterMap_eq_flatMap_toList, List.flatMap_assoc, List.map_flatMap,
          List.map_flatMap]
        exact List.flatMap_congr fun child hchild => shells_lowerChild _ (ih child hchild)
      rw [lower_of_tag gate count h, visited_of_tag gate count h, List.map_cons,
        shell_of_tag h, Node.nodes_eq, List.map_cons, hchildren]
      rfl
  | expression count node h ih =>
      rw [lower_of_expression gate count h, visited_of_expression gate count h, List.map_cons,
        shell_of_not_tag (Node.tag_of_expression h), Node.nodes_eq, List.map_cons,
        hall fun child hchild => ih child (Node.mem_of_mem_dropMarkers hchild)]
      rfl
  | other count node htag h ih =>
      rw [lower_of_other gate count htag h, visited_of_other gate count htag h, List.map_cons,
        shell_of_not_tag htag, Node.nodes_eq, List.map_cons, hall ih]
      rfl

/-! ### Nodes that stay -/

theorem sublist_unwrapped {child expression part : Node} {below : List Node}
    (hchild : child.children = [expression]) (hpart : part ∈ expression.children)
    (h : below.Sublist part.nodes) : (child :: expression :: below).Sublist child.nodes := by
  rw [Node.nodes_eq child, hchild, List.flatMap_singleton, Node.nodes_eq expression]
  exact ((h.trans (Node.nodes_sublist_of_mem hpart)).cons_cons expression).cons_cons child

theorem sublist_visitedChild (isComponent : Bool) {child : Node}
    (ih : child.Below (fun count node =>
      ((visited gate count node).map Visited.node).Sublist node.nodes) count) :
    ((visitedChild gate count isComponent child).map Visited.node).Sublist child.nodes := by
  rw [visitedChild]
  cases hreading : child.reading count with
  | whole => exact ih.self
  | value expression part =>
      obtain ⟨hchild, hpart⟩ := Node.part_of_value hreading
      exact sublist_unwrapped hchild hpart (ih.value hreading)
  | template expression part =>
      obtain ⟨hchild, hpart⟩ := Node.part_of_template hreading
      exact sublist_unwrapped hchild hpart (ih.template hreading)
  | mixed =>
      cases isComponent with
      | true => exact List.nil_sublist _
      | false => exact ih.self

/-- The nodes that stay are nodes of the tree, in their order. -/
theorem sublist_visited (gate : Descriptor → Bool) (count : Nat) (node : Node) :
    ((visited gate count node).map Visited.node).Sublist node.nodes := by
  induction count, node using Node.byReading with
  | tag count node tagName descriptors h ih =>
      rw [visited_of_tag gate count h, List.map_cons, List.map_flatMap, node.nodes_eq]
      refine List.Sublist.cons_cons node (.flatMap_right _ ?_)
      intro child hchild
      exact sublist_visitedChild _ (ih child hchild)
  | expression count node h ih =>
      have hsub : (dropMarkers count node.children).Sublist node.children := List.drop_sublist _ _
      rw [visited_of_expression gate count h, List.map_cons, List.map_flatMap, node.nodes_eq]
      refine List.Sublist.cons_cons node (.trans (.flatMap_right _ ?_) (hsub.flatMap Node.nodes))
      intro child hchild
      exact ih child (hsub.subset hchild)
  | other count node htag h ih =>
      rw [visited_of_other gate count htag h, List.map_cons, List.map_flatMap, node.nodes_eq]
      exact List.Sublist.cons_cons node (.flatMap_right _ ih)

end

/-! ### Documents -/

/-- The nodes of a document that stay in it, as they are before the pass. -/
def remaining (gate : Descriptor → Bool) (document : Node) : List Node :=
  if document.fileKind? = some .legacy then document.nodes
  else (visited gate 0 document).map Visited.node

/-- The attributes that the pass removes from a document: those that tags lose that stay in it. -/
def removed (gate : Descriptor → Bool) (document : Node) : List Node :=
  if document.fileKind? = some .legacy then []
  else (visited gate 0 document).flatMap (Visited.lost gate)

theorem sublist_remaining (gate : Descriptor → Bool) (document : Node) :
    (remaining gate document).Sublist document.nodes := by
  rw [remaining]
  split
  · exact List.Sublist.refl _
  · exact sublist_visited gate 0 document

/-- Node by node, what the pass leaves has the kinds and places of the nodes that stay. -/
theorem nodes_outcome (gate : Descriptor → Bool) (logger : Logger) (document : Node) :
    (outcome gate logger document).nodes.map (fun node => (node.kind, node.span)) =
      (remaining gate document).map fun node => (node.kind, node.span) := by
  by_cases h : document.fileKind? = some .legacy
  · rw [outcome_of_legacy gate logger h, remaining, if_pos h]
  · have hshells := congrArg (List.map fun node => (node.kind, node.span))
      (shells_lower gate 0 document)
    rw [List.map_map, List.map_map] at hshells
    rw [outcome_eq_settle gate logger h, settle_eq_lower, remaining, if_neg h, List.map_map]
    exact hshells

theorem mem_diagnostics_shell {gate : Descriptor → Bool} {visited : Visited}
    {diagnostic : Diagnostic} :
    diagnostic ∈ (visited.shell gate).diagnostics ↔
      diagnostic ∈ visited.node.diagnostics ∨
        ∃ binding ∈ visited.lost gate, diagnostic = binding.removal := by
  simp only [Visited.shell, List.mem_append, List.mem_map, List.mem_reverse, eq_comm]

/-- A diagnostic in what the pass leaves was there before, at a node that stays, or reports an
attribute that was removed. -/
theorem mem_allDiagnostics_outcome (gate : Descriptor → Bool) (logger : Logger) (document : Node)
    (diagnostic : Diagnostic) :
    diagnostic ∈ (outcome gate logger document).allDiagnostics ↔
      (∃ node ∈ remaining gate document, diagnostic ∈ node.diagnostics) ∨
        ∃ binding ∈ removed gate document, diagnostic = binding.removal := by
  by_cases h : document.fileKind? = some .legacy
  · rw [outcome_of_legacy gate logger h, remaining, removed, if_pos h, if_pos h,
      Node.allDiagnostics_eq, List.mem_flatMap]
    simp
  · have hshells : (lower gate 0 document).nodes.flatMap Node.diagnostics =
        ((lower gate 0 document).nodes.map Node.shell).flatMap Node.diagnostics := by
      rw [List.flatMap_map]
      rfl
    rw [outcome_eq_settle gate logger h, settle_eq_lower, remaining, removed, if_neg h, if_neg h,
      Node.allDiagnostics_eq, hshells, shells_lower, List.flatMap_map, List.mem_flatMap]
    simp only [mem_diagnostics_shell, List.mem_map, List.mem_flatMap]
    constructor
    · rintro ⟨visited, hvisited, hold | ⟨binding, hlost, rfl⟩⟩
      · exact .inl ⟨visited.node, ⟨visited, hvisited, rfl⟩, hold⟩
      · exact .inr ⟨binding, ⟨visited, hvisited, hlost⟩, rfl⟩
    · rintro (⟨_, ⟨visited, hvisited, rfl⟩, hold⟩ | ⟨binding, ⟨visited, hvisited, hlost⟩, rfl⟩)
      · exact ⟨visited, hvisited, .inl hold⟩
      · exact ⟨visited, hvisited, .inr ⟨binding, hlost, rfl⟩⟩

end ComplexContent

end ComponentLowering
