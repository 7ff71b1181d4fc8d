import ComponentLowering.Proofs.Visit
/-!
The pass as one recursion from the top. `lower` needs no paths and edits nothing twice: instead of
stripping markers for every template that comes out of parentheses, it counts these templates on its
way down and drops the markers of an expression all at once (`settle_unmarked`).
-/

namespace ComponentLowering
namespace ComplexContent

open Node (dropMarkers removals unmarked)

/-- A tree with simple attribute content, `count` templates having come out of parentheses around
it. Up to `count` markers go from the parts of each expression, before content is read. -/
def lower (gate : Descriptor → Bool) (count : Nat) (node : Node) : Node :=
  match node.kind with
  | .tagHelper _ descriptors =>
    { node with
      children := node.children.attach.filterMap fun ⟨child, _⟩ =>
        match h : child.reading count with
        | .whole => some (lower gate count child)
        | .value expression part => some (child.unwrapped expression (lower gate count part))
        | .template expression part =>
          some (child.unwrapped expression (lower gate (count + 1) part))
        | .mixed => if descriptors.any gate then none else some (lower gate count child)
      diagnostics := node.diagnostics ++ removals (descriptors.any gate) count node.children }
  | .expression =>
    { node with
      children := (dropMarkers count node.children).attach.map fun ⟨child, _⟩ =>
        lower gate count child }
  | _ => { node with children := node.children.attach.map fun ⟨child, _⟩ => lower gate count child }
termination_by node.size
decreasing_by
  · exact Node.size_lt_of_mem ‹_›
  · exact Nat.lt_trans (Node.size_of_value h) (Node.size_lt_of_mem ‹_›)
  · exact Nat.lt_trans (Node.size_of_template h) (Node.size_lt_of_mem ‹_›)
  · exact Node.size_lt_of_mem ‹_›
  · exact Node.size_lt_of_mem (Node.mem_of_mem_dropMarkers ‹_›)
  · exact Node.size_lt_of_mem ‹_›

/-- What `lower` leaves of a child of a tag. -/
def lowerChild (gate : Descriptor → Bool) (count : Nat) (isComponent : Bool) (child : Node) :
    Option Node :=
  (child.reading count).survivor isComponent (lower gate count) (lower gate (count + 1)) child

section

variable (gate : Descriptor → Bool) (count : Nat) {node : Node}

theorem lower_of_tag {tagName : String} {descriptors : List Descriptor}
    (h : node.kind = .tagHelper tagName descriptors) :
    lower gate count node =
      { node with
        children := node.children.filterMap (lowerChild gate count (descriptors.any gate))
        diagnostics :=
          node.diagnostics ++ removals (descriptors.any gate) count node.children } := by
  rw [lower]
  simp only [h]
  congr 1
  let step := lowerChild gate count (descriptors.any gate)
  refine (List.filterMap_subtype (g := step) fun child _ => ?_).trans (by rw [List.unattach_attach])
  dsimp only [step, lowerChild]
  split <;> rename_i hreading <;> rw [hreading] <;> rfl

theorem lower_of_expression (h : node.kind = .expression) :
    lower gate count node =
      { node with children := (dropMarkers count node.children).map (lower gate count) } := by
  rw [lower]
  simp only [h]
  congr 1
  exact List.attach_map_val

theorem lower_of_other (htag : node.tag ≠ .tagHelper) (h : node.kind ≠ .expression) :
    lower gate count node = { node with children := node.children.map (lower gate count) } := by
  rw [lower]
  split
  · rename_i hkind
    rw [Node.tag, hkind] at htag
    exact absurd rfl htag
  · rename_i hkind
    exact absurd hkind h
  · congr 1
    exact List.attach_map_val

end

/-- Removals are reported alike before and after a walk that keeps attributes. -/
theorem removals_map {count : Nat} {f : Node → Node} (h : Descends count f) (isComponent : Bool)
    (children : List Node) :
    removals isComponent 0 (children.map f) = removals isComponent count children := by
  induction children with
  | nil => rfl
  | cons child later ih =>
      rw [List.map_cons, Node.removals_cons, Node.removals_cons, ih, h.reading_eq,
        Reading.isMixed_map, h.removal_eq]

/-- A child of a tag that is stripped already, and settled then, is lowered. -/
theorem settleChild_unmarked (gate : Descriptor → Bool) (count : Nat) (isComponent : Bool)
    (child : Node)
    (ih : ∀ (count : Nat) (smaller : Node), smaller.size ≤ child.size →
      settle gate (smaller.unmarked count) = lower gate count smaller) :
    settleChild gate isComponent (child.unmarked count) =
      lowerChild gate count isComponent child := by
  have hunmarked := Node.unmarked_descends count
  have hself := ih count child (Nat.le_refl _)
  rw [settleChild, lowerChild, hunmarked.reading_eq]
  cases hreading : child.reading count with
  | whole => simp only [Reading.map, Reading.survivor, hself]
  | value expression part =>
      obtain ⟨hbinding, _, hexpression, _⟩ := Node.reading_eq_value hreading
      have hpart := ih count part (Nat.le_of_lt (Node.size_of_value hreading))
      simp only [Reading.map, Reading.survivor, hunmarked.unwrapped_eq hbinding hexpression, hpart]
  | template expression part =>
      obtain ⟨hbinding, _, hexpression, _, _, _, _, _, htemplate, _⟩ :=
        Node.reading_eq_template hreading
      have hkind : part.kind ≠ .expression := by
        intro hkind
        rw [Node.tag, hkind] at htemplate
        cases htemplate
      -- stripping once more is what the template adds to the count
      have hpart := ih (count + 1) part (Nat.le_of_lt (Node.size_of_template hreading))
      simp only [Reading.map, Reading.survivor, hunmarked.unwrapped_eq hbinding hexpression,
        Node.stripMarkers_unmarked count hkind, hpart]
  | mixed => simp only [Reading.map, Reading.survivor, hself]

/-- Markers that were stripped before may as well be dropped on the way. -/
theorem settle_unmarked (gate : Descriptor → Bool) (count : Nat) (node : Node) :
    settle gate (node.unmarked count) = lower gate count node := by
  induction node using Node.bySize generalizing count with
  | step node ih =>
      have hall : ∀ nodes : List Node, (∀ child ∈ nodes, child ∈ node.children) →
          (nodes.map (unmarked count)).map (settle gate) = nodes.map (lower gate count) := by
        intro nodes hsub
        rw [List.map_map]
        refine List.map_congr_left fun child hchild => ?_
        exact ih child (Node.size_lt_of_mem (hsub child hchild)) count
      have hkind : (node.unmarked count).kind = node.kind := Node.kind_unmarked count node
      rcases node.kind_cases with ⟨tagName, descriptors, h⟩ | h | ⟨htag, h⟩
      · have hother : node.kind ≠ .expression := by simp [h]
        rw [settle_of_tag gate (hkind.trans h), lower_of_tag gate count h,
          Node.unmarked_of_ne count hother]
        simp only [List.filterMap_map, removals_map (Node.unmarked_descends count)]
        congr 1
        refine List.filterMap_congr fun child hchild => ?_
        refine settleChild_unmarked gate count _ child fun count smaller hsmaller => ?_
        exact ih smaller (Nat.lt_of_le_of_lt hsmaller (Node.size_lt_of_mem hchild)) count
      · rw [settle_of_not_tag gate (Node.tag_of_expression (hkind.trans h)),
          lower_of_expression gate count h, Node.unmarked_of_expression count h]
        simp only [hall _ fun _ => Node.mem_of_mem_dropMarkers]
      · have htag' : (node.unmarked count).tag ≠ .tagHelper := by rwa [Node.tag, hkind]
        rw [settle_of_not_tag gate htag', lower_of_other gate count htag h,
          Node.unmarked_of_ne count h]
        simp only [hall _ fun _ hc => hc]

/-- A visit is the recursion from the top. -/
theorem settle_eq_lower (gate : Descriptor → Bool) (node : Node) :
    settle gate node = lower gate 0 node := by
  rw [← settle_unmarked, Node.unmarked_zero]

/-- Unless the root is a legacy document, the pass leaves what the recursion from the top gives. -/
theorem outcome_eq_lower (gate : Descriptor → Bool) (logger : Logger) {tree : Node}
    (h : tree.fileKind? ≠ some .legacy) : outcome gate logger tree = lower gate 0 tree := by
  rw [outcome_eq_settle gate logger h, settle_eq_lower]

/-- A component around a template in parentheses, and in the template a plain tag that has one more
such attribute, as well as mixed content. -/
def nestedTemplates : Node :=
  .document .component [
    .tagHelper "Outer" [⟨"Outer", .component⟩] [
      .htmlAttribute "content" [.expression [.token "(", .template [
        .tagHelper "inner" [⟨"inner", .tagHelper⟩] [
          .propertyBinding "content" [.expression [.token "@", .token "(", .template [
            .expression [.token "@", .token "@", .token "@", .token "x"]], .token "", .token ")"]],
          .htmlAttribute "mixed" [.token "a", .expression [.token "@", .token "@"]]]],
        .token "", .token ")"]],
      .htmlAttribute "mixed" [.token "a", .token "b"]]]

theorem outcome_nestedTemplates :
    nestedTemplates.fileKind? ≠ some .legacy ∧
      outcome Descriptor.isComponent (.console .debug) nestedTemplates =
        lower Descriptor.isComponent 0 nestedTemplates :=
  ⟨by decide, outcome_eq_lower Descriptor.isComponent (.console .debug) (by decide)⟩

example : (lower Descriptor.isComponent 0 nestedTemplates).children =
    [{ Node.tagHelper "Outer" [⟨"Outer", .component⟩] [
        .htmlAttribute "content" [.expression [.template [
          .tagHelper "inner" [⟨"inner", .tagHelper⟩] [
            .propertyBinding "content" [.expression [.template [
              .expression [.token "@", .token "x"]]]],
            .htmlAttribute "mixed" [.token "a", .expression [.token "@"]]]]]]] with
      diagnostics := [.unsupportedComplexContent none "mixed"] }] := by
  decide +kernel

end ComplexContent
end ComponentLowering
