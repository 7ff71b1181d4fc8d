import ComponentLowering.Pass.ComplexContent
import ComponentLowering.Proofs.Reading
import Mathlib.Data.List.Basic
/-!
The tree that a visit leaves. `settle` is this tree without the messages, and `settle_of_tag` with
`settle_of_not_tag` say what one step down does: what becomes of a child of a tag follows from its
reading, and all other nodes are only walked through.
-/

namespace ComponentLowering

/-- What becomes of a child of a tag: an attribute may lose parentheses, or be lost if its content
is mixed and the tag is a component. What stays goes on by `go`, a template in parentheses by
`below`. -/
def Reading.survivor (isComponent : Bool) (go below : Node → Node) (child : Node) :
    Reading → Option Node
  | .whole => some (go child)
  | .value expression part => some (child.unwrapped expression (go part))
  | .template expression part => some (child.unwrapped expression (below part))
  | .mixed => if isComponent then none else some (go child)

namespace Node

def removal (binding : Node) : Diagnostic :=
  .unsupportedComplexContent binding.span (binding.attributeName?.getD "")

/-- The reports on the children of a tag, from the last removed attribute to the first. -/
def removals (isComponent : Bool) (count : Nat) (children : List Node) : List Diagnostic :=
  (children.filter fun child => isComponent && (child.reading count).isMixed).reverse.map removal

theorem removals_cons (isComponent : Bool) (count : Nat) (child : Node) (later : List Node) :
    removals isComponent count (child :: later) =
      removals isComponent count later ++
        if isComponent && (child.reading count).isMixed then [child.removal] else [] := by
  simp only [removals, List.filter_cons]
  split
  · rw [List.reverse_cons, List.map_append]; rfl
  · rw [List.append_nil]

end Node

theorem Descends.removal_eq {count : Nat} {f : Node → Node} (h : Descends count f)
    (binding : Node) : (f binding).removal = binding.removal := by
  rw [Node.removal, Node.removal, h.span_eq, Node.attributeName?_congr (h.kind_eq binding)]

namespace ComplexContent

open Node (removals stripMarkers)

/-! ### One tag -/

theorem children_checkChild (isComponent : Bool) (tagName : String) (child : Node)
    (later : Checked) :
    (checkChild isComponent tagName child later).children =
      ((child.reading 0).survivor isComponent id stripMarkers child).toList ++ later.children := by
  unfold checkChild Node.reading
  cases child.attributeName? with
  | none => rfl
  | some name =>
      simp only [Node.classify_eq]
      cases hreading : Reading.ofContent 0 child.children with
      | whole => simp [Node.classified, Reading.survivor, Node.with_children_eq]
      | mixed => cases isComponent <;> rfl
      | _ => rfl

theorem diagnostics_checkChild (isComponent : Bool) (tagName : String) (child : Node)
    (later : Checked) :
    (checkChild isComponent tagName child later).diagnostics = later.diagnostics ++
      if isComponent && (child.reading 0).isMixed then [child.removal] else [] := by
  unfold checkChild Node.reading Node.removal
  cases child.attributeName? with
  | none => simp [Reading.isMixed]
  | some name =>
      simp only [Node.classify_eq]
      cases hreading : Reading.ofContent 0 child.children with
      | mixed => cases isComponent <;> simp [Node.classified, Reading.isMixed]
      | _ => simp [Node.classified, Reading.isMixed]

theorem children_checkChildren (isComponent : Bool) (tagName : String) (children : List Node) :
    (checkChildren isComponent tagName children).children =
      children.filterMap fun child =>
        (child.reading 0).survivor isComponent id stripMarkers child := by
  induction children with
  | nil => rfl
  | cons child later ih =>
      have hstep := children_checkChild isComponent tagName child
        (checkChildren isComponent tagName later)
      rw [ih] at hstep
      rw [List.filterMap_cons]
      refine hstep.trans ?_
      cases (child.reading 0).survivor isComponent id stripMarkers child <;> rfl

theorem diagnostics_checkChildren (isComponent : Bool) (tagName : String) (children : List Node) :
    (checkChildren isComponent tagName children).diagnostics = removals isComponent 0 children := by
  induction children with
  | nil => rfl
  | cons child later ih =>
      have hstep := diagnostics_checkChild isComponent tagName child
        (checkChildren isComponent tagName later)
      rw [ih, ← Node.removals_cons] at hstep
      exact hstep

theorem checkNode_of_tag (gate : Descriptor → Bool) {node : Node} {tagName : String}
    {descriptors : List Descriptor} (h : node.kind = .tagHelper tagName descriptors) :
    (checkNode gate node).1 =
      { node with
        children := node.children.filterMap fun child =>
          (child.reading 0).survivor (descriptors.any gate) id stripMarkers child
        diagnostics := node.diagnostics ++ removals (descriptors.any gate) 0 node.children } := by
  simp only [checkNode, h, children_checkChildren, diagnostics_checkChildren]

theorem checkNode_of_not_tag (gate : Descriptor → Bool) {node : Node} (h : node.tag ≠ .tagHelper) :
    (checkNode gate node).1 = node := by
  unfold checkNode
  split
  · rename_i hkind
    rw [Node.tag, hkind] at h
    exact absurd rfl h
  · rfl

theorem kind_checkNode (gate : Descriptor → Bool) (node : Node) :
    (checkNode gate node).1.kind = node.kind := by
  unfold checkNode
  split <;> rfl

theorem span_checkNode (gate : Descriptor → Bool) (node : Node) :
    (checkNode gate node).1.span = node.span := by
  unfold checkNode
  split <;> rfl

/-! ### A whole visit -/

/-- The tree that a visit leaves. -/
def settle (gate : Descriptor → Bool) (node : Node) : Node :=
  ((visit gate node).run .null).1

theorem fst_run_visit (gate : Descriptor → Bool) (node : Node) (logger : Logger) :
    ((visit gate node).run logger).1 =
      { (checkNode gate node).1 with
        children := (checkNode gate node).1.children.map fun child =>
          ((visit gate child).run logger).1 } := by
  rw [visit]
  simp only [LogM.fst_run_bind, LogM.fst_run_mapM]
  have hmap := List.attach_map_val (l := (checkNode gate node).1.children)
    (f := fun child => ((visit gate child).run logger).1)
  exact congrArg (fun children => { (checkNode gate node).1 with children }) hmap

/-- The logger has no part in the tree. -/
theorem fst_run_visit_eq_settle (gate : Descriptor → Bool) (node : Node) (logger : Logger) :
    ((visit gate node).run logger).1 = settle gate node := by
  induction node using Node.bySize with
  | step node ih =>
      have hchildren : ∀ child ∈ (checkNode gate node).1.children,
          ((visit gate child).run logger).1 = ((visit gate child).run .null).1 := by
        intro child hc
        exact ih child (Nat.lt_of_lt_of_le (Node.size_lt_of_mem hc) (size_checkNode_le gate node))
      rw [settle, fst_run_visit, fst_run_visit, List.map_congr_left hchildren]

theorem settle_eq (gate : Descriptor → Bool) (node : Node) :
    settle gate node =
      { (checkNode gate node).1 with
        children := (checkNode gate node).1.children.map (settle gate) } :=
  fst_run_visit gate node .null

@[simp] theorem kind_settle (gate : Descriptor → Bool) (node : Node) :
    (settle gate node).kind = node.kind := by
  rw [settle_eq]
  exact kind_checkNode gate node

theorem settle_of_not_tag (gate : Descriptor → Bool) {node : Node} (h : node.tag ≠ .tagHelper) :
    settle gate node = { node with children := node.children.map (settle gate) } := by
  rw [settle_eq, checkNode_of_not_tag gate h]

theorem settle_descends (gate : Descriptor → Bool) : Descends 0 (settle gate) where
  kind_eq := kind_settle gate
  span_eq node := by rw [settle_eq]; exact span_checkNode gate node
  expression_eq h := by
    rw [settle_of_not_tag gate (Node.tag_of_expression h), Node.dropMarkers_zero]
  other_eq h _ := settle_of_not_tag gate h

/-- What a visit leaves of a child of a tag. -/
def settleChild (gate : Descriptor → Bool) (isComponent : Bool) (child : Node) : Option Node :=
  (child.reading 0).survivor isComponent (settle gate)
    (fun part => settle gate part.stripMarkers) child

theorem settle_of_tag (gate : Descriptor → Bool) {node : Node} {tagName : String}
    {descriptors : List Descriptor} (h : node.kind = .tagHelper tagName descriptors) :
    settle gate node =
      { node with
        children := node.children.filterMap (settleChild gate (descriptors.any gate))
        diagnostics := node.diagnostics ++ removals (descriptors.any gate) 0 node.children } := by
  rw [settle_eq, checkNode_of_tag gate h]
  simp only [List.map_filterMap]
  congr 1
  refine List.filterMap_congr fun child _ => ?_
  rw [settleChild]
  cases hreading : child.reading 0 with
  | whole => rfl
  | value expression part =>
      obtain ⟨hbinding, _, hexpression, _⟩ := Node.reading_eq_value hreading
      exact congrArg some ((settle_descends gate).map_unwrapped hbinding hexpression part)
  | template expression part =>
      obtain ⟨hbinding, _, hexpression, _⟩ := Node.reading_eq_template hreading
      exact congrArg some
        ((settle_descends gate).map_unwrapped hbinding hexpression part.stripMarkers)
  | mixed => cases descriptors.any gate <;> rfl

section

variable {gate : Descriptor → Bool} {isComponent : Bool} {child kept : Node}

/-- A child that stays reads as one fragment, but for mixed content that a plain tag keeps. -/
theorem reading_settleChild (h : settleChild gate isComponent child = some kept) :
    kept.reading 0 = .whole ∧ (child.reading 0).isMixed = false ∨
      kept.reading 0 = .mixed ∧ (child.reading 0).isMixed = true ∧ isComponent = false := by
  have hsettle : (settle gate child).reading 0 = (child.reading 0).map (settle gate) :=
    (settle_descends gate).reading_eq child
  unfold settleChild at h
  cases hreading : child.reading 0 with
  | whole =>
      rw [hreading] at h hsettle
      cases h
      exact .inl ⟨hsettle, rfl⟩
  | value expression part =>
      rw [hreading] at h
      cases h
      exact .inl ⟨Node.reading_unwrapped (Node.reading_eq_value hreading).2.2.1 _, rfl⟩
  | template expression part =>
      rw [hreading] at h
      cases h
      exact .inl ⟨Node.reading_unwrapped (Node.reading_eq_template hreading).2.2.1 _, rfl⟩
  | mixed =>
      rw [hreading] at h hsettle
      cases isComponent with
      | true => cases h
      | false =>
          cases h
          exact .inr ⟨hsettle, rfl, rfl⟩

theorem removal_settleChild (h : settleChild gate isComponent child = some kept) :
    kept.removal = child.removal := by
  have hsettle : (settle gate child).removal = child.removal :=
    (settle_descends gate).removal_eq child
  unfold settleChild at h
  cases hreading : child.reading 0 with
  | mixed =>
      rw [hreading] at h
      cases isComponent with
      | true => cases h
      | false => cases h; exact hsettle
  | whole => rw [hreading] at h; cases h; exact hsettle
  | _ => rw [hreading] at h; cases h; rfl

theorem settleChild_of_plain (gate : Descriptor → Bool) (child : Node) :
    ∃ kept, settleChild gate false child = some kept := by
  unfold settleChild
  cases child.reading 0 <;> exact ⟨_, rfl⟩

end

/-- What stands in a settled tree below its root was settled by itself. -/
theorem exists_of_at?_settle {gate : Descriptor → Bool} {path : Path} {node found : Node}
    (h : (settle gate node).at? path = some found) : ∃ source, found = settle gate source := by
  induction path generalizing node with
  | nil => exact ⟨node, (Option.some.inj h).symm⟩
  | cons index path ih =>
      rw [settle_eq] at h
      obtain ⟨child, hchild, hfound⟩ := Option.bind_eq_some_iff.mp h
      rw [List.getElem?_map, Option.map_eq_some_iff] at hchild
      obtain ⟨source, _, rfl⟩ := hchild
      exact ih hfound

/-! ### The pass -/

/-- The tree that the pass leaves. -/
def outcome (gate : Descriptor → Bool) (logger : Logger) (tree : Node) : Node :=
  (((Pass.complexContent gate).execute tree).run logger).1

theorem outcome_of_legacy (gate : Descriptor → Bool) (logger : Logger) {tree : Node}
    (h : tree.fileKind? = some .legacy) : outcome gate logger tree = tree := by
  have hexecute : execute gate tree = do
      LogM.debug "skipping complex attribute content check for a legacy document"
      return tree := if_pos h
  exact congrArg (fun run => (run.run logger).1) hexecute

theorem outcome_eq_settle (gate : Descriptor → Bool) (logger : Logger) {tree : Node}
    (h : tree.fileKind? ≠ some .legacy) : outcome gate logger tree = settle gate tree := by
  have hexecute : execute gate tree = visit gate tree := if_neg h
  rw [← fst_run_visit_eq_settle gate tree logger, ← hexecute]
  rfl

end ComplexContent

end ComponentLowering
