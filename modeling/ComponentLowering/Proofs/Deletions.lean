import ComponentLowering.Proofs.Lowering
/-!
What the pass takes away. `Accounted` relates a tree to what is left of it: nodes keep their kinds,
places and order, only attributes of components and the punctuation of expressions may be missing,
and every missing attribute was reported. The recursion from the top (`lower`) leaves such a tree,
by induction on its size.
-/

namespace ComponentLowering
namespace ComplexContent

open Node (dropMarkers removal)

mutual

/-- `Accounted gate before after`: whatever `after` lacks was allowed to go. A tag reports the
attributes it lost, from the last to the first; no other node is given diagnostics. -/
inductive Accounted (gate : Descriptor → Bool) : Node → Node → Prop
  | tag {before after : Node} {tagName : String} {descriptors : List Descriptor}
      {removed : List Node} :
      before.kind = .tagHelper tagName descriptors →
      after.kind = before.kind → after.span = before.span →
      after.diagnostics = before.diagnostics ++ removed.reverse.map removal →
      Survivors gate before.kind before.children after.children removed →
      Accounted gate before after
  | other {before after : Node} :
      before.tag ≠ .tagHelper →
      after.kind = before.kind → after.span = before.span →
      after.diagnostics = before.diagnostics →
      Survivors gate before.kind before.children after.children [] →
      Accounted gate before after

/-- `Survivors gate parent before after removed`: of the children `before` of a node of kind
`parent` those in `after` are left, in order, and `removed` are the attributes among the others. -/
inductive Survivors (gate : Descriptor → Bool) :
    Kind → List Node → List Node → List Node → Prop
  | nil {parent : Kind} : Survivors gate parent [] [] []
  | kept {parent : Kind} {child child' : Node} {rest rest' removed : List Node} :
      Accounted gate child child' → Survivors gate parent rest rest' removed →
      Survivors gate parent (child :: rest) (child' :: rest') removed
  | binding {tagName : String} {descriptors : List Descriptor} {child : Node}
      {rest rest' removed : List Node} :
      descriptors.any gate → child.attributeName?.isSome →
      Survivors gate (.tagHelper tagName descriptors) rest rest' removed →
      Survivors gate (.tagHelper tagName descriptors) (child :: rest) rest' (child :: removed)
  | punctuation {child : Node} {content : String} {tokenKind : TokenKind}
      {rest rest' : List Node} :
      child.kind = .token content tokenKind → content ∈ ["(", ")", "", "@"] →
      Survivors gate .expression rest rest' [] →
      Survivors gate .expression (child :: rest) rest' []

end

section

variable {gate : Descriptor → Bool}

theorem survivors_map {f : Node → Node} {parent : Kind} {nodes : List Node}
    (h : ∀ node ∈ nodes, Accounted gate node (f node)) :
    Survivors gate parent nodes (nodes.map f) [] := by
  induction nodes with
  | nil => exact .nil
  | cons node rest ih =>
      exact .kept (h node (by simp)) (ih fun later hl => h later (List.mem_cons_of_mem node hl))

theorem kind_of_isToken {node : Node} {content : String} (h : node.isToken content) :
    ∃ tokenKind, node.kind = .token content tokenKind := by
  unfold Node.isToken Node.tokenContent? at h
  cases hkind : node.kind with
  | token found tokenKind =>
      rw [hkind] at h
      exact ⟨tokenKind, by rw [Option.some.inj (of_decide_eq_true h)]⟩
  | _ => rw [hkind] at h; cases h

theorem Survivors.token {child : Node} {content : String} {rest rest' : List Node}
    (h : child.isToken content) (hcontent : content ∈ ["(", ")", "", "@"])
    (later : Survivors gate .expression rest rest' []) :
    Survivors gate .expression (child :: rest) rest' [] := by
  obtain ⟨tokenKind, hkind⟩ := kind_of_isToken h
  exact .punctuation hkind hcontent later

theorem Survivors.markers {count : Nat} {nodes after : List Node}
    (h : Survivors gate .expression (dropMarkers count nodes) after []) :
    Survivors gate .expression nodes after [] := by
  induction count generalizing nodes with
  | zero => rwa [Node.dropMarkers_zero] at h
  | succ count ih =>
      cases nodes with
      | nil => rwa [Node.dropMarkers_nil] at h
      | cons first rest =>
          rw [Node.dropMarkers_succ_cons] at h
          by_cases hmarker : first.isToken "@"
          · rw [if_pos hmarker] at h
            exact .token hmarker (by simp) (ih h)
          · rwa [if_neg hmarker] at h

/-- Nothing is lost around an expression that keeps one of its parts. -/
theorem accounted_unwrapped {binding expression part : Node}
    (hbinding : binding.attributeName?.isSome) (hchild : binding.children = [expression])
    (hkind : expression.kind = .expression)
    (h : Survivors gate .expression expression.children [part] []) :
    Accounted gate binding (binding.unwrapped expression part) := by
  have hexpression : Accounted gate expression { expression with children := [part] } :=
    .other (Node.tag_of_expression hkind) rfl rfl rfl (by rwa [hkind])
  refine .other (Node.kind_of_attribute hbinding).1 rfl rfl rfl ?_
  rw [hchild]
  exact .kept hexpression .nil

theorem survivors_of_parenthesized {parts : List Node} {part part' : Node}
    (h : Parenthesized parts part) (hpart : Accounted gate part part') :
    Survivors gate .expression parts [part'] [] := by
  obtain ⟨opening, closing, rfl, hopening, hclosing⟩ := h
  exact .token hopening (by simp) (.kept hpart (.token hclosing (by simp) .nil))

theorem survivors_of_parenthesizedTemplate {parts : List Node} {part part' : Node}
    (h : ParenthesizedTemplate parts part) (hpart : Accounted gate part part') :
    Survivors gate .expression parts [part'] [] := by
  obtain ⟨opening, empty, closing, rfl, hopening, _, hempty, hclosing⟩ := h
  exact .token hopening (by simp)
    (.kept hpart (.token hempty (by simp) (.token hclosing (by simp) .nil)))

/-- One child of a tag: `lower` keeps it, less what may go, or drops it and reports it. -/
theorem lowerChild_cases (count : Nat) (isComponent : Bool) (child : Node)
    (ih : ∀ (count : Nat) (smaller : Node), smaller.size ≤ child.size →
      Accounted gate smaller (lower gate count smaller)) :
    (∃ kept, lowerChild gate count isComponent child = some kept ∧ Accounted gate child kept ∧
        (isComponent && (child.reading count).isMixed) = false) ∨
      lowerChild gate count isComponent child = none ∧ isComponent = true ∧
        child.attributeName?.isSome ∧ (child.reading count).isMixed = true := by
  have hself := ih count child (Nat.le_refl _)
  unfold lowerChild
  cases hreading : child.reading count with
  | whole => exact .inl ⟨lower gate count child, rfl, hself, Bool.and_false _⟩
  | value expression part =>
      obtain ⟨hbinding, hchild, hkind, hparts⟩ := Node.reading_eq_value hreading
      have hpart := ih count part (Nat.le_of_lt (Node.size_of_value hreading))
      have hsurvivors : Survivors gate .expression expression.children [lower gate count part] [] :=
        (survivors_of_parenthesized hparts hpart).markers
      exact .inl ⟨_, rfl, accounted_unwrapped hbinding hchild hkind hsurvivors, Bool.and_false _⟩
  | template expression part =>
      obtain ⟨hbinding, hchild, hkind, hparts⟩ := Node.reading_eq_template hreading
      have hpart := ih (count + 1) part (Nat.le_of_lt (Node.size_of_template hreading))
      have hsurvivors :
          Survivors gate .expression expression.children [lower gate (count + 1) part] [] :=
        (survivors_of_parenthesizedTemplate hparts hpart).markers
      exact .inl ⟨_, rfl, accounted_unwrapped hbinding hchild hkind hsurvivors, Bool.and_false _⟩
  | mixed =>
      cases isComponent with
      | true =>
          have hread : child.reading count ≠ .whole := by simp [hreading]
          exact .inr ⟨rfl, rfl, Node.attribute_of_reading hread, rfl⟩
      | false => exact .inl ⟨lower gate count child, rfl, hself, rfl⟩

/-- The children of a tag: what `lower` does not keep is what it reports. -/
theorem survivors_lowerChild (count : Nat) (tagName : String) (descriptors : List Descriptor)
    (children : List Node)
    (ih : ∀ child ∈ children, ∀ (count : Nat) (smaller : Node), smaller.size ≤ child.size →
      Accounted gate smaller (lower gate count smaller)) :
    Survivors gate (.tagHelper tagName descriptors) children
      (children.filterMap (lowerChild gate count (descriptors.any gate)))
      (children.filter fun child => descriptors.any gate && (child.reading count).isMixed) := by
  induction children with
  | nil => exact .nil
  | cons child later ihLater =>
      have hlater := ihLater fun other ho => ih other (List.mem_cons_of_mem child ho)
      rcases lowerChild_cases count (descriptors.any gate) child (ih child (by simp)) with
        ⟨kept, hkept, haccounted, hunreported⟩ | ⟨hnone, hcomponent, hbinding, hmixed⟩
      · rw [List.filterMap_cons_some hkept, List.filter_cons_of_neg (by rw [hunreported]; simp)]
        exact .kept haccounted hlater
      · rw [List.filterMap_cons_none hnone,
          List.filter_cons_of_pos (by rw [hcomponent, hmixed]; rfl)]
        exact .binding hcomponent hbinding hlater

theorem lower_accounted (count : Nat) (node : Node) :
    Accounted gate node (lower gate count node) := by
  induction node using Node.bySize generalizing count with
  | step node ih =>
      have hall : ∀ child ∈ node.children, Accounted gate child (lower gate count child) :=
        fun child hchild => ih child (Node.size_lt_of_mem hchild) count
      rcases node.kind_cases with ⟨tagName, descriptors, h⟩ | h | ⟨htag, h⟩
      · rw [lower_of_tag gate count h]
        refine .tag h rfl rfl rfl ?_
        rw [h]
        refine survivors_lowerChild count tagName descriptors node.children ?_
        intro child hchild count smaller hsmaller
        exact ih smaller (Nat.lt_of_le_of_lt hsmaller (Node.size_lt_of_mem hchild)) count
      · rw [lower_of_expression gate count h]
        refine .other (Node.tag_of_expression h) rfl rfl rfl ?_
        rw [h]
        refine .markers (survivors_map fun child hchild => ?_)
        exact hall child (Node.mem_of_mem_dropMarkers hchild)
      · rw [lower_of_other gate count htag h]
        exact .other htag rfl rfl rfl (survivors_map hall)

theorem Accounted.refl (node : Node) : Accounted gate node node := by
  induction node using Node.bySize with
  | step node ih =>
      have hall : ∀ parent : Kind, Survivors gate parent node.children node.children [] := by
        intro parent
        have hmap : Survivors gate parent node.children (node.children.map id) [] :=
          survivors_map fun child hchild => ih child (Node.size_lt_of_mem hchild)
        rwa [List.map_id] at hmap
      rcases node.kind_cases with ⟨tagName, descriptors, h⟩ | h | ⟨htag, _⟩
      · exact .tag h rfl rfl (List.append_nil _).symm (hall _)
      · exact .other (Node.tag_of_expression h) rfl rfl rfl (hall _)
      · exact .other htag rfl rfl rfl (hall _)

end

/-- The pass deletes only attributes of components, which it reports, and punctuation of
expressions; of a legacy document it deletes nothing. -/
theorem outcome_accounted (gate : Descriptor → Bool) (logger : Logger) (tree : Node) :
    Accounted gate tree (outcome gate logger tree) ∧
      (tree.fileKind? = some .legacy → outcome gate logger tree = tree) := by
  refine ⟨?_, outcome_of_legacy gate logger⟩
  by_cases h : tree.fileKind? = some .legacy
  · rw [outcome_of_legacy gate logger h]
    exact .refl tree
  · rw [outcome_eq_settle gate logger h, settle_eq_lower]
    exact lower_accounted 0 tree

/-- An attribute is deleted and reported, and nothing at all where the same content is legacy. -/
theorem outcome_accounted_templates :
    Accounted Descriptor.isComponent nestedTemplates
        (outcome Descriptor.isComponent .null nestedTemplates) ∧
      (outcome Descriptor.isComponent .null nestedTemplates).allDiagnostics =
        [.unsupportedComplexContent none "mixed"] ∧
      outcome Descriptor.isComponent .null
          { nestedTemplates with kind := .document .legacy none } =
        { nestedTemplates with kind := .document .legacy none } := by
  have hlegacy : ({ nestedTemplates with kind := .document .legacy none } : Node).fileKind? =
      some .legacy := rfl
  refine ⟨(outcome_accounted Descriptor.isComponent .null nestedTemplates).1, ?_, ?_⟩
  · decide +kernel
  · exact (outcome_accounted Descriptor.isComponent .null _).2 hlegacy

end ComplexContent
end ComponentLowering
