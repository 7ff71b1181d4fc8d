import ComponentLowering.Proofs.Compiling
import ComponentLowering.Proofs.Gates
import ComponentLowering.Proofs.Lowering
/-!
Compiling the output of a compilation. The pass may attach reports to a tag, but a report nests no
deeper than the attribute that had to go for it, so that the tree that is left can be read back
whenever the document could (`depth_lower_le`); and a tree that the pass left is one that it leaves
alone. Main statement: the text that `compileFile` emits is compiled to itself, with the same
diagnostics.
-/

namespace ComponentLowering

open Json Json.Reader

/-! ### How deep a node nests -/

namespace Json

theorem depthOfElements_le {elements : List Json} {limit : Nat} :
    depthOfElements elements ≤ limit ↔ ∀ element ∈ elements, element.depth ≤ limit := by
  induction elements with
  | nil => simp [depthOfElements]
  | cons element rest ih => rw [depthOfElements, Nat.max_le, ih, List.forall_mem_cons]

end Json

namespace Node

theorem depthOfMembers_listMember_le {key : String} {elements : List Json} {limit : Nat} :
    depthOfMembers (listMember key elements) ≤ limit ↔
      ∀ element ∈ elements, element.depth < limit := by
  cases elements with
  | nil => simp [listMember, depthOfMembers]
  | cons element rest =>
      have hmember : depthOfMembers (listMember key (element :: rest)) =
          depthOfElements (element :: rest) + 1 := Nat.max_zero _
      rw [hmember]
      constructor
      · intro h other hother
        exact Nat.lt_of_le_of_lt (depthOfElements_le.mp (Nat.le_refl _) other hother) h
      · intro h
        have hpositive : 0 < limit := Nat.lt_of_le_of_lt (Nat.zero_le _) (h element (by simp))
        have hall : depthOfElements (element :: rest) ≤ limit - 1 :=
          depthOfElements_le.mpr fun other hother => Nat.le_sub_one_of_lt (h other hother)
        omega

/-- The parts of a node that its JSON can nest by. -/
theorem depth_toJson_le {node : Node} {limit : Nat} :
    node.toJson.depth ≤ limit + 1 ↔
      depthOfMembers node.kind.toMembers ≤ limit ∧
        (∀ child ∈ node.children, child.toJson.depth < limit) ∧
        (∀ diagnostic ∈ node.diagnostics, diagnostic.toJson.depth < limit) ∧
        depthOfMembers (node.span.map fun span => ("span", span.toJson)).toList ≤ limit := by
  have htag : (Json.str (Named.name node.kind.tag)).depth = 0 := rfl
  rw [toJson_eq, Json.depth, Nat.add_le_add_iff_right]
  simp only [List.cons_append, depthOfMembers, htag, depthOfMembers_append, Nat.max_le,
    Nat.zero_le, true_and, depthOfMembers_listMember_le, toJsonAll_eq_map, List.forall_mem_map,
    and_assoc]

theorem depth_toJson_pos (node : Node) : 0 < node.toJson.depth := by
  rw [toJson_eq]
  exact Nat.succ_pos _

/-- A node nests no deeper than before if none of its children does and each new diagnostic nests no
deeper than some child did. -/
theorem depth_toJson_mono {before after : Node} (hkind : after.kind = before.kind)
    (hspan : after.span = before.span)
    (hchildren : ∀ child' ∈ after.children, ∃ child ∈ before.children,
      child'.toJson.depth ≤ child.toJson.depth)
    (hdiagnostics : ∀ diagnostic ∈ after.diagnostics, diagnostic ∈ before.diagnostics ∨
      ∃ child ∈ before.children, diagnostic.toJson.depth ≤ child.toJson.depth) :
    after.toJson.depth ≤ before.toJson.depth := by
  obtain ⟨limit, hlimit⟩ := Nat.exists_eq_succ_of_ne_zero
    (Nat.ne_of_gt (depth_toJson_pos before))
  obtain ⟨hown, hbelow, hreports, hplace⟩ := depth_toJson_le.mp (Nat.le_of_eq hlimit)
  rw [hlimit]
  refine depth_toJson_le.mpr ⟨by rwa [hkind], ?_, ?_, by rwa [hspan]⟩
  · intro child' hchild'
    obtain ⟨child, hchild, hle⟩ := hchildren child' hchild'
    exact Nat.lt_of_le_of_lt hle (hbelow child hchild)
  · intro diagnostic hdiagnostic
    rcases hdiagnostics diagnostic hdiagnostic with hold | ⟨child, hchild, hle⟩
    · exact hreports diagnostic hold
    · exact Nat.lt_of_le_of_lt hle (hbelow child hchild)

/-! ### What the pass adds -/

theorem depth_removal_le_two (binding : Node) : binding.removal.toJson.depth ≤ 2 := by
  rw [removal]
  cases binding.span with
  | none => exact Nat.le_of_ble_eq_true rfl
  | some span => exact Nat.le_of_ble_eq_true rfl

/-- A report nests no deeper than the attribute it is about, which has content at least. -/
theorem depth_removal_le {count : Nat} {binding : Node}
    (h : (binding.reading count).isMixed = true) :
    binding.removal.toJson.depth ≤ binding.toJson.depth := by
  refine Nat.le_trans (depth_removal_le_two binding) (Nat.le_of_not_lt ?_)
  intro hshallow
  obtain ⟨_, hbelow, _⟩ := depth_toJson_le.mp (Nat.le_of_lt_succ hshallow)
  cases hcontent : binding.children with
  | nil =>
      have hwhole : binding.reading count = .whole := by
        rw [reading, hcontent]
        cases binding.attributeName? <;> rfl
      rw [hwhole] at h
      cases h
  | cons child rest =>
      have hchild : child.toJson.depth < 0 := hbelow child (by simp [hcontent])
      cases hchild

theorem depth_unwrapped_le {binding expression part part' : Node}
    (hchild : binding.children = [expression]) (hpart : part ∈ expression.children)
    (h : part'.toJson.depth ≤ part.toJson.depth) :
    (binding.unwrapped expression part').toJson.depth ≤ binding.toJson.depth := by
  have hexpression : ({ expression with children := [part'] } : Node).toJson.depth ≤
      expression.toJson.depth := by
    refine depth_toJson_mono rfl rfl ?_ fun diagnostic hdiagnostic => .inl hdiagnostic
    intro child' hchild'
    obtain rfl := List.mem_singleton.mp hchild'
    exact ⟨part, hpart, h⟩
  refine depth_toJson_mono rfl rfl ?_ fun diagnostic hdiagnostic => .inl hdiagnostic
  intro child' hchild'
  obtain rfl := List.mem_singleton.mp hchild'
  exact ⟨expression, by simp [hchild], hexpression⟩

end Node

namespace ComplexContent

open Node (depth_toJson_mono)

section

variable {gate : Descriptor → Bool}

theorem depth_lowerChild_le {count : Nat} {isComponent : Bool} {child kept : Node}
    (ih : child.Below (fun count node =>
      (lower gate count node).toJson.depth ≤ node.toJson.depth) count)
    (h : lowerChild gate count isComponent child = some kept) :
    kept.toJson.depth ≤ child.toJson.depth := by
  unfold lowerChild at h
  cases hreading : child.reading count with
  | whole =>
      rw [hreading] at h
      cases h
      exact ih.self
  | value expression part =>
      obtain ⟨hchild, hpart⟩ := Node.part_of_value hreading
      rw [hreading] at h
      cases h
      exact Node.depth_unwrapped_le hchild hpart (ih.value hreading)
  | template expression part =>
      obtain ⟨hchild, hpart⟩ := Node.part_of_template hreading
      rw [hreading] at h
      cases h
      exact Node.depth_unwrapped_le hchild hpart (ih.template hreading)
  | mixed =>
      rw [hreading] at h
      cases isComponent with
      | true => cases h
      | false =>
          cases h
          exact ih.self

/-- The tree that is left nests no deeper than the tree before, reports included. -/
theorem depth_lower_le (count : Nat) (node : Node) :
    (lower gate count node).toJson.depth ≤ node.toJson.depth := by
  induction count, node using Node.byReading with
  | tag count node tagName descriptors h ih =>
      rw [lower_of_tag gate count h]
      refine depth_toJson_mono rfl rfl ?_ ?_
      · intro child' hchild'
        obtain ⟨child, hchild, hkept⟩ := List.mem_filterMap.mp hchild'
        exact ⟨child, hchild, depth_lowerChild_le (ih child hchild) hkept⟩
      · intro diagnostic hdiagnostic
        rcases List.mem_append.mp hdiagnostic with hold | hreport
        · exact .inl hold
        · obtain ⟨binding, hbinding, rfl⟩ := List.mem_map.mp hreport
          obtain ⟨hchild, hmixed⟩ := List.mem_filter.mp (List.mem_reverse.mp hbinding)
          exact .inr ⟨binding, hchild, Node.depth_removal_le (Bool.and_eq_true_iff.mp hmixed).2⟩
  | expression count node h ih =>
      rw [lower_of_expression gate count h]
      refine depth_toJson_mono rfl rfl ?_ fun diagnostic hdiagnostic => .inl hdiagnostic
      intro child' hchild'
      obtain ⟨child, hchild, rfl⟩ := List.mem_map.mp hchild'
      have hmem : child ∈ node.children := Node.mem_of_mem_dropMarkers hchild
      exact ⟨child, hmem, ih child hmem⟩
  | other count node htag h ih =>
      rw [lower_of_other gate count htag h]
      refine depth_toJson_mono rfl rfl ?_ fun diagnostic hdiagnostic => .inl hdiagnostic
      intro child' hchild'
      obtain ⟨child, hchild, rfl⟩ := List.mem_map.mp hchild'
      exact ⟨child, hchild, ih child hchild⟩

end

theorem depth_outcome_le (gate : Descriptor → Bool) (logger : Logger) (tree : Node) :
    (outcome gate logger tree).toJson.depth ≤ tree.toJson.depth := by
  by_cases h : tree.fileKind? = some .legacy
  · exact Nat.le_of_eq (congrArg (fun tree => tree.toJson.depth) (outcome_of_legacy gate logger h))
  · rw [outcome_eq_settle gate logger h, settle_eq_lower]
    exact depth_lower_le 0 tree

theorem outcome_idem (gate : Descriptor → Bool) (logger logger' : Logger) (tree : Node) :
    outcome gate logger' (outcome gate logger tree) = outcome gate logger tree := by
  rw [outcome_outcome gate gate logger logger' logger, either_self]

end ComplexContent

/-! ### From file to file -/

namespace Compilation

open ComplexContent

/-- What `compileFile` emits for a document reads back as the tree that was left, and is compiled to
itself wherever it is put, as long as the document itself could be read back. -/
theorem compileFile_emitted (gate : Descriptor → Bool) (logger : Logger) {files : Files}
    {path : FileName} {document : Node} {layout : Layout}
    (hload : Node.load files path = .ok document)
    (hnesting : nesting (document.render layout) ≤ depthLimit) :
    let tree := (((Pipeline.single gate).run document).run logger).1
    nesting (tree.render layout) ≤ nesting (document.render layout) ∧
      ∃ diagnostics text,
        ((compileFile files (.single gate) true path).run logger).1 = .ok ⟨diagnostics, some text⟩ ∧
          Node.documentOfText text = .ok tree ∧ tree.allDiagnostics = diagnostics ∧
          ∀ (files' : Files) (path' : FileName) (logger' : Logger),
            files'.read path' = .ok text →
              ((compileFile files' (.single gate) true path').run logger').1 =
                .ok ⟨diagnostics, some text⟩ := by
  intro tree
  have htree : tree = outcome gate logger document := Pipeline.fst_run_single gate logger document
  obtain ⟨fileKind, place, hdocument⟩ := Node.kind_of_load hload
  have hkind : tree.kind = .document fileKind (some place) := by
    rw [htree, kind_outcome, hdocument]
  have hdepth : tree.toJson.depth ≤ document.toJson.depth := by
    rw [htree]
    exact depth_outcome_le gate logger document
  have hlimit : nesting (tree.render .indented) ≤ depthLimit := by
    rw [Node.nesting_render] at hnesting ⊢
    exact Nat.le_trans hdepth hnesting
  refine ⟨?_, tree.allDiagnostics, tree.render .indented, ?_, ?_, rfl, ?_⟩
  · rw [Node.nesting_render, Node.nesting_render]
    exact hdepth
  · rw [fst_run_compileFile_of_ok gate true logger hload, htree]
    rfl
  · exact Node.documentOfText_render hkind hlimit
  · intro files' path' logger' hread
    have hload' : Node.load files' path' = .ok tree := Node.load_of_render hkind hlimit hread
    have hagain : outcome gate logger' tree = tree := by rw [htree, outcome_idem]
    rw [fst_run_compileFile_of_ok gate true logger' hload', hagain]
    rfl

theorem compileFile_nestedTemplates :
    ∃ text,
      ((compileFile (Entry.single "in" ((nestedTemplates.withFilePath "/work/in").render .compact))
          .standard true ⟨"/work/in"⟩).run .null).1 =
        .ok ⟨[.unsupportedComplexContent none "mixed"], some text⟩ ∧
      ((compileFile (Entry.single "out" text) .standard true ⟨"../work/out"⟩).run .null).1 =
        .ok ⟨[.unsupportedComplexContent none "mixed"], some text⟩ := by
  have hnesting : nesting ((nestedTemplates.withFilePath "/work/in").render .compact) ≤
      depthLimit := by
    rw [Node.nesting_render]
    decide +kernel
  have hload : Node.load
      (Entry.single "in" ((nestedTemplates.withFilePath "/work/in").render .compact))
      ⟨"/work/in"⟩ = .ok (nestedTemplates.withFilePath "/work/in") :=
    Node.load_of_render rfl hnesting (FileTree.read_of_locate rfl)
  obtain ⟨_, diagnostics, text, hemitted, _, hdiagnostics, hagain⟩ :=
    compileFile_emitted Descriptor.isComponent .null hload hnesting
  have hreport : diagnostics = [.unsupportedComplexContent none "mixed"] := by
    rw [← hdiagnostics, Pipeline.fst_run_single]
    decide +kernel
  rw [← hreport]
  refine ⟨text, hemitted, ?_⟩
  exact hagain (Entry.single "out" text) ⟨"../work/out"⟩ .null (FileTree.read_of_locate rfl)

end Compilation

end ComponentLowering
