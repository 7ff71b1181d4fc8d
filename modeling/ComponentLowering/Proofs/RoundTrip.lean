import ComponentLowering.Proofs.Decoding
import ComponentLowering.Proofs.Nesting
/-!
Reading back what was written. Decoding the JSON of a span, a diagnostic or a node gives it again
unless the JSON opens too many brackets at once (`Node.decode_toJson`). Main statement: that is also
what becomes of the text, and the limit can be read off the text.
-/

namespace ComponentLowering

open Json Json.Reader

/-! ### Whole numbers -/

namespace Json

theorem isWhole_natural (n : UInt64) : (natural n.toNat).isWhole := by
  have hn := n.toNat_lt
  refine decide_eq_true ⟨?_, ?_⟩
  · exact Int.le_trans (by decide) (Int.natCast_nonneg n.toNat)
  · exact Int.ofNat_le.mpr (Nat.le_pred_of_lt hn)

theorem isWholeMembers_append (members more : List (String × Json)) :
    isWholeMembers (members ++ more) = (isWholeMembers members && isWholeMembers more) := by
  induction members with
  | nil => rfl
  | cons m rest ih => simp [isWholeMembers, ih, Bool.and_assoc]

theorem isWholeElements_iff {elements : List Json} :
    isWholeElements elements ↔ ∀ element ∈ elements, element.isWhole := by
  induction elements with
  | nil => simp [isWholeElements]
  | cons element rest ih => simp [isWholeElements, ih]

theorem depthOfMembers_append (members more : List (String × Json)) :
    depthOfMembers (members ++ more) = max (depthOfMembers members) (depthOfMembers more) := by
  induction members with
  | nil => simp [depthOfMembers]
  | cons m rest ih => simp [depthOfMembers, ih, Nat.max_assoc]

theorem asNatural_natural (n : UInt64) : (natural n.toNat).asNatural = .ok n := by
  simp [natural, asNatural]

theorem depth_natural (n : Nat) : (natural n).depth = 0 := rfl

theorem variantOfName_name {α : Type} [Named α] (a : α) :
    Json.variantOfName (Named.name a) = .ok a := by
  rw [Json.variantOfName, Named.ofName?_name]

end Json

theorem Span.isWhole_toJson (span : Span) : span.toJson.isWhole := by
  simp [Span.toJson, isWhole, isWholeMembers, isWhole_natural]

theorem Descriptor.isWhole_toJson (descriptor : Descriptor) : descriptor.toJson.isWhole := rfl

theorem Diagnostic.isWhole_toJson (diagnostic : Diagnostic) : diagnostic.toJson.isWhole := by
  obtain ⟨code, severity, message, span⟩ := diagnostic
  cases span with
  | none => rfl
  | some span => simp [Diagnostic.toJson, isWhole, isWholeMembers, span.isWhole_toJson]

/-! ### Spans, diagnostics and descriptors -/

theorem Span.decode_toJson (span : Span) (limit : Nat) :
    Span.decode limit span.toJson = limited limit span.toJson.depth span := by
  cases limit with
  | zero => rfl
  | succ limit =>
      simp [Span.decode, Span.toJson, decodeRecord, Draft.decodeMember, decodeOnce, asString,
        asNatural_natural, Draft.decodeComplete, Json.required, Json.depth, depthOfMembers,
        depth_natural]

theorem Diagnostic.decode_toJson (diagnostic : Diagnostic) (limit : Nat) :
    Diagnostic.decode limit diagnostic.toJson =
      limited limit diagnostic.toJson.depth diagnostic := by
  cases limit with
  | zero => rfl
  | succ limit =>
      obtain ⟨code, severity, message, span⟩ := diagnostic
      cases span with
      | none =>
          simp [Diagnostic.decode, Diagnostic.toJson, decodeRecord, Draft.decodeMember, decodeOnce,
            asString, decodeVariant, variantOfName_name, Draft.decodeComplete, Json.required,
            Json.depth, depthOfMembers]
      | some span =>
          have hspan : decodeOptional (Span.decode limit) span.toJson =
              limited limit span.toJson.depth (some span) := by
            rw [← limited_map, ← Span.decode_toJson]
            rfl
          simp only [decode, decodeRecord, toJson, Option.map_some, Option.toList_some,
            List.cons_append, List.nil_append, List.foldlM_cons, Draft.decodeMember, decodeOnce,
            Option.isSome_none, Bool.false_eq_true, if_false, decodeVariant, variantOfName_name,
            faulty_ok, Except.map_ok, pure_eq_ok, bind_ok_comp, asString, hspan, limited_map,
            List.foldlM_nil, bind_ok, bind_map_left, ok_bind, Draft.decodeComplete, Json.required,
            Json.depth, depthOfMembers, Nat.zero_le, Nat.max_eq_left, Nat.max_eq_right,
            limited_succ]
          refine limited_bind_of_ok ?_
          rfl

theorem Descriptor.ofJson_toJson (descriptor : Descriptor) :
    Descriptor.ofJson descriptor.toJson = .ok descriptor := by
  simp [Descriptor.ofJson, Descriptor.toJson, Draft.takeMember, Json.once, asString, asVariant,
    variantOfName_name, Json.required, Except.map]

/-! ### Nodes -/

theorem Kind.isWhole_toMembers (kind : Kind) : isWholeMembers kind.toMembers := by
  cases kind with
  | document fileKind filePath => cases filePath <;> rfl
  | tagHelper tagName descriptors =>
      have hdescriptors : isWholeElements (descriptors.map Descriptor.toJson) := by
        refine isWholeElements_iff.mpr ?_
        intro element he
        obtain ⟨descriptor, _, rfl⟩ := List.mem_map.mp he
        exact descriptor.isWhole_toJson
      simp [Kind.toMembers, isWholeMembers, isWhole, hdescriptors]
  | _ => rfl

namespace Node

theorem isWhole_listMember {key : String} {elements : List Json} (h : isWholeElements elements) :
    isWholeMembers (listMember key elements) := by
  cases elements with
  | nil => rfl
  | cons element rest => simpa [listMember, isWholeMembers, isWhole] using h

mutual

theorem isWhole_toJson (node : Node) : node.toJson.isWhole := by
  match node with
  | ⟨kind, children, diagnostics, span⟩ =>
    have hdiagnostics : isWholeElements (diagnostics.map Diagnostic.toJson) := by
      refine isWholeElements_iff.mpr ?_
      intro element he
      obtain ⟨diagnostic, _, rfl⟩ := List.mem_map.mp he
      exact diagnostic.isWhole_toJson
    have hspan : isWholeMembers (span.map fun span => ("span", span.toJson)).toList := by
      cases span with
      | none => rfl
      | some span => simp [isWholeMembers, span.isWhole_toJson]
    simp [toJson, isWhole, isWholeMembers, isWholeMembers_append, kind.isWhole_toMembers,
      isWhole_listMember (isWhole_toJsonAll children), isWhole_listMember hdiagnostics, hspan]
termination_by structural node

theorem isWhole_toJsonAll (nodes : List Node) : isWholeElements (toJsonAll nodes) := by
  match nodes with
  | [] => rfl
  | node :: rest =>
    simp [toJsonAll, isWholeElements, isWhole_toJson node, isWhole_toJsonAll rest]
termination_by structural nodes

end

end Node

theorem Descriptor.asList_toJson (descriptors : List Descriptor) :
    asList Descriptor.ofJson (.arr (descriptors.map Descriptor.toJson)) = .ok descriptors := by
  rw [asList]
  induction descriptors with
  | nil => rfl
  | cons descriptor rest ih =>
      rw [List.map_cons, List.mapM_cons, Descriptor.ofJson_toJson, ok_bind, ih]
      rfl

theorem Tag.ofMembers_toMembers (kind : Kind) :
    Tag.ofMembers (("kind", .str (Named.name kind.tag)) :: kind.toMembers) = .ok kind.tag := by
  have hkind : ∀ tag : Tag, Tag.ofJson (.str (Named.name tag)) = .ok tag := variantOfName_name
  cases kind with
  | document fileKind filePath =>
      cases filePath <;>
        simp [Tag.ofMembers, Json.once, hkind, Except.map, Kind.toMembers, Json.required]
  | _ => simp [Tag.ofMembers, Json.once, hkind, Except.map, Kind.toMembers, Json.required]

theorem Kind.ofMembers_toMembers (kind : Kind) :
    Kind.ofMembers (("kind", .str (Named.name kind.tag)) :: kind.toMembers) = .ok kind := by
  rw [Kind.ofMembers, Tag.ofMembers_toMembers, ok_bind]
  cases kind with
  | document fileKind filePath =>
      cases filePath <;>
        simp [Kind.toMembers, Kind.tag, KindDraft.takeMember, Json.once, asVariant, asOptional,
          asString, variantOfName_name, Except.map, KindDraft.complete]
  | tagHelper tagName descriptors =>
      simp [Kind.toMembers, Kind.tag, KindDraft.takeMember, Json.once, asString,
        Descriptor.asList_toJson, Except.map, KindDraft.complete, Json.required]
  | _ =>
      simp [Kind.toMembers, Kind.tag, KindDraft.takeMember, Json.once, asString, asVariant,
        variantOfName_name, Except.map, KindDraft.complete, Json.required]

namespace Node

theorem toJson_eq (node : Node) :
    node.toJson = .obj (
      ("kind", .str (Named.name node.kind.tag)) :: node.kind.toMembers ++
        listMember "children" (toJsonAll node.children) ++
        listMember "diagnostics" (node.diagnostics.map Diagnostic.toJson) ++
        (node.span.map fun span => ("span", span.toJson)).toList) := by
  cases node
  rfl

theorem toJsonAll_eq_map (nodes : List Node) : toJsonAll nodes = nodes.map toJson := by
  induction nodes with
  | nil => rfl
  | cons node rest ih => rw [toJsonAll, ih, List.map_cons]

/-- Members are decoded one after the other, and the deepest of them all has to fit. -/
theorem foldlM_append {σ : Type} {step : σ → String × Json → Except ReadError.Cause σ}
    {limit : Nat} {members more : List (String × Json)} {s s' s'' : σ}
    (h : members.foldlM step s = limited limit (depthOfMembers members) s')
    (hmore : more.foldlM step s' = limited limit (depthOfMembers more) s'') :
    (members ++ more).foldlM step s = limited limit (depthOfMembers (members ++ more)) s'' := by
  rw [List.foldlM_append, h, depthOfMembers_append]
  exact limited_bind hmore

/-- The names of the members that are not stored when a node is read. -/
def fieldNames : List String :=
  ["children", "diagnostics", "span"]

/-- Members of other names are stored in their order. -/
theorem foldlM_stored (limit : Nat) (children : Json → Except ReadError.Cause (List Node))
    {members : List (String × Json)} (h : ∀ m ∈ members, m.1 ∉ fieldNames) (draft : Draft) :
    members.foldlM (Draft.decodeMember limit children) draft =
      limited limit (depthOfMembers members)
        { draft with stored := members.reverse ++ draft.stored } := by
  induction members generalizing draft with
  | nil => rfl
  | cons m rest ih =>
      obtain ⟨hm, hrest⟩ := List.forall_mem_cons.mp h
      simp only [fieldNames, List.mem_cons, List.not_mem_nil, or_false, not_or] at hm
      obtain ⟨hchildren, hdiagnostics, hspan⟩ := hm
      have hstep : Draft.decodeMember limit children draft m =
          limited limit m.2.depth { draft with stored := m :: draft.stored } := by
        unfold Draft.decodeMember
        split <;> first | contradiction | rfl
      rw [List.foldlM_cons, hstep, List.reverse_cons, List.append_assoc]
      exact limited_bind (ih hrest _)

theorem stored_kind (kind : Kind) :
    ∀ m ∈ ("kind", .str (Named.name kind.tag)) :: kind.toMembers, m.1 ∉ fieldNames := by
  cases kind with
  | document fileKind filePath => cases filePath <;> simp [Kind.toMembers, fieldNames]
  | _ => simp [Kind.toMembers, fieldNames]

/-- A list of which all elements are read back is read back. -/
theorem decodeList_map {α : Type} {encode : α → Json} {decode : Json → Except ReadError.Cause α}
    {limit : Nat} (h : ∀ a, decode (encode a) = limited limit (encode a).depth a) (as : List α) :
    decodeList (some decode) (.arr (as.map encode)) =
      limited limit (depthOfElements (as.map encode)) as := by
  rw [decodeList]
  induction as with
  | nil => rfl
  | cons a rest ih =>
      simp only [List.map_cons, List.mapM_cons, h, ih, pure_eq_ok, bind_ok_comp, limited_map]
      exact limited_bind rfl

theorem decodeDiagnostics_toJson (limit : Nat) (diagnostics : List Diagnostic) :
    decodeDiagnostics limit (.arr (diagnostics.map Diagnostic.toJson)) =
      limited limit (Json.depth (.arr (diagnostics.map Diagnostic.toJson))) diagnostics := by
  cases limit with
  | zero => rfl
  | succ limit =>
      rw [Json.depth, limited_succ]
      exact decodeList_map (fun diagnostic => diagnostic.decode_toJson limit) diagnostics

/-- The children of a draft, once a node with such children was read. -/
def found {α : Type} (list : List α) : Option (List α) :=
  if list.isEmpty then none else some list

theorem getD_found {α : Type} (list : List α) : (found list).getD [] = list := by
  cases list <;> rfl

theorem foldlM_children {limit : Nat} {decodeChildren : Json → Except ReadError.Cause (List Node)}
    {nodes : List Node} (h : decodeChildren (.arr (toJsonAll nodes)) =
      limited limit (Json.depth (.arr (toJsonAll nodes))) nodes)
    (stored : List (String × Json)) :
    (listMember "children" (toJsonAll nodes)).foldlM (Draft.decodeMember limit decodeChildren)
        { stored := stored } =
      limited limit (depthOfMembers (listMember "children" (toJsonAll nodes)))
        { stored := stored, children := found nodes } := by
  cases nodes with
  | nil => rfl
  | cons node rest =>
      rw [toJsonAll] at h ⊢
      simp [listMember, Draft.decodeMember, decodeOnce, h, depthOfMembers, found]

theorem foldlM_diagnostics (limit : Nat)
    (decodeChildren : Json → Except ReadError.Cause (List Node)) (diagnostics : List Diagnostic)
    (stored : List (String × Json)) (children : Option (List Node)) :
    (listMember "diagnostics" (diagnostics.map Diagnostic.toJson)).foldlM
        (Draft.decodeMember limit decodeChildren) { stored := stored, children := children } =
      limited limit
        (depthOfMembers (listMember "diagnostics" (diagnostics.map Diagnostic.toJson)))
        { stored := stored, children := children, diagnostics := found diagnostics } := by
  have h := decodeDiagnostics_toJson limit diagnostics
  cases diagnostics with
  | nil => rfl
  | cons diagnostic rest =>
      rw [List.map_cons] at h ⊢
      simp [listMember, Draft.decodeMember, decodeOnce, h, depthOfMembers, found]

theorem foldlM_span (limit : Nat) (decodeChildren : Json → Except ReadError.Cause (List Node))
    (span : Option Span) (stored : List (String × Json)) (children : Option (List Node))
    (diagnostics : Option (List Diagnostic)) :
    (span.map fun span => ("span", span.toJson)).toList.foldlM
        (Draft.decodeMember limit decodeChildren)
        { stored := stored, children := children, diagnostics := diagnostics } =
      limited limit (depthOfMembers (span.map fun span => ("span", span.toJson)).toList)
        { stored := stored, children := children, diagnostics := diagnostics,
          span := span.map some } := by
  cases span with
  | none => rfl
  | some span =>
      have hspan : decodeOptional (Span.decode limit) span.toJson =
          limited limit span.toJson.depth (some span) := by
        rw [← limited_map, ← Span.decode_toJson]
        rfl
      simp [Draft.decodeMember, decodeOnce, hspan, depthOfMembers]

theorem decodeComplete_toJson (node : Node) :
    Draft.decodeComplete {
      stored := (("kind", .str (Named.name node.kind.tag)) :: node.kind.toMembers).reverse,
      children := found node.children, diagnostics := found node.diagnostics,
      span := node.span.map some } = .ok node := by
  obtain ⟨kind, children, diagnostics, span⟩ := node
  rw [Draft.decodeComplete, List.reverse_reverse, getD_found, getD_found]
  rw [Kind.ofMembers_toMembers]
  cases span <;> rfl

/-- Decoding the JSON of a node gives the node, unless too many brackets are open in it. -/
theorem decode_toJson (limit : Nat) (node : Node) :
    decode limit node.toJson = limited limit node.toJson.depth node := by
  induction limit using Nat.strongRecOn generalizing node with
  | ind limit ih =>
      rw [toJson_eq]
      cases limit with
      | zero => rfl
      | succ limit =>
          have hchildren : decodeChildren limit (.arr (toJsonAll node.children)) =
              limited limit (Json.depth (.arr (toJsonAll node.children))) node.children := by
            cases limit with
            | zero => rfl
            | succ limit =>
                rw [Json.depth, limited_succ, toJsonAll_eq_map]
                exact decodeList_map (ih limit (by omega)) node.children
          have hkind := foldlM_stored limit (decodeChildren limit) (stored_kind node.kind) {}
          have hwithChildren := foldlM_append hkind (foldlM_children hchildren _)
          have hwithDiagnostics :=
            foldlM_append hwithChildren (foldlM_diagnostics limit _ node.diagnostics _ _)
          have hall := foldlM_append hwithDiagnostics (foldlM_span limit _ node.span _ _ _)
          have hcomplete := decodeComplete_toJson node
          rw [← List.append_nil (List.reverse _)] at hcomplete
          rw [Json.depth, limited_succ, decode_obj, hall]
          exact limited_bind_of_ok hcomplete

/-! ### Texts -/

theorem nesting_render (node : Node) (layout : Layout) :
    nesting (node.render layout) = node.toJson.depth :=
  ComponentLowering.nesting_render node.isWhole_toJson layout

theorem ofText_render_of_le {node : Node} {layout : Layout}
    (h : nesting (node.render layout) ≤ depthLimit) : ofText (node.render layout) = .ok node := by
  have hcause := ofText_render node.isWhole_toJson layout
  rw [decode_toJson, ← nesting_render node layout, limited_of_le h] at hcause
  cases hread : ofText (node.toJson.render layout) with
  | ok root => rw [hread] at hcause; cases hcause; exact hread
  | error error => rw [hread] at hcause; cases hcause

theorem ofText_render_of_lt {node : Node} {layout : Layout}
    (h : depthLimit < nesting (node.render layout)) :
    ∃ error, ofText (node.render layout) = .error error ∧ error.cause = .malformed .tooDeep := by
  have hcause := ofText_render node.isWhole_toJson layout
  rw [decode_toJson, ← nesting_render node layout, limited_of_lt h] at hcause
  cases hread : ofText (node.toJson.render layout) with
  | ok root => rw [hread] at hcause; cases hcause
  | error error => rw [hread] at hcause; exact ⟨error, hread, Except.error.inj hcause⟩

/-- A tree is read back from its text if at most 127 brackets are open in it at once, and only
then; a document is made of a tree with a document at its root. -/
theorem render_round_trip (node : Node) (layout : Layout) :
    if nesting (node.render layout) ≤ depthLimit then
      ofText (node.render layout) = .ok node ∧
        documentOfText (node.render layout) =
          if node.tag = .document then .ok node else .error (.notADocument node.tag)
    else
      ∃ error, ofText (node.render layout) = .error error ∧
        error.cause = .malformed .tooDeep ∧
        documentOfText (node.render layout) = .error (.unreadable error) := by
  split
  case isTrue h =>
    have hread := ofText_render_of_le h
    refine ⟨hread, ?_⟩
    rw [documentOfText, hread]
  case isFalse h =>
    obtain ⟨error, hread, hcause⟩ := ofText_render_of_lt (Nat.lt_of_not_le h)
    refine ⟨error, hread, hcause, ?_⟩
    rw [documentOfText, hread]

/-- The list of descriptors is a bracket of its own, also where it is empty. -/
example : nesting ((tagHelper "Counter" [] []).render .indented) = 2 := by decide +kernel

end Node

end ComponentLowering
