import ComponentLowering.Proofs.Fields
import Mathlib.Data.Bool.Basic
/-!
Decoders accept the format and nothing else, record by record up to nodes. Main statement: of the
values that do not nest too deep, the texts of those that stand for a node are read as that node,
and no others are read.
-/

namespace ComponentLowering

open Json

/-! ### Spans -/

namespace Span

theorem foldlM_eq_ok {members : List (String × Json)} (h : ∀ m ∈ members, m.2.isWhole)
    {draft after : Draft} :
    members.foldlM Draft.decodeMember draft = .ok after ↔
      Filled IsString "file_path" draft.filePath members after.filePath ∧
      Filled IsNatural "offset" draft.offset members after.offset ∧
      Filled IsNatural "line" draft.line members after.line ∧
      Filled IsNatural "col" draft.col members after.col ∧
      Filled IsNatural "length" draft.length members after.length := by
  induction members generalizing draft with
  | nil => cases draft; cases after; simp [Filled]
  | cons m rest ih =>
      obtain ⟨key, value⟩ := m
      obtain ⟨hvalue, hrest⟩ := List.forall_mem_cons.mp h
      have hnatural : ∀ {n}, value.asNatural = .ok n ↔ IsNatural value n :=
        asNatural_eq_ok hvalue
      simp only [List.foldlM_cons, bind_eq_ok, ih hrest, Filled]
      unfold Draft.decodeMember
      dsimp only
      split
      all_goals
        simp [map_eq_ok, decodeOnce_eq_ok, faulty_eq_ok, asString_eq_ok, hnatural]
        grind

theorem decodeComplete_eq_ok {draft : Draft} {span : Span} :
    draft.decodeComplete = .ok span ↔
      draft = ⟨some span.filePath, some span.offset, some span.line, some span.col,
        some span.length⟩ := by
  obtain ⟨filePath, offset, line, col, length⟩ := draft
  simp only [Draft.decodeComplete, pure_eq_ok, bind_ok_comp, bind_eq_ok, faulty_eq_ok,
    required_eq_ok, map_eq_ok, Draft.mk.injEq]
  constructor
  · rintro ⟨_, rfl, _, rfl, _, rfl, _, rfl, _, rfl, rfl⟩
    simp
  · rintro ⟨rfl, rfl, rfl, rfl, rfl⟩
    simp

theorem decodeElements_eq_ok {elements : List Json} (h : ∀ element ∈ elements, element.isWhole)
    {span : Span} : decodeElements elements = .ok span ↔ Loads (.arr elements) span := by
  constructor
  · intro hread
    simp only [decodeElements, decodeField_eq_ok, decodeEnd_eq_ok, faulty_eq_ok,
      asString_eq_ok] at hread
    obtain ⟨_, _, rfl, filePath, rfl, _, _, rfl, offset, hoffset, _, _, rfl, line, hline, _, _, rfl,
      col, hcol, _, _, rfl, length, hlength, rfl, rfl⟩ := hread
    simp only [List.forall_mem_cons] at h
    obtain ⟨_, h1, h2, h3, h4, _⟩ := h
    obtain rfl := (asNatural_eq_ok h1).mp hoffset
    obtain rfl := (asNatural_eq_ok h2).mp hline
    obtain rfl := (asNatural_eq_ok h3).mp hcol
    obtain rfl := (asNatural_eq_ok h4).mp hlength
    exact .array ⟨filePath, offset, line, col, length⟩
  · rintro ⟨⟩
    simp [decodeElements, decodeField, asString, asNatural_natural, decodeEnd]

theorem members_eq_ok {members : List (String × Json)} (h : ∀ m ∈ members, m.2.isWhole)
    {span : Span} :
    (members.foldlM Draft.decodeMember {} >>= Draft.decodeComplete) = .ok span ↔
      Loads (.obj members) span := by
  simp only [bind_eq_ok, foldlM_eq_ok h, decodeComplete_eq_ok, filled_none]
  constructor
  · rintro ⟨_, ⟨hfilePath, hoffset, hline, hcol, hlength⟩, rfl⟩
    exact .object hfilePath hoffset hline hcol hlength
  · intro hload
    cases hload with
    | object hfilePath hoffset hline hcol hlength =>
        exact ⟨⟨some _, some _, some _, some _, some _⟩,
          ⟨hfilePath, hoffset, hline, hcol, hlength⟩, rfl⟩

theorem decode_eq_ok {limit : Nat} {value : Json} (h : value.isWhole) (hdepth : value.depth ≤ limit)
    {span : Span} : decode limit value = .ok span ↔ Loads value span := by
  refine decodeRecord_eq_ok hdepth ?_ ?_ ?_
  · intro hload
    cases hload <;> exact Nat.succ_ne_zero _
  · rintro deeper members rfl rfl
    exact members_eq_ok (Reader.isWhole_obj h)
  · rintro deeper elements rfl rfl
    exact decodeElements_eq_ok (Reader.isWhole_arr h)

end Span

/-! ### Diagnostics -/

namespace Diagnostic

theorem foldlM_eq_ok {limit : Nat} {members : List (String × Json)}
    (h : ∀ m ∈ members, m.2.isWhole) (hdepth : ∀ m ∈ members, m.2.depth ≤ limit)
    {draft after : Draft} :
    members.foldlM (Draft.decodeMember limit) draft = .ok after ↔
      Filled Names "code" draft.code members after.code ∧
      Filled Names "severity" draft.severity members after.severity ∧
      Filled IsString "message" draft.message members after.message ∧
      Filled (OrNull Span.Loads) "span" draft.span members after.span := by
  induction members generalizing draft with
  | nil => cases draft; cases after; simp [Filled]
  | cons m rest ih =>
      obtain ⟨key, value⟩ := m
      obtain ⟨hvalue, hrest⟩ := List.forall_mem_cons.mp h
      obtain ⟨hlimit, hlimits⟩ := List.forall_mem_cons.mp hdepth
      have hspan : ∀ {found}, decodeOptional (Span.decode limit) value = .ok found ↔
          OrNull Span.Loads value found := decodeOptional_eq_ok (Span.decode_eq_ok hvalue hlimit)
      have hcode : ∀ {code : DiagnosticCode}, decodeVariant limit value = .ok code ↔
          Names value code := decodeVariant_eq_ok hlimit
      have hseverity : ∀ {severity : Severity}, decodeVariant limit value = .ok severity ↔
          Names value severity := decodeVariant_eq_ok hlimit
      simp only [List.foldlM_cons, bind_eq_ok, ih hrest hlimits, Filled]
      unfold Draft.decodeMember
      dsimp only
      split
      all_goals
        simp [map_eq_ok, decodeOnce_eq_ok, faulty_eq_ok, asString_eq_ok, hspan, hcode, hseverity]
        grind

theorem decodeComplete_eq_ok {draft : Draft} {diagnostic : Diagnostic} :
    draft.decodeComplete = .ok diagnostic ↔
      draft.code = some diagnostic.code ∧ draft.severity = some diagnostic.severity ∧
        draft.message = some diagnostic.message ∧ draft.span.join = diagnostic.span := by
  simp only [Draft.decodeComplete, bind_eq_ok, faulty_eq_ok, required_eq_ok, pure_eq_ok]
  constructor
  · rintro ⟨_, hcode, _, hseverity, _, hmessage, ⟨⟩⟩
    exact ⟨hcode, hseverity, hmessage, rfl⟩
  · rintro ⟨hcode, hseverity, hmessage, hspan⟩
    exact ⟨_, hcode, _, hseverity, _, hmessage, by rw [hspan]⟩

theorem members_eq_ok {limit : Nat} {members : List (String × Json)}
    (h : ∀ m ∈ members, m.2.isWhole) (hdepth : ∀ m ∈ members, m.2.depth ≤ limit)
    {diagnostic : Diagnostic} :
    (members.foldlM (Draft.decodeMember limit) {} >>= Draft.decodeComplete) = .ok diagnostic ↔
      Loads (.obj members) diagnostic := by
  obtain ⟨code, severity, message, span⟩ := diagnostic
  simp only [bind_eq_ok, foldlM_eq_ok h hdepth, decodeComplete_eq_ok, filled_none]
  constructor
  · rintro ⟨⟨_, _, _, span⟩, ⟨hcode, hseverity, hmessage, hspan⟩, rfl, rfl, rfl, rfl⟩
    exact .object hcode hseverity hmessage hspan
  · intro hload
    cases hload with
    | object hcode hseverity hmessage hspan =>
        exact ⟨⟨some _, some _, some _, _⟩, ⟨hcode, hseverity, hmessage, hspan⟩, rfl, rfl, rfl,
          rfl⟩

theorem decodeElements_eq_ok {limit : Nat} {elements : List Json}
    (h : ∀ element ∈ elements, element.isWhole)
    (hdepth : ∀ element ∈ elements, element.depth ≤ limit) {diagnostic : Diagnostic} :
    decodeElements limit elements = .ok diagnostic ↔ Loads (.arr elements) diagnostic := by
  constructor
  · intro hread
    simp only [decodeElements, decodeField_eq_ok, faulty_eq_ok, asString_eq_ok] at hread
    obtain ⟨first, _, rfl, code, hcode, second, _, rfl, severity, hseverity, _, rest, rfl, message,
      rfl, hread⟩ := hread
    simp only [List.forall_mem_cons] at h hdepth
    obtain ⟨_, _, _, hwhole⟩ := h
    obtain ⟨hfirst, hsecond, _, hlimits⟩ := hdepth
    replace hcode := (decodeVariant_eq_ok hfirst).mp hcode
    replace hseverity := (decodeVariant_eq_ok hsecond).mp hseverity
    cases rest with
    | nil =>
        cases hread
        exact .array hcode hseverity
    | cons last rest =>
        simp only [decodeTrailing, bind_eq_ok, decodeEnd_eq_ok] at hread
        obtain ⟨span, hspan, rfl, rfl⟩ := hread
        have hlast : ∀ {found}, decodeOptional (Span.decode limit) last = .ok found ↔
            OrNull Span.Loads last found :=
          decodeOptional_eq_ok (Span.decode_eq_ok (hwhole last (by simp)) (hlimits last (by simp)))
        exact .arrayWithSpan hcode hseverity (hlast.mp hspan)
  · intro hload
    cases hload with
    | array hcode hseverity =>
        simp only [List.forall_mem_cons] at hdepth
        simp [decodeElements, decodeField, asString, (decodeVariant_eq_ok hdepth.1).mpr hcode,
          (decodeVariant_eq_ok hdepth.2.1).mpr hseverity, decodeTrailing]
    | arrayWithSpan hcode hseverity hspan =>
        simp only [List.forall_mem_cons] at h hdepth
        replace hspan :=
          (decodeOptional_eq_ok (Span.decode_eq_ok h.2.2.2.1 hdepth.2.2.2.1)).mpr hspan
        simp [decodeElements, decodeField, asString, (decodeVariant_eq_ok hdepth.1).mpr hcode,
          (decodeVariant_eq_ok hdepth.2.1).mpr hseverity, decodeTrailing, hspan, decodeEnd]

theorem decode_eq_ok {limit : Nat} {value : Json} (h : value.isWhole) (hdepth : value.depth ≤ limit)
    {diagnostic : Diagnostic} :
    decode limit value = .ok diagnostic ↔ Loads value diagnostic := by
  refine decodeRecord_eq_ok hdepth ?_ ?_ ?_
  · intro hload
    cases hload <;> exact Nat.succ_ne_zero _
  · rintro deeper members rfl rfl
    exact members_eq_ok (Reader.isWhole_obj h) (depth_le_of_member hdepth)
  · rintro deeper elements rfl rfl
    exact decodeElements_eq_ok (Reader.isWhole_arr h) (depth_le_of_element hdepth)

end Diagnostic

/-! ### Descriptors -/

namespace Descriptor

theorem foldlM_eq_ok {members : List (String × Json)} {draft after : Draft} :
    members.foldlM Draft.takeMember draft = .ok after ↔
      Filled IsString "name" draft.name members after.name ∧
      Filled NamesStored "kind" draft.kind members after.kind := by
  induction members generalizing draft with
  | nil => cases draft; cases after; simp [Filled]
  | cons m rest ih =>
      obtain ⟨key, value⟩ := m
      simp only [List.foldlM_cons, bind_eq_ok, ih, Filled]
      unfold Draft.takeMember
      split
      case h_3 hname hkind =>
        have hname : key ≠ "name" := fun h => hname value (by rw [h])
        have hkind : key ≠ "kind" := fun h => hkind value (by rw [h])
        simp [hname, hkind]
      all_goals
        simp_all [map_eq_ok, once_eq_ok, asString_eq_ok, asVariant_eq_ok]
        grind

theorem ofJson_eq_ok {value : Json} {descriptor : Descriptor} :
    ofJson value = .ok descriptor ↔ Loads value descriptor := by
  match value with
  | .obj members =>
    simp only [ofJson, bind_eq_ok, foldlM_eq_ok, required_eq_ok, filled_none]
    constructor
    · rintro ⟨⟨_, kind⟩, ⟨hname, hkind⟩, name, rfl, ⟨⟩⟩
      exact .object hname hkind
    · intro hload
      cases hload with
      | object hname hkind => exact ⟨⟨some _, _⟩, ⟨hname, hkind⟩, _, rfl, rfl⟩
  | .arr [] =>
    constructor
    · intro h
      cases h
    · intro h
      cases h
  | .arr [name] =>
    simp only [ofJson, bind_eq_ok, asString_eq_ok]
    constructor
    · rintro ⟨name, rfl, ⟨⟩⟩
      exact .array name
    · rintro ⟨⟩
      exact ⟨_, rfl, rfl⟩
  | .arr (name :: kind :: rest) =>
    simp only [ofJson, bind_eq_ok, asString_eq_ok, asVariant_eq_ok]
    constructor
    · rintro ⟨name, rfl, kind, hkind, hend⟩
      cases rest with
      | nil => cases hend; exact .arrayWithKind hkind
      | cons element rest => cases hend
    · intro hload
      cases hload with
      | arrayWithKind hkind => exact ⟨_, rfl, _, hkind, rfl⟩
  | .null | .bool _ | .num _ | .str _ =>
    constructor
    · intro h
      cases h
    · intro h
      cases h

end Descriptor

theorem asList_eq_ok {item : Json → Except Fault α} {Loads : Json → α → Prop} {value : Json}
    (h : ∀ {value a}, item value = .ok a ↔ Loads value a) {as : List α} :
    asList item value = .ok as ↔ ListOf Loads value as := by
  cases value with
  | arr elements => simp [asList, ListOf, mapM_eq_ok fun element _ => h]
  | _ => simp [asList, ListOf]

/-! ### Kinds -/

namespace Tag

theorem getElem?_all {index : Nat} {tag : Tag} :
    (Named.all : List Tag)[index]? = some tag ↔ index = tag.index := by
  constructor
  · intro h
    obtain ⟨hindex, rfl⟩ := List.getElem?_eq_some_iff.mp h
    have hall : ∀ index : Fin 11, ((Named.all : List Tag)[index]).index = index := by decide
    exact (hall ⟨index, hindex⟩).symm
  · rintro rfl
    cases tag <;> rfl

theorem ofJson_eq_ok {value : Json} {tag : Tag} : ofJson value = .ok tag ↔ Loads value tag := by
  match value with
  | .str name => simp [ofJson, Loads, variantOfName_eq_ok, natural]
  | .num (.whole (.ofNat index)) =>
    have htag : (Named.all : List Tag)[index]? = some tag ↔ index = tag.index := getElem?_all
    have hload : Loads (.num (.whole (.ofNat index))) tag ↔ index = tag.index := by
      simp only [Loads, natural, reduceCtorEq, false_or, num.injEq, Number.whole.injEq]
      exact Int.ofNat_inj
    rw [hload, ← htag, ofJson]
    cases (Named.all : List Tag)[index]? <;> simp
  | .num (.whole (.negSucc n)) => simp [ofJson, Loads, natural]
  | .num (.real x) => simp [ofJson, Loads, natural]
  | .null | .bool _ | .arr _ | .obj _ => simp [ofJson, Loads, natural]

theorem ofMembers_eq_ok {members : List (String × Json)} {tag : Tag} :
    ofMembers members = .ok tag ↔ Required Loads "kind" members tag := by
  have hfilled : Required Loads "kind" members tag ↔
      ∃ found, Filled Loads "kind" none members found ∧ found = some tag := by
    simp only [filled_none, exists_eq_right, optional_some]
  rw [ofMembers, bind_eq_ok, hfilled]
  refine exists_congr fun found => ?_
  rw [required_eq_ok]
  refine and_congr_left fun _ => foldlM_eq_filled ofJson_eq_ok (fun _ _ => rfl) ?_
  intro found other value hother
  split
  · rename_i hpair
    exact absurd (congrArg Prod.fst hpair) hother
  · rfl

end Tag

/-- What a loop over members makes of a field that only some kinds have. -/
def FilledFor (isField : Bool) (Loads : Json → α → Prop) (key : String) (before : Option α)
    (members : List (String × Json)) (after : Option α) : Prop :=
  if isField then Filled Loads key before members after else before = after

namespace KindDraft

theorem foldlM_eq_ok (tag : Tag) {members : List (String × Json)} {draft after : KindDraft} :
    members.foldlM (takeMember tag) draft = .ok after ↔
      FilledFor (tag = .document) NamesStored "file_kind" draft.fileKind members after.fileKind ∧
      FilledFor (tag = .document) (OrNull IsString) "file_path" draft.filePath members
        after.filePath ∧
      FilledFor (tag = .tagHelper) IsString "tag_name" draft.tagName members after.tagName ∧
      FilledFor (tag = .tagHelper) (ListOf Descriptor.Loads) "descriptors" draft.descriptors
        members after.descriptors ∧
      FilledFor (tag = .propertyBinding ∨ tag = .htmlAttribute) IsString "attribute_name"
        draft.attributeName members after.attributeName ∧
      FilledFor (tag = .propertyBinding) IsString "property_name" draft.propertyName members
        after.propertyName ∧
      FilledFor (tag = .token) IsString "content" draft.content members after.content ∧
      FilledFor (tag = .token) NamesStored "token_kind" draft.tokenKind members
        after.tokenKind := by
  induction members generalizing draft with
  | nil => cases draft; cases after; simp [Filled, FilledFor]
  | cons m rest ih =>
      obtain ⟨key, value⟩ := m
      simp only [List.foldlM_cons, bind_eq_ok, ih, Filled, FilledFor]
      have hfilePath : ∀ {found}, asOptional asString value = .ok found ↔
          OrNull IsString value found := asOptional_eq_ok asString_eq_ok
      have hdescriptors : ∀ {found}, asList Descriptor.ofJson value = .ok found ↔
          ListOf Descriptor.Loads value found := asList_eq_ok Descriptor.ofJson_eq_ok
      unfold takeMember
      dsimp only
      split
      all_goals
        simp [map_eq_ok, once_eq_ok, asString_eq_ok, asVariant_eq_ok, hfilePath, hdescriptors]
        grind

end KindDraft

theorem Kind.ofMembers_eq_ok {members : List (String × Json)} {kind : Kind} :
    Kind.ofMembers members = .ok kind ↔
      Required Tag.Loads "kind" members kind.tag ∧ Kind.Loads members kind := by
  simp only [Kind.ofMembers, bind_eq_ok, Tag.ofMembers_eq_ok, KindDraft.foldlM_eq_ok]
  constructor
  · rintro ⟨tag, htag, draft, hfields, hcomplete⟩
    cases tag <;>
      simp only [FilledFor, filled_none, decide_true, if_true, true_or, or_true] at hfields
    case document =>
      cases hcomplete
      exact ⟨htag, _, _, hfields.1, hfields.2.1, rfl, rfl⟩
    case tagHelper =>
      obtain ⟨name, hname, hcomplete⟩ := bind_eq_ok.mp hcomplete
      cases hcomplete
      rw [required_eq_ok.mp hname] at hfields
      exact ⟨htag, hfields.2.2.1, _, hfields.2.2.2.1, rfl⟩
    case propertyBinding =>
      obtain ⟨name, hname, hcomplete⟩ := bind_eq_ok.mp hcomplete
      obtain ⟨property, hproperty, hcomplete⟩ := bind_eq_ok.mp hcomplete
      cases hcomplete
      rw [required_eq_ok.mp hname, required_eq_ok.mp hproperty] at hfields
      exact ⟨htag, hfields.2.2.2.2.1, hfields.2.2.2.2.2.1⟩
    case htmlAttribute =>
      obtain ⟨name, hname, hcomplete⟩ := bind_eq_ok.mp hcomplete
      cases hcomplete
      rw [required_eq_ok.mp hname] at hfields
      exact ⟨htag, hfields.2.2.2.2.1⟩
    case token =>
      obtain ⟨content, hcontent, hcomplete⟩ := bind_eq_ok.mp hcomplete
      cases hcomplete
      rw [required_eq_ok.mp hcontent] at hfields
      exact ⟨htag, hfields.2.2.2.2.2.2.1, _, hfields.2.2.2.2.2.2.2, rfl⟩
    all_goals
      cases hcomplete
      exact ⟨htag, trivial⟩
  · rintro ⟨htag, hkind⟩
    refine ⟨kind.tag, htag, ?_⟩
    cases kind with
    | document fileKind filePath =>
        obtain ⟨fileKind?, filePath?, hfileKind, hfilePath, rfl, rfl⟩ := hkind
        refine ⟨{ fileKind := fileKind?, filePath := filePath? }, ?_, rfl⟩
        simp [FilledFor, filled_none, tag, hfileKind, hfilePath]
    | tagHelper tagName descriptors =>
        obtain ⟨htagName, descriptors?, hdescriptors, rfl⟩ := hkind
        refine ⟨{ tagName := some tagName, descriptors := descriptors? }, ?_, rfl⟩
        simp [FilledFor, filled_none, tag, optional_some, htagName, hdescriptors]
    | propertyBinding attributeName propertyName =>
        obtain ⟨hattribute, hproperty⟩ := hkind
        refine ⟨{ attributeName := some _, propertyName := some _ }, ?_, rfl⟩
        simp [FilledFor, filled_none, tag, optional_some, hattribute, hproperty]
    | htmlAttribute attributeName =>
        have hattribute : Required IsString "attribute_name" members attributeName := hkind
        refine ⟨{ attributeName := some attributeName }, ?_, rfl⟩
        simp [FilledFor, filled_none, tag, optional_some, hattribute]
    | token content tokenKind =>
        obtain ⟨hcontent, tokenKind?, htokenKind, rfl⟩ := hkind
        refine ⟨{ content := some content, tokenKind := tokenKind? }, ?_, rfl⟩
        simp [FilledFor, filled_none, tag, optional_some, hcontent, htokenKind]
    | _ =>
        refine ⟨{}, ?_, rfl⟩
        simp [FilledFor, tag]

/-! ### Nodes -/

theorem valuesOf_filter (keep : String → Bool) {key : String} (h : keep key)
    (members : List (String × Json)) :
    valuesOf key (members.filter fun m => keep m.1) = valuesOf key members := by
  rw [valuesOf, List.filter_filter, valuesOf]
  congr 1
  refine List.filter_congr ?_
  intro m _
  by_cases hm : m.1 = key <;> simp [hm, h]

namespace Node

theorem decodeDiagnostics_eq_ok {limit : Nat} {value : Json} (h : value.isWhole)
    (hdepth : value.depth ≤ limit) {diagnostics : List Diagnostic} :
    decodeDiagnostics limit value = .ok diagnostics ↔
      ListOf Diagnostic.Loads value diagnostics := by
  cases limit with
  | zero => exact decodeList_none_eq_ok hdepth
  | succ limit =>
      refine decodeList_eq_ok ?_
      rintro elements rfl element he diagnostic
      exact Diagnostic.decode_eq_ok (Reader.isWhole_arr h element he)
        (depth_le_of_element hdepth element he)

theorem foldlM_eq_ok {limit : Nat} {members : List (String × Json)}
    (h : ∀ m ∈ members, m.2.isWhole) (hdepth : ∀ m ∈ members, m.2.depth ≤ limit)
    (hchildren : ∀ m ∈ members, ∀ {nodes},
      decodeChildren limit m.2 = .ok nodes ↔ ListOf Loads m.2 nodes)
    {draft after : Draft} :
    members.foldlM (Draft.decodeMember limit (decodeChildren limit)) draft = .ok after ↔
      Filled (ListOf Loads) "children" draft.children members after.children ∧
      Filled (ListOf Diagnostic.Loads) "diagnostics" draft.diagnostics members after.diagnostics ∧
      Filled (OrNull Span.Loads) "span" draft.span members after.span ∧
      (members.filter fun m => m.1 ∉ fieldNames).reverse ++ draft.stored = after.stored := by
  induction members generalizing draft with
  | nil =>
      cases draft
      cases after
      simp only [List.foldlM_nil, pure_eq_ok, Except.ok.injEq, Draft.mk.injEq, Filled,
        List.filter_nil, List.reverse_nil, List.nil_append]
      grind
  | cons m rest ih =>
      obtain ⟨key, value⟩ := m
      obtain ⟨hvalue, hrest⟩ := List.forall_mem_cons.mp h
      obtain ⟨hlimit, hlimits⟩ := List.forall_mem_cons.mp hdepth
      obtain ⟨hchild, hrestChildren⟩ := List.forall_mem_cons.mp hchildren
      have hspan : ∀ {found}, decodeOptional (Span.decode limit) value = .ok found ↔
          OrNull Span.Loads value found := decodeOptional_eq_ok (Span.decode_eq_ok hvalue hlimit)
      have hdiagnostics : ∀ {found}, decodeDiagnostics limit value = .ok found ↔
          ListOf Diagnostic.Loads value found := decodeDiagnostics_eq_ok hvalue hlimit
      simp only [List.foldlM_cons, bind_eq_ok, ih hrest hlimits hrestChildren, Filled]
      unfold Draft.decodeMember
      dsimp only at hchild hlimit ⊢
      split
      case h_4 hkey1 hkey2 hkey3 =>
        simp [Reader.limited_of_le hlimit, fieldNames]
        grind
      all_goals
        simp [map_eq_ok, decodeOnce_eq_ok, hspan, hdiagnostics, hchild, fieldNames]
        grind

theorem decodeComplete_eq_ok {draft : Draft} {node : Node} :
    draft.decodeComplete = .ok node ↔
      Kind.ofMembers draft.stored.reverse = .ok node.kind ∧
        draft.children.getD [] = node.children ∧ draft.diagnostics.getD [] = node.diagnostics ∧
        draft.span.join = node.span := by
  obtain ⟨kind, children, diagnostics, span⟩ := node
  simp only [Draft.decodeComplete, faulty_eq_ok, map_eq_ok, mk.injEq]
  constructor
  · rintro ⟨_, hkind, rfl, hrest⟩
    exact ⟨hkind, hrest⟩
  · rintro ⟨hkind, hrest⟩
    exact ⟨_, hkind, rfl, hrest⟩

/-- The stored members hold all that belongs to a kind. -/
theorem ofMembers_stored_eq_ok {members : List (String × Json)} {kind : Kind} :
    Kind.ofMembers (members.filter fun m => m.1 ∉ fieldNames) = .ok kind ↔
      Required Tag.Loads "kind" members kind.tag ∧ Kind.Loads members kind := by
  have hkeep : ∀ key, key ∉ fieldNames →
      valuesOf key (members.filter fun m => m.1 ∉ fieldNames) = valuesOf key members := by
    intro key hkey
    exact valuesOf_filter (fun key => key ∉ fieldNames) (decide_eq_true hkey) members
  have hfields : ∀ tag : Tag, ∀ key ∈ tag.fieldNames, key ∉ fieldNames := by
    intro tag
    cases tag <;> decide
  rw [Kind.ofMembers_eq_ok, Required.congr (hkeep "kind" (by decide)),
    Kind.Loads.congr fun key hkey => hkeep key (hfields kind.tag key hkey)]

theorem loads_iff {members : List (String × Json)} {node : Node} :
    Loads (.obj members) node ↔
      Required Tag.Loads "kind" members node.kind.tag ∧ Kind.Loads members node.kind ∧
      (∃ children, Optional (ListOf Loads) "children" members children ∧
        children.getD [] = node.children) ∧
      (∃ diagnostics, Optional (ListOf Diagnostic.Loads) "diagnostics" members diagnostics ∧
        diagnostics.getD [] = node.diagnostics) ∧
      ∃ span, Optional (OrNull Span.Loads) "span" members span ∧ span.join = node.span := by
  constructor
  · intro hload
    cases hload with
    | object htag hkind hvalues hchildren hdiagnostics hspan =>
        refine ⟨htag, hkind, ?_, ⟨_, hdiagnostics, rfl⟩, ⟨_, hspan, rfl⟩⟩
        rcases hvalues with hvalues | ⟨hvalues, rfl⟩
        · exact ⟨some _, ⟨_, hvalues, _, rfl, hchildren⟩, rfl⟩
        · cases hchildren
          exact ⟨none, hvalues, rfl⟩
  · obtain ⟨kind, children, diagnostics, span⟩ := node
    rintro ⟨htag, hkind, ⟨children, hchildren, rfl⟩, ⟨diagnostics, hdiagnostics, rfl⟩,
      span, hspan, rfl⟩
    cases children with
    | none => exact .object htag hkind (.inr ⟨hchildren, rfl⟩) .nil hdiagnostics hspan
    | some children =>
        obtain ⟨_, hvalues, elements, rfl, hloads⟩ := hchildren
        exact .object htag hkind (.inl hvalues) hloads hdiagnostics hspan

theorem decode_eq_ok {limit : Nat} {value : Json} (h : value.isWhole) (hdepth : value.depth ≤ limit)
    {node : Node} : decode limit value = .ok node ↔ Loads value node := by
  induction limit using Nat.strongRecOn generalizing value node with
  | ind limit ih =>
      match value, limit with
      | .obj members, 0 => cases hdepth
      | .obj members, limit + 1 =>
        have hwhole := Reader.isWhole_obj h
        have hlimit := depth_le_of_member hdepth
        have hchildren : ∀ m ∈ members, ∀ {nodes},
            decodeChildren limit m.2 = .ok nodes ↔ ListOf Loads m.2 nodes := by
          intro m hm nodes
          replace hlimit := hlimit m hm
          cases limit with
          | zero => exact decodeList_none_eq_ok hlimit
          | succ limit =>
              refine decodeList_eq_ok ?_
              intro elements hm' element he node
              rw [hm'] at hlimit
              have hm := hwhole m hm
              rw [hm'] at hm
              exact ih limit (by omega) (Reader.isWhole_arr hm element he)
                (depth_le_of_element hlimit element he)
        simp only [decode_obj, bind_eq_ok, foldlM_eq_ok hwhole hlimit hchildren,
          decodeComplete_eq_ok, filled_none, loads_iff]
        constructor
        · rintro ⟨⟨_, children, diagnostics, span⟩, ⟨hchildren, hdiagnostics, hspan, rfl⟩, hkind,
            rest⟩
          rw [List.append_nil, List.reverse_reverse, ofMembers_stored_eq_ok] at hkind
          exact ⟨hkind.1, hkind.2, ⟨_, hchildren, rest.1⟩, ⟨_, hdiagnostics, rest.2.1⟩,
            ⟨_, hspan, rest.2.2⟩⟩
        · rintro ⟨htag, hkind, ⟨children, hchildren, hc⟩, ⟨diagnostics, hdiagnostics, hd⟩,
            span, hspan, hs⟩
          refine ⟨⟨_, children, diagnostics, span⟩, ⟨hchildren, hdiagnostics, hspan, rfl⟩, ?_, hc,
            hd, hs⟩
          rw [List.append_nil, List.reverse_reverse, ofMembers_stored_eq_ok]
          exact ⟨htag, hkind⟩
      | .null, limit | .bool _, limit | .num _, limit | .str _, limit | .arr _, limit =>
        constructor
        · intro hread
          cases limit <;> cases hread
        · intro hload
          cases hload

theorem ofText_eq_ok {value : Json} (h : value.isWhole) (hdepth : value.depth ≤ Reader.depthLimit)
    (layout : Layout) {node : Node} :
    ofText (value.render layout) = .ok node ↔ Loads value node := by
  rw [← decode_eq_ok h hdepth, ← ofText_render h layout]
  cases ofText (value.render layout) <;> simp [Except.mapError]

/-- A node depends on the fields of all nodes and on those of its kind, and on nothing else. -/
theorem Loads.congr {members other : List (String × Json)} {node : Node}
    (h : ∀ key ∈ "kind" :: fieldNames ++ node.tag.fieldNames,
      valuesOf key other = valuesOf key members) :
    Loads (.obj other) node ↔ Loads (.obj members) node := by
  obtain ⟨htag, hfields⟩ := List.forall_mem_cons.mp h
  obtain ⟨hcommon, hown⟩ := List.forall_mem_append.mp hfields
  simp only [fieldNames, List.forall_mem_cons] at hcommon
  obtain ⟨hchildren, hdiagnostics, hspan, _⟩ := hcommon
  simp only [loads_iff, Required.congr htag, Kind.Loads.congr hown, Optional.congr hchildren,
    Optional.congr hdiagnostics, Optional.congr hspan]

/-- The reader accepts the values that stand for a node, and no others, and gives that node. Of the
members of an object it looks at the fields of all nodes and at those of the kind, by their keys;
other members and the order of the members have no influence. -/
theorem ofText_accepts {value : Json} (hwhole : value.isWhole)
    (hdepth : value.depth ≤ Reader.depthLimit) (layout : Layout) (node : Node) :
    (ofText (value.render layout) = .ok node ↔ Loads value node) ∧
      ∀ members other, value = .obj members → (Json.obj other).isWhole →
        (Json.obj other).depth ≤ Reader.depthLimit →
        (∀ key ∈ "kind" :: fieldNames ++ node.tag.fieldNames,
          valuesOf key other = valuesOf key members) →
        (ofText ((Json.obj other).render layout) = .ok node ↔
          ofText (value.render layout) = .ok node) := by
  refine ⟨ofText_eq_ok hwhole hdepth layout, ?_⟩
  rintro members other rfl hother hotherDepth hkeys
  rw [ofText_eq_ok hother hotherDepth, ofText_eq_ok hwhole hdepth, Loads.congr hkeys]

/-- A token whose kind is given by its index, behind a member that means nothing for tokens. -/
def indexedToken : Json :=
  .obj [("content", .str "x"), ("tag_name", .arr [.null]), ("kind", .natural 10)]

theorem ofText_indexedToken : ofText (indexedToken.render .compact) = .ok (token "x") := by
  have hloads : Loads indexedToken (token "x") := by
    refine loads_iff.mpr ⟨⟨_, rfl, .inr rfl⟩, ⟨⟨_, rfl, rfl⟩, none, rfl, rfl⟩, ?_, ?_, ?_⟩
    · exact ⟨none, rfl, rfl⟩
    · exact ⟨none, rfl, rfl⟩
    · exact ⟨none, rfl, rfl⟩
  exact (ofText_accepts rfl (by decide) .compact (token "x")).1.mpr hloads

end Node

end ComponentLowering
