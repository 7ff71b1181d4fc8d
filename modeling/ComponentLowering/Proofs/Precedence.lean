import ComponentLowering.Proofs.Limits
import Mathlib.Data.List.Find
/-!
The error that is reported for a value that stands for no node. The decoder stops where `Refusals`
says that the fault is: at the first member at fault among the fields of all nodes, then at the
kind, and then at the fields of the kind. Every value that stands for no node has such a fault, so
that reading reports it and no other (`Node.ofText_refuses`).
-/

namespace ComponentLowering

open Json

variable {α ε : Type}

/-! ### Kinds -/

namespace Tag

theorem ofJson_natural (index : Nat) :
    ofJson (natural index) =
      match (Named.all : List Tag)[index]? with
      | some tag => .ok tag
      | none => .error
        (.invalidValue (.number (.whole index)) (.variantIndex (Named.names Tag).length)) :=
  rfl

theorem ofJson_eq_error {value : Json} {fault : Fault} (h : Refused value fault) :
    ofJson value = .error fault := by
  cases h with
  | @unknown name hname =>
      have hnone : (Named.ofName? name : Option Tag) = none := by
        cases hfound : (Named.ofName? name : Option Tag) with
        | none => rfl
        | some tag =>
            rw [← Named.ofName?_eq_some_iff.mp hfound] at hname
            exact absurd (List.mem_map_of_mem (Named.mem_all tag)) hname
      rw [ofJson, Json.variantOfName, hnone]
  | @beyond index hindex =>
      have hnone : (Named.all : List Tag)[index]? = none := List.getElem?_eq_none hindex
      rw [ofJson_natural, hnone]
  | mistyped hname hindex =>
      cases value with
      | str name => exact absurd rfl (hname name)
      | num number =>
          rcases number with (index | _) | _
          · exact absurd rfl (hindex index)
          · rfl
          · rfl
      | _ => rfl

theorem loads_or_refused (value : Json) :
    (∃ tag, Tag.Loads value tag) ∨ ∃ fault, Tag.Refused value fault := by
  match value with
  | .str name =>
    by_cases hname : name ∈ Named.names Tag
    · obtain ⟨tag, _, rfl⟩ := List.mem_map.mp hname
      exact .inl ⟨tag, .inl rfl⟩
    · exact .inr ⟨_, .unknown hname⟩
  | .num (.whole (.ofNat index)) =>
    by_cases hindex : (Named.names Tag).length ≤ index
    · exact .inr ⟨_, .beyond hindex⟩
    · have hlt : index < (Named.all : List Tag).length := Nat.lt_of_not_le hindex
      have htag := getElem?_all.mp (List.getElem?_eq_getElem hlt)
      exact .inl ⟨_, .inr (congrArg natural htag)⟩
  | .num (.whole (.negSucc _)) | .num (.real _) | .null | .bool _ | .arr _ | .obj _ =>
    exact .inr ⟨_, .mistyped (by simp) (by simp [natural])⟩

/-- One step of the loop that looks for the kind. -/
def take (found : Option Tag) : String × Json → Except Fault (Option Tag)
  | ("kind", value) => Json.once "kind" found ofJson value
  | _ => return found

theorem ofMembers_eq (members : List (String × Json)) :
    ofMembers members = members.foldlM take none >>= Json.required "kind" :=
  rfl

theorem take_of_ne {key : String} (h : key ≠ "kind") (found : Option Tag) (value : Json) :
    take found (key, value) = .ok found := by
  unfold take
  split
  · exact absurd (congrArg Prod.fst ‹_›) h
  · rfl

theorem checks_take :
    Checks ["kind"] (fun _ value => ∃ tag, Tag.Loads value tag) (fun _ => Tag.Refused)
      .duplicateField (fun _ => True) (fun found _ => found.isSome) take := by
  apply Checks.of_fields
  · intro key hkey
    obtain rfl := List.mem_singleton.mp hkey
    refine ⟨Tag, ofJson, id, fun _ => some, ⟨?_, ?_, ?_⟩, ⟨?_, ?_, ?_⟩⟩
    · exact fun _ _ => rfl
    · exact fun _ => rfl
    · simp
    · rintro value - ⟨tag, htag⟩
      exact ⟨tag, ofJson_eq_ok.mpr htag⟩
    · exact fun _ hwrong => ofJson_eq_error hwrong
    · exact fun _ => loads_or_refused _
  · intro found key hkey value _
    rw [List.mem_singleton] at hkey
    exact ⟨found, take_of_ne hkey found value, fun _ _ => rfl⟩

end Tag

namespace KindDraft

/-- Whether a field was found. -/
def found (draft : KindDraft) : String → Bool
  | "file_kind" => draft.fileKind.isSome
  | "file_path" => draft.filePath.isSome
  | "tag_name" => draft.tagName.isSome
  | "descriptors" => draft.descriptors.isSome
  | "attribute_name" => draft.attributeName.isSome
  | "property_name" => draft.propertyName.isSome
  | "content" => draft.content.isSome
  | "token_kind" => draft.tokenKind.isSome
  | _ => false

theorem takeMember_of_not_mem {tag : Tag} {key : String} (h : key ∉ tag.fieldNames)
    (draft : KindDraft) (value : Json) : takeMember tag draft (key, value) = .ok draft := by
  unfold takeMember
  dsimp only
  split
  case h_10 => rfl
  all_goals exact absurd (by decide) h

/-- A field whose value goes to `item` is judged as `item` judges it. -/
theorem takes_of_once {α : Type} (item : Json → Except Fault α) (get : KindDraft → Option α)
    (set : KindDraft → Option α → KindDraft) {tag : Tag} {key : String}
    (hstep : ∀ draft value, takeMember tag draft (key, value) =
      Json.once key (get draft) item value >>= fun after => pure (set draft after))
    (hfound : ∀ draft, found draft key = (get draft).isSome)
    (hset : ∀ draft a, ∀ other ∈ tag.fieldNames,
      found (set draft (some a)) other = (found draft other || decide (key = other)))
    (hcheck : ∀ value, tag.checkField value key = Functor.discard (item value)) :
    ∃ (α : Type) (item : Json → Except Fault α) (get : KindDraft → Option α)
      (set : KindDraft → α → KindDraft),
      Takes tag.fieldNames .duplicateField found (takeMember tag) key item get set ∧
        Judges (fun value => tag.checkField value key = .ok ())
          (fun value fault => tag.checkField value key = .error fault) (fun _ => True) item := by
  refine ⟨α, item, get, fun draft a => set draft (some a), ⟨?_, hfound, hset⟩, ⟨?_, ?_, ?_⟩⟩
  · intro draft value
    rw [hstep, once_bind]
  · intro value _ h
    rw [hcheck] at h
    exact discard_eq_ok.mp h
  · intro value fault _ h
    rw [hcheck] at h
    exact discard_eq_error.mp h
  · intro value _
    cases tag.checkField value key with
    | ok nothing => exact .inl rfl
    | error fault => exact .inr ⟨fault, rfl⟩

/-- The loop over the stored members checks the fields of a kind, each as its type asks. -/
theorem checks_takeMember (tag : Tag) :
    Checks tag.fieldNames (fun key value => tag.checkField value key = .ok ())
      (fun key value fault => tag.checkField value key = .error fault) .duplicateField
      (fun _ => True) found (takeMember tag) := by
  apply Checks.of_fields
  · intro key hkey
    cases tag <;> simp only [Tag.fieldNames, List.mem_cons, List.not_mem_nil, or_false] at hkey
    case document =>
      rcases hkey with rfl | rfl
      · exact takes_of_once asVariant fileKind
          (fun draft after => { draft with fileKind := after })
          (fun _ _ => rfl) (fun _ => rfl) (by simp [Tag.fieldNames, found]) fun _ => rfl
      · exact takes_of_once (asOptional asString) filePath
          (fun draft after => { draft with filePath := after })
          (fun _ _ => rfl) (fun _ => rfl) (by simp [Tag.fieldNames, found]) fun _ => rfl
    case tagHelper =>
      rcases hkey with rfl | rfl
      · exact takes_of_once asString tagName
          (fun draft after => { draft with tagName := after })
          (fun _ _ => rfl) (fun _ => rfl) (by simp [Tag.fieldNames, found]) fun _ => rfl
      · exact takes_of_once (asList Descriptor.ofJson) descriptors
          (fun draft after => { draft with descriptors := after })
          (fun _ _ => rfl) (fun _ => rfl) (by simp [Tag.fieldNames, found]) fun _ => rfl
    case propertyBinding =>
      rcases hkey with rfl | rfl
      · exact takes_of_once asString attributeName
          (fun draft after => { draft with attributeName := after })
          (fun _ _ => rfl) (fun _ => rfl) (by simp [Tag.fieldNames, found]) fun _ => rfl
      · exact takes_of_once asString propertyName
          (fun draft after => { draft with propertyName := after })
          (fun _ _ => rfl) (fun _ => rfl) (by simp [Tag.fieldNames, found]) fun _ => rfl
    case htmlAttribute =>
      obtain rfl := hkey
      exact takes_of_once asString attributeName
        (fun draft after => { draft with attributeName := after })
        (fun _ _ => rfl) (fun _ => rfl) (by simp [Tag.fieldNames, found]) fun _ => rfl
    case token =>
      rcases hkey with rfl | rfl
      · exact takes_of_once asString content
          (fun draft after => { draft with content := after })
          (fun _ _ => rfl) (fun _ => rfl) (by simp [Tag.fieldNames, found]) fun _ => rfl
      · exact takes_of_once asVariant tokenKind
          (fun draft after => { draft with tokenKind := after })
          (fun _ _ => rfl) (fun _ => rfl) (by simp [Tag.fieldNames, found]) fun _ => rfl
  · intro draft key hkey value _
    exact ⟨draft, takeMember_of_not_mem hkey draft value, fun _ _ => rfl⟩

theorem fits_nil (keys : List String) : Fits keys found {} [] := by
  intro key _
  unfold found
  split <;> rfl

/-- A draft lacks the first of the fields it needs that was not found. -/
theorem complete_eq (draft : KindDraft) (tag : Tag) :
    match tag.requiredNames.find? (fun name => !found draft name) with
    | some name => draft.complete tag = .error (.missingField name)
    | none => ∃ kind, draft.complete tag = .ok kind := by
  cases tag
  case tagHelper =>
    cases h : draft.tagName <;> simp [Tag.requiredNames, found, complete, Json.required, h]
  case propertyBinding =>
    cases h : draft.attributeName <;> cases h' : draft.propertyName <;>
      simp [Tag.requiredNames, found, complete, Json.required, h, h']
  case htmlAttribute =>
    cases h : draft.attributeName <;> simp [Tag.requiredNames, found, complete, Json.required, h]
  case token =>
    cases h : draft.content <;> simp [Tag.requiredNames, found, complete, Json.required, h]
  all_goals exact ⟨_, rfl⟩

theorem find?_requiredNames {draft : KindDraft} {tag : Tag} {members : List (String × Json)}
    (h : Fits tag.fieldNames found draft members) :
    tag.requiredNames.find? (fun name => !found draft name) =
      tag.requiredNames.find? fun name => (valuesOf name members).isEmpty := by
  have hfields : ∀ name ∈ tag.requiredNames, name ∈ tag.fieldNames := by
    cases tag <;> decide
  apply List.find?_congr
  intro name hname
  rw [h name (hfields name hname), Bool.not_not]

end KindDraft

namespace Tag

variable {members : List (String × Json)}

theorem ofMembers_eq_error {fault : Fault}
    (h : Kind.Offence members fault ∨
      valuesOf "kind" members = [] ∧ fault = .missingField "kind") :
    ofMembers members = .error fault := by
  have hfits : Fits ["kind"] (fun found _ => found.isSome) (none : Option Tag) [] :=
    fun _ _ => rfl
  rcases h with hoffence | ⟨hnone, rfl⟩
  · rw [ofMembers_eq, checks_take.foldlM_eq_error (fun _ _ => trivial) hfits hoffence]
    rfl
  · have hright : Right ["kind"] (fun _ value => ∃ tag, Tag.Loads value tag) members := by
      intro key hkey
      obtain rfl := List.mem_singleton.mp hkey
      exact .inl hnone
    obtain ⟨after, hloop, hafter⟩ := checks_take.foldlM_eq_ok (fun _ _ => trivial) hfits hright
    have hafter : after.isSome = false := (hafter.found_eq_false (by simp)).mpr hnone
    rw [Option.isSome_eq_false_iff, Option.isNone_iff_eq_none] at hafter
    rw [ofMembers_eq, hloop, hafter]
    rfl

/-- Members tell a kind, or something is wrong with what they tell. -/
theorem required_or_refused (members : List (String × Json)) :
    (∃ tag, Required Tag.Loads "kind" members tag) ∨ ∃ fault, Kind.Refused members fault := by
  rcases checks_take.right_or_offence members fun _ _ => trivial with hright | ⟨fault, hoffence⟩
  · rcases hright "kind" (by simp) with hnone | ⟨value, hone, tag, htag⟩
    · exact .inr ⟨_, .noKind hnone⟩
    · exact .inl ⟨tag, value, hone, htag⟩
  · exact .inr ⟨fault, .kind hoffence⟩

end Tag

namespace Kind

variable {members : List (String × Json)}

/-- Once the fields of a kind are right, all depends on whether they are there. -/
theorem ofMembers_of_right {tag : Tag} (htag : Required Tag.Loads "kind" members tag)
    (hright : tag.RightFields members) :
    match tag.requiredNames.find? (fun name => (valuesOf name members).isEmpty) with
    | some name => ofMembers members = .error (.missingField name)
    | none => ∃ kind, ofMembers members = .ok kind := by
  obtain ⟨draft, hloop, hdraft⟩ := (KindDraft.checks_takeMember tag).foldlM_eq_ok
    (fun _ _ => trivial) (KindDraft.fits_nil _) hright
  have hcomplete := draft.complete_eq tag
  rw [KindDraft.find?_requiredNames hdraft] at hcomplete
  rw [ofMembers, Tag.ofMembers_eq_ok.mpr htag, ok_bind, hloop]
  exact hcomplete

theorem ofMembers_eq_error {fault : Fault} (h : Refused members fault) :
    ofMembers members = .error fault := by
  cases h with
  | kind hoffence =>
      rw [ofMembers, Tag.ofMembers_eq_error (.inl hoffence)]
      rfl
  | noKind hnone =>
      rw [ofMembers, Tag.ofMembers_eq_error (.inr ⟨hnone, rfl⟩)]
      rfl
  | @field tag _ htag hoffence =>
      rw [ofMembers, Tag.ofMembers_eq_ok.mpr htag, ok_bind,
        (KindDraft.checks_takeMember tag).foldlM_eq_error (fun _ _ => trivial)
          (KindDraft.fits_nil _) hoffence]
      rfl
  | missing htag hright hname =>
      have hmembers := ofMembers_of_right htag hright
      rwa [hname] at hmembers

theorem ofMembers_or_refused (members : List (String × Json)) :
    (∃ kind, ofMembers members = .ok kind) ∨ ∃ fault, Refused members fault := by
  rcases Tag.required_or_refused members with ⟨tag, htag⟩ | hrefused
  · rcases (KindDraft.checks_takeMember tag).right_or_offence members fun _ _ => trivial
      with hright | ⟨fault, hoffence⟩
    · have hmembers := ofMembers_of_right htag hright
      cases hname : tag.requiredNames.find? fun name => (valuesOf name members).isEmpty with
      | none =>
          rw [hname] at hmembers
          exact .inl hmembers
      | some name => exact .inr ⟨_, .missing htag hright hname⟩
    · exact .inr ⟨fault, .field htag hoffence⟩
  · exact .inr hrefused

/-- Members that a loop passes over can be left out. -/
theorem foldlM_filter_of_mem {σ : Type} {step : σ → String × Json → Except ε σ} {keys : List String}
    (h : ∀ s m, m.1 ∈ keys → step s m = .ok s) {members : List (String × Json)} {s : σ} :
    (members.filter fun m => m.1 ∉ keys).foldlM step s = members.foldlM step s := by
  rw [List.foldlM_filter]
  congr 1
  funext s m
  by_cases hm : m.1 ∈ keys
  · rw [h s m hm]
    simp [hm]
  · simp [hm]

/-- A kind looks at its own fields and nowhere else. -/
theorem ofMembers_filter (members : List (String × Json)) :
    ofMembers (members.filter fun m => m.1 ∉ Node.fieldNames) = ofMembers members := by
  have hkind : ∀ key ∈ Node.fieldNames, key ≠ "kind" := by decide
  have hfields : ∀ tag : Tag, ∀ key ∈ Node.fieldNames, key ∉ tag.fieldNames := by
    intro tag
    cases tag <;> decide
  have htake : ∀ found m, m.1 ∈ Node.fieldNames → Tag.take found m = .ok found :=
    fun found m hkey => Tag.take_of_ne (hkind m.1 hkey) found m.2
  have htakeMember : ∀ tag draft m, m.1 ∈ Node.fieldNames →
      KindDraft.takeMember tag draft m = .ok draft :=
    fun tag draft m hkey => KindDraft.takeMember_of_not_mem (hfields tag m.1 hkey) draft m.2
  rw [ofMembers, ofMembers, Tag.ofMembers_eq, Tag.ofMembers_eq, foldlM_filter_of_mem htake]
  congr 1
  funext tag
  rw [foldlM_filter_of_mem (htakeMember tag)]

end Kind

/-! ### Nodes -/

namespace Node

/-- Whether a field was found. -/
def Draft.found (draft : Draft) : String → Bool
  | "children" => draft.children.isSome
  | "diagnostics" => draft.diagnostics.isSome
  | "span" => draft.span.isSome
  | _ => false

theorem decode_of_not_obj {value : Json} (h : ∀ members, value ≠ .obj members) (limit : Nat) :
    decode limit value = .error (.unsuitable (.invalidType value.found (.record form))) := by
  cases value with
  | obj members => exact absurd rfl (h members)
  | _ => cases limit <;> rfl

theorem fieldLoads_iff {key : String} {value : Json} :
    FieldLoads key value ↔
      key = "children" ∧ (∃ nodes, ListOf Loads value nodes) ∨
      key = "diagnostics" ∧ (∃ diagnostics, ListOf Diagnostic.Loads value diagnostics) ∨
      key = "span" ∧ ∃ span, OrNull Span.Loads value span := by
  constructor
  · rintro (h | h | h)
    · exact .inl ⟨rfl, _, h⟩
    · exact .inr (.inl ⟨rfl, _, h⟩)
    · exact .inr (.inr ⟨rfl, _, h⟩)
  · rintro (⟨rfl, _, h⟩ | ⟨rfl, _, h⟩ | ⟨rfl, _, h⟩)
    · exact .children h
    · exact .diagnostics h
    · exact .span h

theorem fieldRefused_iff {key : String} {value : Json} {cause : ReadError.Cause} :
    FieldRefused key value cause ↔
      key = "children" ∧
        ListRefused (fun element => ∃ node, Loads element node) Refused value cause ∨
      key = "diagnostics" ∧
        ListRefused (fun element => ∃ diagnostic, Diagnostic.Loads element diagnostic)
          Diagnostic.Refused value cause ∨
      key = "span" ∧ value ≠ .null ∧ Span.Refused value cause := by
  constructor
  · rintro (h | h | ⟨hnull, h⟩)
    · exact .inl ⟨rfl, h⟩
    · exact .inr (.inl ⟨rfl, h⟩)
    · exact .inr (.inr ⟨rfl, hnull, h⟩)
  · rintro (⟨rfl, h⟩ | ⟨rfl, h⟩ | ⟨rfl, hnull, h⟩)
    · exact .children h
    · exact .diagnostics h
    · exact .span hnull h

/-- Under a limit, nodes are decoded up to the fault that counts. -/
def JudgedAt (limit : Nat) : Prop :=
  Judges (fun value => ∃ node, Loads value node) Refused (Shallow limit) (decode limit)

section

variable {limit : Nat}

theorem judges_children (h : ∀ deeper < limit, JudgedAt deeper) :
    Judges (FieldLoads "children") (FieldRefused "children") (Shallow limit)
      (decodeChildren limit) := by
  have hloads : FieldLoads "children" = fun value => ∃ nodes, ListOf Loads value nodes := by
    ext value
    simp [fieldLoads_iff]
  have hrefused : FieldRefused "children" =
      ListRefused (fun element => ∃ node, Loads element node) Refused := by
    ext value cause
    simp [fieldRefused_iff]
  rw [hloads, hrefused]
  cases limit with
  | zero => exact judges_no_list fun _ => not_shallow_arr
  | succ limit => exact judges_list (h limit (Nat.lt_succ_self limit)) fun _ => shallow_of_element

theorem judges_diagnostics (hlimit : limit ≤ Reader.depthLimit) :
    Judges (FieldLoads "diagnostics") (FieldRefused "diagnostics") (Shallow limit)
      (decodeDiagnostics limit) := by
  have hloads : FieldLoads "diagnostics" = fun value =>
      ∃ diagnostics, ListOf Diagnostic.Loads value diagnostics := by
    ext value
    simp [fieldLoads_iff]
  have hrefused : FieldRefused "diagnostics" = ListRefused
      (fun element => ∃ diagnostic, Diagnostic.Loads element diagnostic) Diagnostic.Refused := by
    ext value cause
    simp [fieldRefused_iff]
  rw [hloads, hrefused]
  cases limit with
  | zero => exact judges_no_list fun _ => not_shallow_arr
  | succ limit =>
      exact judges_list (Diagnostic.judges_decode (Nat.le_of_succ_le hlimit))
        fun _ => shallow_of_element

theorem judges_span (hlimit : limit ≤ Reader.depthLimit) :
    Judges (FieldLoads "span") (FieldRefused "span") (Shallow limit)
      (decodeOptional (Span.decode limit)) := by
  have hloads : FieldLoads "span" = fun value => ∃ span, OrNull Span.Loads value span := by
    ext value
    simp [fieldLoads_iff]
  have hrefused : FieldRefused "span" = fun value cause =>
      value ≠ .null ∧ Span.Refused value cause := by
    ext value cause
    simp [fieldRefused_iff]
  rw [hloads, hrefused]
  apply Judges.of_iff
  · exact fun h => decodeOptional_eq_ok (Span.decode_eq_ok h.1 h.2)
  · intro value cause h
    rw [decodeOptional_eq_error, Span.refused_iff h.1 h.2 hlimit]

variable (hlimit : limit ≤ Reader.depthLimit) (h : ∀ deeper < limit, JudgedAt deeper)

include hlimit h

/-- The fields of all nodes are checked while the text is read. -/
theorem checks_decodeMember :
    Checks fieldNames FieldLoads FieldRefused (fun key => .unsuitable (.duplicateField key))
      (Shallow limit) Draft.found (Draft.decodeMember limit (decodeChildren limit)) := by
  apply Checks.of_fields
  · intro key hkey
    simp only [fieldNames, List.mem_cons, List.not_mem_nil, or_false] at hkey
    rcases hkey with rfl | rfl | rfl
    · refine ⟨_, decodeChildren limit, Draft.children,
        fun draft children => { draft with children := some children }, ⟨?_, ?_, ?_⟩,
        judges_children h⟩
      · exact fun _ _ => decodeOnce_bind
      · exact fun _ => rfl
      · simp [fieldNames, Draft.found]
    · refine ⟨_, decodeDiagnostics limit, Draft.diagnostics,
        fun draft diagnostics => { draft with diagnostics := some diagnostics }, ⟨?_, ?_, ?_⟩,
        judges_diagnostics hlimit⟩
      · exact fun _ _ => decodeOnce_bind
      · exact fun _ => rfl
      · simp [fieldNames, Draft.found]
    · refine ⟨_, decodeOptional (Span.decode limit), Draft.span,
        fun draft span => { draft with span := some span }, ⟨?_, ?_, ?_⟩, judges_span hlimit⟩
      · exact fun _ _ => decodeOnce_bind
      · exact fun _ => rfl
      · simp [fieldNames, Draft.found]
  · intro draft key hkey value hvalue
    refine ⟨{ draft with stored := (key, value) :: draft.stored }, ?_, fun _ _ => rfl⟩
    simp only [fieldNames, List.mem_cons, List.not_mem_nil, or_false, not_or] at hkey
    unfold Draft.decodeMember
    dsimp only
    split
    case h_4 => exact Reader.limited_of_le hvalue.2 _
    all_goals simp_all

omit hlimit h in
theorem Draft.fits_nil (keys : List String) : Fits keys found {} [] := by
  intro key _
  unfold found
  split <;> rfl

omit hlimit h in
theorem decodeChildren_eq_ok {value : Json} (hvalue : Shallow limit value) {nodes : List Node} :
    decodeChildren limit value = .ok nodes ↔ ListOf Loads value nodes := by
  cases limit with
  | zero => exact decodeList_none_eq_ok hvalue.2
  | succ limit =>
      apply decodeList_eq_ok
      rintro elements rfl element helement node
      have helement := shallow_of_element hvalue element helement
      exact decode_eq_ok helement.1 helement.2

/-- Once the fields of all nodes are right, all depends on the kind. -/
theorem decode_of_right {members : List (String × Json)}
    (hmembers : ∀ m ∈ members, Shallow limit m.2) (hright : Right fieldNames FieldLoads members) :
    ∃ ofKind : Kind → Node,
      decode (limit + 1) (.obj members) = faulty (ofKind <$> Kind.ofMembers members) := by
  obtain ⟨draft, hloop, _⟩ := (checks_decodeMember hlimit h).foldlM_eq_ok hmembers
    (Draft.fits_nil fieldNames) hright
  have hstored := ((foldlM_eq_ok (fun m hm => (hmembers m hm).1) (fun m hm => (hmembers m hm).2)
    fun m hm => decodeChildren_eq_ok (hmembers m hm)).mp hloop).2.2.2
  refine ⟨fun kind =>
    ⟨kind, draft.children.getD [], draft.diagnostics.getD [], draft.span.join⟩, ?_⟩
  rw [decode_obj, hloop, ok_bind, Draft.decodeComplete, ← hstored, List.append_nil,
    List.reverse_reverse, Kind.ofMembers_filter]

/-- The fields of all nodes stop the decoder first, and then the kind. -/
theorem decode_eq_error {value : Json} (hvalue : Shallow (limit + 1) value)
    {cause : ReadError.Cause} (hrefused : Refused value cause) :
    decode (limit + 1) value = .error cause := by
  cases hrefused with
  | mistyped hobject => exact decode_of_not_obj hobject (limit + 1)
  | field hoffence =>
      rw [decode_obj, (checks_decodeMember hlimit h).foldlM_eq_error (shallow_of_member hvalue)
        (Draft.fits_nil fieldNames) hoffence]
      rfl
  | kind hright hkind =>
      obtain ⟨ofKind, hdecode⟩ := decode_of_right hlimit h (shallow_of_member hvalue) hright
      rw [hdecode, Kind.ofMembers_eq_error hkind]
      rfl

/-- A value stands for a node, or something is wrong with it. -/
theorem loads_or_refused {value : Json} (hvalue : Shallow (limit + 1) value) :
    (∃ node, Loads value node) ∨ ∃ cause, Refused value cause := by
  cases value with
  | obj members =>
      rcases (checks_decodeMember hlimit h).right_or_offence members (shallow_of_member hvalue)
        with hright | ⟨cause, hoffence⟩
      · rcases Kind.ofMembers_or_refused members with ⟨kind, hkind⟩ | ⟨fault, hkind⟩
        · obtain ⟨ofKind, hdecode⟩ := decode_of_right hlimit h (shallow_of_member hvalue) hright
          rw [hkind] at hdecode
          exact .inl ⟨ofKind kind, (decode_eq_ok hvalue.1 hvalue.2).mp hdecode⟩
        · exact .inr ⟨_, .kind hright hkind⟩
      · exact .inr ⟨cause, .field hoffence⟩
  | _ => exact .inr ⟨_, .mistyped (by simp)⟩

end

theorem judgedAt {limit : Nat} (hlimit : limit ≤ Reader.depthLimit) : JudgedAt limit := by
  induction limit using Nat.strongRecOn with
  | ind limit ih =>
      have hpassed : ∀ {value}, Shallow limit value → (∃ node, Loads value node) →
          ∃ node, decode limit value = .ok node :=
        fun hvalue ⟨node, hload⟩ => ⟨node, (decode_eq_ok hvalue.1 hvalue.2).mpr hload⟩
      cases limit with
      | zero =>
          -- There is no object without brackets.
          refine ⟨hpassed, ?_, ?_⟩
          · intro value cause hvalue hrefused
            cases hrefused with
            | mistyped hobject => exact decode_of_not_obj hobject 0
            | field | kind => exact absurd hvalue not_shallow_obj
          · intro value hvalue
            cases value with
            | obj members => exact absurd hvalue not_shallow_obj
            | _ => exact .inr ⟨_, .mistyped (by simp)⟩
      | succ limit =>
          have hinner : limit ≤ Reader.depthLimit := Nat.le_of_succ_le hlimit
          have hdeeper : ∀ deeper < limit, JudgedAt deeper := by
            intro deeper hlt
            exact ih deeper (Nat.lt_succ_of_lt hlt) (Nat.le_of_lt (Nat.lt_of_lt_of_le hlt hinner))
          exact ⟨hpassed, fun hvalue => decode_eq_error hinner hdeeper hvalue,
            fun hvalue => loads_or_refused hinner hdeeper hvalue⟩

/-- Of all that is wrong with a value, the reader reports one fault: the first one in the fields
that all nodes may have, however deep it is in the children; if these are right, the first one in
the kind; then the first one in the fields of the kind; and last the first field that is not there.
Every value that stands for no node has such a fault. -/
theorem ofText_refuses {value : Json} (hwhole : value.isWhole)
    (hdepth : value.depth ≤ Reader.depthLimit) (layout : Layout) :
    (∀ cause, (∃ position, ofText (value.render layout) = .error ⟨cause, position⟩) ↔
      Refused value cause) ∧
    ((∃ cause, Refused value cause) ↔ ∀ node, ¬Loads value node) := by
  have hvalue : Shallow Reader.depthLimit value := ⟨hwhole, hdepth⟩
  have hjudged : JudgedAt Reader.depthLimit := judgedAt (Nat.le_refl _)
  constructor
  · intro cause
    rw [← hjudged.eq_error_iff hvalue, ← ofText_render hwhole layout]
    cases ofText (value.render layout) with
    | ok node => simp [Except.mapError]
    | error error =>
        obtain ⟨found, position⟩ := error
        simp [Except.mapError]
  · rw [hjudged.exists_wrong_iff hvalue, not_exists]

/-- A node of no known kind, with a span that is none, and with a token without content behind a
child that is right. -/
def faultyParent : Json :=
  .obj [("kind", .str "nothing"),
    ("children", .arr [.obj [("kind", .natural 9)], .obj [("kind", .str "token")]]),
    ("span", .bool true)]

/-- Of the faults in the parent, that of its second child counts. -/
theorem ofText_faultyParent :
    ∃ position, ofText (faultyParent.render .compact) =
      .error ⟨.unsuitable (.missingField "content"), position⟩ := by
  have hfirst : Loads (.obj [("kind", .natural 9)]) (template []) :=
    loads_iff.mpr ⟨⟨_, rfl, .inr rfl⟩, trivial, ⟨none, rfl, rfl⟩, ⟨none, rfl, rfl⟩, none, rfl, rfl⟩
  have hsecond : Refused (.obj [("kind", .str "token")])
      (.unsuitable (.missingField "content")) := by
    have htag : Required Tag.Loads "kind" [("kind", .str "token")] .token := ⟨_, rfl, .inl rfl⟩
    apply Refused.kind
    · exact right_of_not_mem (by decide)
    · exact .missing htag (right_of_not_mem (by decide)) rfl
  have hchildren : FieldRefused "children"
      (.arr ([.obj [("kind", .natural 9)]] ++ [.obj [("kind", .str "token")]]))
      (.unsuitable (.missingField "content")) :=
    .children (.element (List.forall_mem_singleton.mpr ⟨_, hfirst⟩) hsecond)
  refine ((ofText_refuses rfl (by decide) .compact).1 _).mpr (.field ?_)
  change Offence _ _ _ _ ([_] ++ _ :: _) _
  exact .wrong (right_of_not_mem (by decide)) (by decide) rfl hchildren

end Node

end ComponentLowering
