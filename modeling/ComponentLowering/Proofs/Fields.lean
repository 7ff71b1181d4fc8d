import ComponentLowering.Proofs.Format
import ComponentLowering.Proofs.RoundTrip
/-!
When decoders succeed, and with what. A loop over the members of an object fills each field of a
draft on its own (`Filled`): that goes well if and only if the field stands in the object as often
as it may, with a value that can be decoded.
-/

namespace ComponentLowering

open Json

variable {α β : Type} {ε : Type}

/-! ### Results -/

theorem faulty_eq_ok {result : Except Fault α} {a : α} :
    faulty result = .ok a ↔ result = .ok a := by
  cases result with
  | error fault => simp [faulty, Except.mapError]
  | ok b => simp

theorem required_eq_ok {name : String} {found : Option α} {a : α} :
    Json.required name found = .ok a ↔ found = some a := by
  cases found <;> simp [Json.required]

theorem decodeOnce_eq_ok {name : String} {before after : Option α}
    {found : Except ReadError.Cause α} :
    decodeOnce name before found = .ok after ↔
      before = none ∧ ∃ a, found = .ok a ∧ some a = after := by
  cases before with
  | none => simp [decodeOnce, map_eq_ok]
  | some b => simp [decodeOnce]

theorem once_eq_ok {name : String} {before after : Option α} {item : Json → Except Fault α}
    {value : Json} :
    Json.once name before item value = .ok after ↔
      before = none ∧ ∃ a, item value = .ok a ∧ some a = after := by
  cases before with
  | none =>
      cases hitem : item value <;> simp [Json.once, hitem, Except.map]
  | some b => simp [Json.once]

/-! ### Fields -/

/-- What a loop over members makes of one field of a draft. -/
def Filled (Loads : Json → α → Prop) (key : String) :
    Option α → List (String × Json) → Option α → Prop
  | before, [], after => before = after
  | before, (other, value) :: rest, after =>
    if other = key then before = none ∧ ∃ a, Loads value a ∧ Filled Loads key (some a) rest after
    else Filled Loads key before rest after

section

variable {Loads : Json → α → Prop} {key : String} {members : List (String × Json)}

theorem valuesOf_cons (key other : String) (value : Json) (members : List (String × Json)) :
    valuesOf key ((other, value) :: members) =
      if other = key then value :: valuesOf key members else valuesOf key members := by
  by_cases h : other = key <;> simp [valuesOf, h]

/-- A field that was found has to be the last one. -/
theorem filled_some {a : α} {after : Option α} :
    Filled Loads key (some a) members after ↔ valuesOf key members = [] ∧ after = some a := by
  induction members with
  | nil => simp [Filled, valuesOf, eq_comm]
  | cons m rest ih =>
      obtain ⟨other, value⟩ := m
      rw [Filled, valuesOf_cons]
      by_cases h : other = key
      · simp [h]
      · simp [h, ih]

theorem filled_none {after : Option α} :
    Filled Loads key none members after ↔ Optional Loads key members after := by
  induction members with
  | nil => cases after <;> simp [Filled, Optional, Required, valuesOf]
  | cons m rest ih =>
      obtain ⟨other, value⟩ := m
      rw [Filled]
      by_cases h : other = key
      · simp only [h, if_true, true_and, filled_some]
        cases after with
        | none => simp [Optional, valuesOf_cons]
        | some a =>
            simp only [Optional, Required, valuesOf_cons, if_true, List.cons.injEq]
            constructor
            · rintro ⟨b, hload, hrest, hb⟩
              cases hb
              exact ⟨value, ⟨rfl, hrest⟩, hload⟩
            · rintro ⟨_, ⟨rfl, hrest⟩, hload⟩
              exact ⟨a, hload, hrest, rfl⟩
      · rw [if_neg h, ih]
        cases after <;> simp [Optional, Required, valuesOf_cons, h]

/-- A loop that looks for one field alone. -/
theorem foldlM_eq_filled {item : Json → Except Fault α}
    {step : Option α → String × Json → Except Fault (Option α)} {before after : Option α}
    (hitem : ∀ {value a}, item value = .ok a ↔ Loads value a)
    (hfield : ∀ found value, step found (key, value) = Json.once key found item value)
    (hother : ∀ found other value, other ≠ key → step found (other, value) = .ok found) :
    members.foldlM step before = .ok after ↔ Filled Loads key before members after := by
  induction members generalizing before with
  | nil => simp [Filled]
  | cons m rest ih =>
      obtain ⟨other, value⟩ := m
      rw [List.foldlM_cons, bind_eq_ok, Filled]
      simp only [ih]
      by_cases h : other = key
      · subst h
        simp only [hfield, once_eq_ok, hitem, if_true]
        constructor
        · rintro ⟨_, ⟨hnone, a, hload, rfl⟩, hrest⟩
          exact ⟨hnone, a, hload, hrest⟩
        · rintro ⟨hnone, a, hload, hrest⟩
          exact ⟨_, ⟨hnone, a, hload, rfl⟩, hrest⟩
      · simp [hother before other value h, h]

theorem optional_some {a : α} :
    Optional Loads key members (some a) ↔ Required Loads key members a :=
  Iff.rfl

end

/-! ### Scalars -/

theorem asString_eq_ok {value : Json} {s : String} : value.asString = .ok s ↔ IsString value s := by
  cases value <;> simp [asString, IsString]

theorem asNatural_eq_ok {value : Json} (h : value.isWhole) {n : UInt64} :
    value.asNatural = .ok n ↔ IsNatural value n := by
  constructor
  · intro hread
    cases value with
    | num number =>
        cases number with
        | real x => cases h
        | whole k =>
            obtain ⟨_, hhigh⟩ := of_decide_eq_true h
            by_cases hk : 0 ≤ k
            · simp only [asNatural, hk, if_true, Except.ok.injEq] at hread
              subst hread
              have hlt : k.toNat < UInt64.size := by
                have hsize : (Reader.greatestNatural : Int) < UInt64.size := by decide
                omega
              have hnat : k.toNat.toUInt64.toNat = k.toNat := UInt64.toNat_ofNat_of_lt hlt
              rw [IsNatural, natural, hnat, Int.toNat_of_nonneg hk]
            · simp [asNatural, hk] at hread
    | _ => cases hread
  · rintro rfl
    exact asNatural_natural n

theorem asNull_eq_ok {value : Json} {nothing : Unit} :
    value.asNull = .ok nothing ↔ value = .null := by
  cases value <;> simp [asNull]

theorem variantOfName_eq_ok [Named α] {name : String} {a : α} :
    Json.variantOfName name = .ok a ↔ name = Named.name a := by
  rw [Json.variantOfName]
  cases hfound : (Named.ofName? name : Option α) with
  | none =>
      constructor
      · intro h
        cases h
      · rintro rfl
        rw [Named.ofName?_name] at hfound
        cases hfound
  | some b =>
      obtain rfl := Named.ofName?_eq_some_iff.mp hfound
      constructor
      · rintro ⟨⟩
        rfl
      · intro h
        rw [Named.name_injective _ _ h]

theorem decodeVariant_succ_eq_ok [Named α] {value : Json} {limit : Nat} {a : α} :
    decodeVariant (limit + 1) value = .ok a ↔ Names value a := by
  cases value with
  | str name => simp [decodeVariant, Names, faulty_eq_ok, variantOfName_eq_ok]
  | obj members =>
      rcases members with _ | ⟨⟨name, content⟩, _ | ⟨other, rest⟩⟩
      · simp [decodeVariant, Names]
      · simp [decodeVariant, Names, bind_eq_ok, map_eq_ok, faulty_eq_ok, variantOfName_eq_ok,
          asNull_eq_ok]
      · simp [decodeVariant, Names, bind_eq_ok]
  | _ => simp [decodeVariant, Names]

theorem decodeVariant_eq_ok [Named α] {value : Json} {limit : Nat} (h : value.depth ≤ limit)
    {a : α} : decodeVariant limit value = .ok a ↔ Names value a := by
  cases limit with
  | succ limit => exact decodeVariant_succ_eq_ok
  | zero =>
      cases value with
      | obj members => cases h
      | str name => simp [decodeVariant, Names, faulty_eq_ok, variantOfName_eq_ok]
      | _ => simp [decodeVariant, Names]

theorem asVariant_eq_ok [Named α] {value : Json} {a : α} :
    value.asVariant = .ok a ↔ NamesStored value a := by
  match value with
  | .str name => simp [asVariant, NamesStored, Names, variantOfName_eq_ok]
  | .obj [(name, .null)] | .obj [(name, .obj [])] =>
    simp [asVariant, NamesStored, Names, variantOfName_eq_ok]
  | .obj [(name, .bool _)] | .obj [(name, .num _)] | .obj [(name, .str _)] | .obj [(name, .arr _)]
  | .obj [(name, .obj (_ :: _))] =>
    simp [asVariant, NamesStored, Names, bind_eq_ok]
  | .obj [] | .obj (_ :: _ :: _) | .null | .bool _ | .num _ | .arr _ =>
    simp [asVariant, NamesStored, Names]

theorem asOptional_eq_ok {item : Json → Except Fault α} {Loads : Json → α → Prop} {value : Json}
    (h : ∀ {a}, item value = .ok a ↔ Loads value a) {found : Option α} :
    asOptional item value = .ok found ↔ OrNull Loads value found := by
  by_cases hnull : value = .null
  · subst hnull
    cases found <;> simp [asOptional, OrNull]
  · have hitem : asOptional item value = some <$> item value := by
      cases value with
      | null => exact absurd rfl hnull
      | _ => rfl
    rw [hitem, map_eq_ok]
    cases found <;> simp [OrNull, hnull, h]

theorem decodeOptional_eq_ok {decode : Json → Except ReadError.Cause α} {Loads : Json → α → Prop}
    {value : Json} (h : ∀ {a}, decode value = .ok a ↔ Loads value a) {found : Option α} :
    decodeOptional decode value = .ok found ↔ OrNull Loads value found := by
  by_cases hnull : value = .null
  · subst hnull
    cases found <;> simp [decodeOptional, OrNull]
  · have hitem : decodeOptional decode value = some <$> decode value := by
      cases value with
      | null => exact absurd rfl hnull
      | _ => rfl
    rw [hitem, map_eq_ok]
    cases found <;> simp [OrNull, hnull, h]

theorem mapM_eq_ok {item : Json → Except ε α} {Loads : Json → α → Prop} {elements : List Json}
    (h : ∀ element ∈ elements, ∀ {a}, item element = .ok a ↔ Loads element a) {as : List α} :
    elements.mapM item = .ok as ↔ List.Forall₂ Loads elements as := by
  induction elements generalizing as with
  | nil => simp [eq_comm]
  | cons element rest ih =>
      obtain ⟨hhead, hrest⟩ := List.forall_mem_cons.mp h
      replace hrest : ∀ {as}, rest.mapM item = .ok as ↔ List.Forall₂ Loads rest as := ih hrest
      simp only [List.mapM_cons, bind_eq_ok, hhead, hrest, pure_eq_ok, Except.ok.injEq,
        List.forall₂_cons_left_iff]
      constructor
      · rintro ⟨a, ha, as, has, rfl⟩
        exact ⟨a, as, ha, has, rfl⟩
      · rintro ⟨a, as, ha, has, rfl⟩
        exact ⟨a, ha, as, has, rfl⟩

/-! ### Records -/

/-- A record stands in a value if it stands in the members or in the elements. -/
theorem decodeRecord_eq_ok {form : RecordForm}
    {ofMembers : Nat → List (String × Json) → Except ReadError.Cause α}
    {ofElements : Nat → List Json → Except ReadError.Cause α} {Loads : Json → α → Prop}
    {limit : Nat} {value : Json} {a : α} (hdepth : value.depth ≤ limit)
    (hload : Loads value a → value.depth ≠ 0)
    (hmembers : ∀ deeper members, limit = deeper + 1 → value = .obj members →
      (ofMembers deeper members = .ok a ↔ Loads value a))
    (helements : ∀ deeper elements, limit = deeper + 1 → value = .arr elements →
      (ofElements deeper elements = .ok a ↔ Loads value a)) :
    decodeRecord form ofMembers ofElements limit value = .ok a ↔ Loads value a := by
  cases value with
  | obj members =>
      cases limit with
      | zero => cases hdepth
      | succ limit => exact hmembers limit members rfl rfl
  | arr elements =>
      cases limit with
      | zero => cases hdepth
      | succ limit => exact helements limit elements rfl rfl
  | _ =>
      constructor
      · intro hread
        cases limit <;> cases hread
      · intro h
        exact absurd rfl (hload h)

theorem decodeField_eq_ok {form : RecordForm} {index : Nat}
    {decode : Json → Except ReadError.Cause α}
    {next : α → List Json → Except ReadError.Cause β} {elements : List Json} {b : β} :
    decodeField form index decode next elements = .ok b ↔
      ∃ element rest, elements = element :: rest ∧
        ∃ a, decode element = .ok a ∧ next a rest = .ok b := by
  cases elements <;> simp [decodeField, bind_eq_ok]

theorem decodeEnd_eq_ok {a b : α} {elements : List Json} :
    decodeEnd a elements = .ok b ↔ elements = [] ∧ a = b := by
  cases elements <;> simp [decodeEnd]

theorem decodeList_eq_ok {decode : Json → Except ReadError.Cause α} {Loads : Json → α → Prop}
    {value : Json}
    (h : ∀ elements, value = .arr elements →
      ∀ element ∈ elements, ∀ {a}, decode element = .ok a ↔ Loads element a) {as : List α} :
    decodeList (some decode) value = .ok as ↔ ListOf Loads value as := by
  cases value with
  | arr elements => simp [decodeList, ListOf, mapM_eq_ok (h elements rfl)]
  | _ => simp [decodeList, ListOf]

/-- There is no list in a value without brackets. -/
theorem decodeList_none_eq_ok {Loads : Json → α → Prop} {value : Json} (h : value.depth ≤ 0)
    {as : List α} : decodeList none value = .ok as ↔ ListOf Loads value as := by
  cases value with
  | arr elements => cases h
  | _ => simp [decodeList, ListOf]

theorem depth_le_of_element {elements : List Json} {limit : Nat}
    (h : (Json.arr elements).depth ≤ limit + 1) : ∀ element ∈ elements, element.depth ≤ limit := by
  replace h : depthOfElements elements ≤ limit := Nat.le_of_succ_le_succ h
  induction elements with
  | nil => simp
  | cons element rest ih =>
      rw [depthOfElements, Nat.max_le] at h
      exact List.forall_mem_cons.mpr ⟨h.1, ih h.2⟩

theorem depth_le_of_member {members : List (String × Json)} {limit : Nat}
    (h : (Json.obj members).depth ≤ limit + 1) : ∀ m ∈ members, m.2.depth ≤ limit := by
  replace h : depthOfMembers members ≤ limit := Nat.le_of_succ_le_succ h
  induction members with
  | nil => simp
  | cons m rest ih =>
      rw [depthOfMembers, Nat.max_le] at h
      exact List.forall_mem_cons.mpr ⟨h.1, ih h.2⟩

end ComponentLowering
