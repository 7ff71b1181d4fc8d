import ComponentLowering.Proofs.Fields
import ComponentLowering.Proofs.Refusals
import Mathlib.Data.List.Induction
/-!
Decoders that stop at the first fault. A decoder judges values (`Judges`): it gives something for
those that are right, and what is wrong with the others. A loop over the members of an object that
takes each field by such a decoder stops at the member that `Offence` finds
(`Checks.foldlM_eq_error`), and a list is decoded up to its first bad element (`judges_list`).
-/

namespace ComponentLowering

open Json

variable {α σ ε : Type}

/-- What is said of values, as far as they are `allowed`, is what `item` makes of them. -/
structure Judges (Stands : Json → Prop) (Wrong : Json → ε → Prop) (allowed : Json → Prop)
    (item : Json → Except ε α) : Prop where
  passed : ∀ {value}, allowed value → Stands value → ∃ a, item value = .ok a
  wrong : ∀ {value error}, allowed value → Wrong value error → item value = .error error
  total : ∀ {value}, allowed value → Stands value ∨ ∃ error, Wrong value error

section

variable {Stands allowed : Json → Prop} {Wrong : Json → ε → Prop} {item : Json → Except ε α}
  {value : Json}

theorem Judges.of_iff {Loads : Json → α → Prop}
    (hloads : ∀ {value a}, allowed value → (item value = .ok a ↔ Loads value a))
    (hwrong : ∀ {value error}, allowed value → (Wrong value error ↔ item value = .error error)) :
    Judges (fun value => ∃ a, Loads value a) Wrong allowed item where
  passed := fun hvalue ⟨a, ha⟩ => ⟨a, (hloads hvalue).mpr ha⟩
  wrong := fun hvalue hw => (hwrong hvalue).mp hw
  total := by
    intro value hvalue
    cases hitem : item value with
    | ok a => exact .inl ⟨a, (hloads hvalue).mp hitem⟩
    | error error => exact .inr ⟨error, (hwrong hvalue).mpr hitem⟩

theorem Judges.eq_error_iff (h : Judges Stands Wrong allowed item) (hvalue : allowed value)
    {error : ε} : item value = .error error ↔ Wrong value error := by
  constructor
  · intro hitem
    rcases h.total hvalue with hstands | ⟨other, hwrong⟩
    · obtain ⟨a, ha⟩ := h.passed hvalue hstands
      rw [hitem] at ha
      cases ha
    · have hother := h.wrong hvalue hwrong
      rw [hitem] at hother
      cases hother
      exact hwrong
  · exact h.wrong hvalue

theorem Judges.exists_wrong_iff (h : Judges Stands Wrong allowed item) (hvalue : allowed value) :
    (∃ error, Wrong value error) ↔ ¬Stands value := by
  constructor
  · rintro ⟨error, hwrong⟩ hstands
    obtain ⟨a, ha⟩ := h.passed hvalue hstands
    rw [h.wrong hvalue hwrong] at ha
    cases ha
  · exact (h.total hvalue).resolve_left

end

/-! ### Loops over members -/

/-- A step of a loop that checks the fields of some names, where `found` tells which of them were
there before. -/
structure Checks (keys : List String) (Stands : String → Json → Prop)
    (Wrong : String → Json → ε → Prop) (duplicate : String → ε) (allowed : Json → Prop)
    (found : σ → String → Bool) (step : σ → String × Json → Except ε σ) : Prop where
  passed : ∀ {s : σ} {key : String} {value : Json}, allowed value →
    (key ∈ keys → found s key = false ∧ Stands key value) →
      ∃ after, step s (key, value) = .ok after ∧
        ∀ other ∈ keys, found after other = (found s other || decide (key = other))
  repeated : ∀ {s : σ} {key : String} {value : Json}, key ∈ keys → found s key = true →
    step s (key, value) = .error (duplicate key)
  wrong : ∀ {s : σ} {key : String} {value : Json} {error : ε}, allowed value → key ∈ keys →
    found s key = false → Wrong key value error → step s (key, value) = .error error
  total : ∀ {key : String} {value : Json}, allowed value → key ∈ keys →
    Stands key value ∨ ∃ error, Wrong key value error

/-- A step takes a field: unless the field was found before, its value is looked at and kept. -/
structure Takes (keys : List String) (duplicate : String → ε) (found : σ → String → Bool)
    (step : σ → String × Json → Except ε σ) (key : String) (item : Json → Except ε α)
    (get : σ → Option α) (set : σ → α → σ) : Prop where
  step_eq : ∀ s value, step s (key, value) =
    if (get s).isSome then .error (duplicate key) else set s <$> item value
  found_eq : ∀ s, found s key = (get s).isSome
  found_set : ∀ s a, ∀ other ∈ keys, found (set s a) other = (found s other || decide (key = other))

/-- What a loop found is what stands in the members that it saw. -/
def Fits (keys : List String) (found : σ → String → Bool) (s : σ)
    (before : List (String × Json)) : Prop :=
  ∀ key ∈ keys, found s key = !(valuesOf key before).isEmpty

section

variable {keys : List String} {Stands : String → Json → Prop} {Wrong : String → Json → ε → Prop}
  {duplicate : String → ε} {allowed : Json → Prop} {found : σ → String → Bool}
  {step : σ → String × Json → Except ε σ} {before members : List (String × Json)}

/-- A loop that takes some fields, each in its own way, and finds no other. -/
theorem Checks.of_fields
    (hfields : ∀ key ∈ keys, ∃ (α : Type) (item : Json → Except ε α) (get : σ → Option α)
      (set : σ → α → σ), Takes keys duplicate found step key item get set ∧
        Judges (Stands key) (Wrong key) allowed item)
    (hother : ∀ s, ∀ key ∉ keys, ∀ value, allowed value →
      ∃ after, step s (key, value) = .ok after ∧
        ∀ other ∈ keys, found after other = found s other) :
    Checks keys Stands Wrong duplicate allowed found step where
  passed := by
    intro s key value hvalue hkey
    by_cases hmem : key ∈ keys
    · obtain ⟨α, item, get, set, htakes, hjudges⟩ := hfields key hmem
      obtain ⟨hnone, hstands⟩ := hkey hmem
      obtain ⟨a, ha⟩ := hjudges.passed hvalue hstands
      rw [htakes.found_eq] at hnone
      refine ⟨set s a, ?_, htakes.found_set s a⟩
      rw [htakes.step_eq, hnone, ha]
      rfl
    · obtain ⟨after, hstep, hfound⟩ := hother s key hmem value hvalue
      refine ⟨after, hstep, ?_⟩
      intro other hmem'
      have hne : key ≠ other := fun heq => hmem (heq ▸ hmem')
      rw [hfound other hmem', decide_eq_false hne, Bool.or_false]
  repeated := by
    intro s key value hmem hfound
    obtain ⟨α, item, get, set, htakes, _⟩ := hfields key hmem
    rw [htakes.found_eq] at hfound
    rw [htakes.step_eq, hfound, if_pos rfl]
  wrong := by
    intro s key value error hvalue hmem hfound hwrong
    obtain ⟨α, item, get, set, htakes, hjudges⟩ := hfields key hmem
    rw [htakes.found_eq] at hfound
    rw [htakes.step_eq, hfound, hjudges.wrong hvalue hwrong]
    rfl
  total := by
    intro key value hvalue hmem
    obtain ⟨α, item, get, set, _, hjudges⟩ := hfields key hmem
    exact hjudges.total hvalue

theorem Fits.append {s after : σ} {key : String} {value : Json} (h : Fits keys found s before)
    (hafter : ∀ other ∈ keys, found after other = (found s other || decide (key = other))) :
    Fits keys found after (before ++ [(key, value)]) := by
  intro other hother
  rw [hafter other hother, h other hother, valuesOf_append, valuesOf_singleton]
  by_cases hkey : key = other
  · simp [hkey]
  · simp [hkey]

theorem Fits.found_eq_false {s : σ} {key : String} (h : Fits keys found s before)
    (hkey : key ∈ keys) : found s key = false ↔ valuesOf key before = [] := by
  rw [h key hkey]
  simp

namespace Checks

/-- A loop goes through members that are right. -/
theorem foldlM_eq_ok (h : Checks keys Stands Wrong duplicate allowed found step)
    (hallowed : ∀ m ∈ members, allowed m.2) {s : σ} (hfits : Fits keys found s before)
    (hright : Right keys Stands (before ++ members)) :
    ∃ after, members.foldlM step s = .ok after ∧ Fits keys found after (before ++ members) := by
  induction members generalizing before s with
  | nil => exact ⟨s, rfl, by rwa [List.append_nil]⟩
  | cons m rest ih =>
      obtain ⟨key, value⟩ := m
      obtain ⟨hvalue, hrest⟩ := List.forall_mem_cons.mp hallowed
      rw [List.append_cons] at hright ⊢
      have hbefore : Right keys Stands before := hright.of_append.of_append
      have hmember := (right_append_singleton hbefore).mp hright.of_append
      obtain ⟨middle, hstep, hfound⟩ := h.passed (s := s) hvalue fun hkey =>
        ⟨(hfits.found_eq_false hkey).mpr (hmember hkey).1, (hmember hkey).2⟩
      obtain ⟨after, hloop, hfits⟩ := ih hrest (hfits.append hfound) hright
      exact ⟨after, by rw [List.foldlM_cons, hstep]; exact hloop, hfits⟩

/-- A loop stops at the first member at fault. -/
theorem foldlM_eq_error (h : Checks keys Stands Wrong duplicate allowed found step)
    (hallowed : ∀ m ∈ members, allowed m.2) {s : σ} (hfits : Fits keys found s []) {error : ε}
    (hoffence : Offence keys Stands Wrong duplicate members error) :
    members.foldlM step s = .error error := by
  have hstop : ∀ {before after : List (String × Json)} {m : String × Json},
      (∀ m' ∈ before ++ m :: after, allowed m'.2) → Right keys Stands before →
      (∀ middle, Fits keys found middle before → step middle m = .error error) →
      (before ++ m :: after).foldlM step s = .error error := by
    intro before after m hallowed hright hstep
    have hstart : Right keys Stands ([] ++ before) := hright
    obtain ⟨middle, hloop, hmiddle⟩ := h.foldlM_eq_ok
      (fun m' hm' => hallowed m' (List.mem_append_left _ hm')) hfits hstart
    exact foldlM_eq_error_iff.mpr ⟨before, m, after, middle, rfl, hloop, hstep middle hmiddle⟩
  cases hoffence with
  | repeated hright hkey hbefore =>
      apply hstop hallowed hright
      intro middle hmiddle
      apply h.repeated hkey
      rw [hmiddle _ hkey, List.isEmpty_eq_false_iff.mpr hbefore, Bool.not_false]
  | wrong hright hkey hbefore hwrong =>
      apply hstop hallowed hright
      intro middle hmiddle
      apply h.wrong _ hkey ((hmiddle.found_eq_false hkey).mpr hbefore) hwrong
      exact hallowed _ (List.mem_append_right _ (List.mem_cons_self ..))

/-- Members are right, or one of them is the first at fault. -/
theorem right_or_offence (h : Checks keys Stands Wrong duplicate allowed found step)
    (members : List (String × Json)) (hallowed : ∀ m ∈ members, allowed m.2) :
    Right keys Stands members ∨ ∃ error, Offence keys Stands Wrong duplicate members error := by
  induction members using List.reverseRecOn with
  | nil => exact .inl fun _ _ => .inl rfl
  | append_singleton before m ih =>
      obtain ⟨key, value⟩ := m
      have hvalue := hallowed (key, value) (by simp)
      rcases ih fun m hm => hallowed m (List.mem_append_left _ hm) with hright | ⟨error, hoffence⟩
      · by_cases hkey : key ∈ keys
        · by_cases hbefore : valuesOf key before = []
          · rcases h.total hvalue hkey with hstands | ⟨error, hwrong⟩
            · exact .inl ((right_append_singleton hright).mpr fun _ => ⟨hbefore, hstands⟩)
            · exact .inr ⟨error, .wrong hright hkey hbefore hwrong⟩
          · exact .inr ⟨duplicate key, .repeated hright hkey hbefore⟩
        · exact .inl ((right_append_singleton hright).mpr fun hmem => absurd hmem hkey)
      · exact .inr ⟨error, hoffence.append _⟩

end Checks

end

/-! ### Fields -/

theorem once_bind {σ : Type} {name : String} {before : Option α} {item : Json → Except Fault α}
    {value : Json} {set : Option α → σ} :
    (Json.once name before item value >>= fun after => pure (set after)) =
      if before.isSome then .error (.duplicateField name)
      else (fun a => set (some a)) <$> item value := by
  rw [Json.once]
  split
  · rfl
  · cases item value <;> rfl

theorem decodeOnce_bind {σ : Type} {name : String} {before : Option α}
    {found : Except ReadError.Cause α} {set : Option α → σ} :
    (decodeOnce name before found >>= fun after => pure (set after)) =
      if before.isSome then .error (.unsuitable (.duplicateField name))
      else (fun a => set (some a)) <$> found := by
  rw [decodeOnce]
  split
  · rfl
  · cases found <;> rfl

theorem discard_eq_ok {result : Except ε α} {nothing : Unit} :
    Functor.discard result = .ok nothing ↔ ∃ a, result = .ok a := by
  cases result <;> simp [Functor.discard, Functor.mapConst, Except.map]

theorem discard_eq_error {result : Except ε α} {error : ε} :
    Functor.discard result = .error error ↔ result = .error error := by
  cases result <;> simp [Functor.discard, Functor.mapConst, Except.map]

theorem decodeOptional_eq_error {decode : Json → Except ReadError.Cause α} {value : Json}
    {cause : ReadError.Cause} :
    decodeOptional decode value = .error cause ↔ value ≠ .null ∧ decode value = .error cause := by
  cases value with
  | null => simp [decodeOptional]
  | _ =>
      rename_i content
      simp only [decodeOptional]
      cases decode _ <;> simp

/-! ### Lists -/

theorem mapM_eq_error {item : Json → Except ε α} {before after : List Json} {element : Json}
    {error : ε} (hbefore : ∀ earlier ∈ before, ∃ a, item earlier = .ok a)
    (helement : item element = .error error) :
    (before ++ element :: after).mapM item = .error error := by
  induction before with
  | nil =>
      rw [List.nil_append, List.mapM_cons, helement]
      rfl
  | cons earlier rest ih =>
      obtain ⟨⟨a, hearlier⟩, hrest⟩ := List.forall_mem_cons.mp hbefore
      rw [List.cons_append, List.mapM_cons, hearlier, ok_bind, ih hrest]
      rfl

theorem exists_forall₂ {Loads : Json → α → Prop} {elements : List Json} :
    (∃ as, List.Forall₂ Loads elements as) ↔ ∀ element ∈ elements, ∃ a, Loads element a := by
  constructor
  · rintro ⟨as, has⟩
    exact ((List.forall₂_and_left _ _).mp (has.imp fun _ a ha => ⟨⟨a, ha⟩, ha⟩)).1
  · intro h
    induction elements with
    | nil => exact ⟨[], .nil⟩
    | cons element rest ih =>
        obtain ⟨⟨a, ha⟩, hrest⟩ := List.forall_mem_cons.mp h
        obtain ⟨as, has⟩ := ih hrest
        exact ⟨a :: as, .cons ha has⟩

theorem forall_or_refused {Stands : Json → Prop} {Wrong : Json → ReadError.Cause → Prop}
    {elements : List Json}
    (h : ∀ element ∈ elements, Stands element ∨ ∃ cause, Wrong element cause) :
    (∀ element ∈ elements, Stands element) ∨
      ∃ cause, ListRefused Stands Wrong (.arr elements) cause := by
  induction elements with
  | nil => exact .inl (List.forall_mem_nil _)
  | cons element rest ih =>
      obtain ⟨helement, hrest⟩ := List.forall_mem_cons.mp h
      rcases helement with hstands | ⟨cause, hwrong⟩
      · rcases ih hrest with hall | ⟨cause, hrefused⟩
        · exact .inl (List.forall_mem_cons.mpr ⟨hstands, hall⟩)
        · cases hrefused with
          | mistyped hlist => exact absurd rfl (hlist rest)
          | element hbefore hwrong =>
              rw [← List.cons_append]
              exact .inr ⟨cause, .element (List.forall_mem_cons.mpr ⟨hstands, hbefore⟩) hwrong⟩
      · rw [← List.nil_append (element :: rest)]
        exact .inr ⟨cause, .element (List.forall_mem_nil _) hwrong⟩

theorem decodeList_eq_error {item? : Option (Json → Except ReadError.Cause α)} {value : Json}
    (h : ∀ elements, value ≠ .arr elements) :
    decodeList item? value = .error (.unsuitable (.invalidType value.found .sequence)) := by
  cases value with
  | arr elements => exact absurd rfl (h elements)
  | _ => rfl

section

variable {Loads : Json → α → Prop} {Wrong : Json → ReadError.Cause → Prop}
  {allowed inner : Json → Prop} {item : Json → Except ReadError.Cause α}

/-- A list is decoded up to its first bad element. -/
theorem judges_list (h : Judges (fun element => ∃ a, Loads element a) Wrong inner item)
    (hinner : ∀ elements, allowed (.arr elements) → ∀ element ∈ elements, inner element) :
    Judges (fun value => ∃ as, ListOf Loads value as)
      (ListRefused (fun element => ∃ a, Loads element a) Wrong) allowed
      (decodeList (some item)) where
  passed := by
    rintro _ hallowed ⟨as, elements, rfl, has⟩
    have hread : ∀ element ∈ elements, ∃ a, item element = .ok a := by
      intro element helement
      apply h.passed (hinner elements hallowed element helement)
      exact exists_forall₂.mp ⟨as, has⟩ element helement
    obtain ⟨as', has'⟩ := exists_forall₂.mpr hread
    exact ⟨as', (mapM_eq_ok fun _ _ => Iff.rfl).mpr has'⟩
  wrong := by
    intro value cause hallowed hrefused
    cases hrefused with
    | mistyped hvalue => exact decodeList_eq_error hvalue
    | element hbefore hwrong =>
        have helements := hinner _ hallowed
        apply mapM_eq_error
        · intro earlier hearlier
          exact h.passed (helements earlier (List.mem_append_left _ hearlier))
            (hbefore earlier hearlier)
        · exact h.wrong (helements _ (by simp)) hwrong
  total := by
    intro value hallowed
    cases value with
    | arr elements =>
        rcases forall_or_refused fun element helement =>
          h.total (hinner elements hallowed element helement) with hall | hrefused
        · obtain ⟨as, has⟩ := exists_forall₂.mpr hall
          exact .inl ⟨as, elements, rfl, has⟩
        · exact .inr hrefused
    | _ => exact .inr ⟨_, .mistyped (by simp)⟩

/-- Where no list is allowed, none is decoded. -/
theorem judges_no_list (hnone : ∀ elements, ¬allowed (.arr elements)) :
    Judges (fun value => ∃ as, ListOf Loads value as)
      (ListRefused (fun element => ∃ a, Loads element a) Wrong) allowed
      (decodeList (none : Option (Json → Except ReadError.Cause α))) where
  passed := by
    rintro _ hallowed ⟨as, elements, rfl, _⟩
    exact absurd hallowed (hnone elements)
  wrong := by
    intro value cause hallowed hrefused
    cases hrefused with
    | mistyped hvalue => exact decodeList_eq_error hvalue
    | element hbefore hwrong => exact absurd hallowed (hnone _)
  total := by
    intro value hallowed
    cases value with
    | arr elements => exact absurd hallowed (hnone elements)
    | _ => exact .inr ⟨_, .mistyped (by simp)⟩

end

end ComponentLowering
