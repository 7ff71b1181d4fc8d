import ComponentLowering.Proofs.Checking
import ComponentLowering.Proofs.Loading
/-!
Limits on the number of open brackets. A limit that a value keeps has no influence on how it is
decoded, so what is wrong with a span or a diagnostic inside a node is what is wrong with it where
it stands alone.
-/

namespace ComponentLowering

open Json

variable {α ε : Type}

/-- The values of texts whose brackets nest as deep as a limit at most. -/
def Shallow (limit : Nat) (value : Json) : Prop :=
  value.isWhole ∧ value.depth ≤ limit

section

variable {limit : Nat}

theorem shallow_of_element {elements : List Json} (h : Shallow (limit + 1) (.arr elements)) :
    ∀ element ∈ elements, Shallow limit element :=
  fun element he => ⟨Reader.isWhole_arr h.1 element he, depth_le_of_element h.2 element he⟩

theorem shallow_of_member {members : List (String × Json)}
    (h : Shallow (limit + 1) (.obj members)) : ∀ m ∈ members, Shallow limit m.2 :=
  fun m hm => ⟨Reader.isWhole_obj h.1 m hm, depth_le_of_member h.2 m hm⟩

theorem not_shallow_arr {elements : List Json} : ¬Shallow 0 (.arr elements) :=
  fun h => Nat.not_succ_le_zero _ h.2

theorem not_shallow_obj {members : List (String × Json)} : ¬Shallow 0 (.obj members) :=
  fun h => Nat.not_succ_le_zero _ h.2

end

/-! ### Decoding under a limit -/

theorem decodeVariant_limit [Named α] {value : Json} {limit limit' : Nat}
    (h : value.depth ≤ limit) (h' : value.depth ≤ limit') :
    (decodeVariant limit value : Except ReadError.Cause α) = decodeVariant limit' value := by
  cases value with
  | obj members =>
      have hlimit : limit ≠ 0 := by rw [Json.depth] at h; omega
      have hlimit' : limit' ≠ 0 := by rw [Json.depth] at h'; omega
      simp only [decodeVariant, hlimit, hlimit', if_false]
  | _ => rfl

theorem decodeOptional_limit {decode : Nat → Json → Except ReadError.Cause α} {value : Json}
    {limit limit' : Nat} (h : decode limit value = decode limit' value) :
    decodeOptional (decode limit) value = decodeOptional (decode limit') value := by
  cases value with
  | null => rfl
  | _ => simp only [decodeOptional, h]

theorem decodeRecord_limit {form : RecordForm}
    {ofMembers : Nat → List (String × Json) → Except ReadError.Cause α}
    {ofElements : Nat → List Json → Except ReadError.Cause α} {value : Json} {limit limit' : Nat}
    (h : value.depth ≤ limit) (h' : value.depth ≤ limit')
    (hmembers : ∀ deeper deeper' members, (∀ m ∈ members, m.2.depth ≤ deeper) →
      (∀ m ∈ members, m.2.depth ≤ deeper') → ofMembers deeper members = ofMembers deeper' members)
    (helements : ∀ deeper deeper' elements, (∀ element ∈ elements, element.depth ≤ deeper) →
      (∀ element ∈ elements, element.depth ≤ deeper') →
        ofElements deeper elements = ofElements deeper' elements) :
    decodeRecord form ofMembers ofElements limit value =
      decodeRecord form ofMembers ofElements limit' value := by
  cases value with
  | obj members =>
      cases limit with
      | zero => cases h
      | succ limit =>
          cases limit' with
          | zero => cases h'
          | succ limit' =>
              exact hmembers limit limit' members (depth_le_of_member h) (depth_le_of_member h')
  | arr elements =>
      cases limit with
      | zero => cases h
      | succ limit =>
          cases limit' with
          | zero => cases h'
          | succ limit' =>
              exact helements limit limit' elements (depth_le_of_element h) (depth_le_of_element h')
  | _ => cases limit <;> cases limit' <;> rfl

theorem foldlM_congr {σ : Type} {step step' : σ → String × Json → Except ε σ}
    {members : List (String × Json)} (h : ∀ s, ∀ m ∈ members, step s m = step' s m) (s : σ) :
    members.foldlM step s = members.foldlM step' s := by
  induction members generalizing s with
  | nil => rfl
  | cons m rest ih =>
      rw [List.foldlM_cons, List.foldlM_cons, h s m (List.mem_cons_self ..)]
      congr 1
      funext after
      exact ih (fun s m hm => h s m (List.mem_cons_of_mem _ hm)) after

theorem Span.decode_limit {value : Json} {limit limit' : Nat} (h : value.depth ≤ limit)
    (h' : value.depth ≤ limit') : Span.decode limit value = Span.decode limit' value :=
  decodeRecord_limit h h' (fun _ _ _ _ _ => rfl) fun _ _ _ _ _ => rfl

theorem Diagnostic.decode_limit {value : Json} {limit limit' : Nat} (h : value.depth ≤ limit)
    (h' : value.depth ≤ limit') :
    Diagnostic.decode limit value = Diagnostic.decode limit' value := by
  apply decodeRecord_limit h h'
  · intro deeper deeper' members hm hm'
    congr 1
    apply foldlM_congr
    rintro draft ⟨key, value⟩ hmember
    have hvalue : value.depth ≤ deeper := hm _ hmember
    have hvalue' : value.depth ≤ deeper' := hm' _ hmember
    have hspan := decodeOptional_limit (Span.decode_limit hvalue hvalue')
    unfold Draft.decodeMember
    dsimp only
    rw [decodeVariant_limit hvalue hvalue', decodeVariant_limit hvalue hvalue', hspan]
  · intro deeper deeper' elements he he'
    rcases elements with _ | ⟨first, _ | ⟨second, _ | ⟨third, _ | ⟨last, rest⟩⟩⟩⟩
    · rfl
    all_goals simp only [List.forall_mem_cons] at he he'
    · simp only [decodeElements, decodeField, decodeVariant_limit he.1 he'.1]
    · simp only [decodeElements, decodeField, decodeVariant_limit he.1 he'.1,
        decodeVariant_limit he.2.1 he'.2.1]
    · simp only [decodeElements, decodeField, decodeVariant_limit he.1 he'.1,
        decodeVariant_limit he.2.1 he'.2.1, decodeTrailing]
    · have hspan := decodeOptional_limit (Span.decode_limit he.2.2.2.1 he'.2.2.2.1)
      simp only [decodeElements, decodeField, decodeVariant_limit he.1 he'.1,
        decodeVariant_limit he.2.1 he'.2.1, decodeTrailing, hspan]

/-! ### Spans and diagnostics -/

section

variable {value : Json} {limit : Nat}

theorem Span.refused_iff (h : value.isWhole) (hdepth : value.depth ≤ limit)
    (hlimit : limit ≤ Reader.depthLimit) {cause : ReadError.Cause} :
    Span.Refused value cause ↔ Span.decode limit value = .error cause := by
  have hread : (Span.ofText (value.render .compact)).mapError ReadError.cause =
      Span.decode Reader.depthLimit value := Reader.run_render (reads_read _ h) .compact
  rw [Span.Refused, hread, Span.decode_limit hdepth (Nat.le_trans hdepth hlimit)]

theorem Diagnostic.refused_iff (h : value.isWhole) (hdepth : value.depth ≤ limit)
    (hlimit : limit ≤ Reader.depthLimit) {cause : ReadError.Cause} :
    Diagnostic.Refused value cause ↔ Diagnostic.decode limit value = .error cause := by
  have hread : (Diagnostic.ofText (value.render .compact)).mapError ReadError.cause =
      Diagnostic.decode Reader.depthLimit value := Reader.run_render (reads_read _ h) .compact
  rw [Diagnostic.Refused, hread, Diagnostic.decode_limit hdepth (Nat.le_trans hdepth hlimit)]

theorem Diagnostic.judges_decode (hlimit : limit ≤ Reader.depthLimit) :
    Judges (fun value => ∃ diagnostic, Loads value diagnostic) Refused (Shallow limit)
      (decode limit) :=
  .of_iff (fun h => decode_eq_ok h.1 h.2) fun h => refused_iff h.1 h.2 hlimit

end

end ComponentLowering
