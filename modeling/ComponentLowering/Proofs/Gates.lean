import ComponentLowering.Proofs.Visit
/-!
Passes for several gates. One run for each of two gates, in either order, leaves the tree that a
single run for both leaves: a run unwraps whatever it meets, so that the next one finds only
attributes to remove, and these read as they did before (`Descends.reading_eq`).
-/

namespace ComponentLowering
namespace ComplexContent

open Node (removals)

/-- The gate that opens when one of two gates does. -/
def either (first second : Descriptor → Bool) (descriptor : Descriptor) : Bool :=
  first descriptor || second descriptor

theorem any_either (first second : Descriptor → Bool) (descriptors : List Descriptor) :
    descriptors.any (either first second) = (descriptors.any first || descriptors.any second) := by
  induction descriptors with
  | nil => rfl
  | cons descriptor rest ih =>
      simp only [List.any_cons, ih, either]
      ac_rfl

section

variable (first second : Descriptor → Bool) (isFirst isSecond : Bool)

/-- What stays of a child in the run for the first gate meets the second as it would meet both. -/
theorem settleChild_bind (child : Node)
    (ih : ∀ smaller : Node, smaller.size ≤ child.size →
      settle second (settle first smaller) = settle (either first second) smaller) :
    (settleChild first isFirst child).bind (settleChild second isSecond) =
      settleChild (either first second) (isFirst || isSecond) child := by
  have hkept : (settle first child).reading 0 = (child.reading 0).map (settle first) :=
    (settle_descends first).reading_eq child
  have hself := ih child (Nat.le_refl _)
  unfold settleChild
  cases hreading : child.reading 0 with
  | whole =>
      rw [hreading] at hkept
      simp only [Reading.survivor, Option.bind_some, hkept, Reading.map, hself]
  | value expression part =>
      obtain ⟨hbinding, _, hexpression, _⟩ := Node.reading_eq_value hreading
      have hpart := ih part (Nat.le_of_lt (Node.size_of_value hreading))
      simp only [Reading.survivor, Option.bind_some, Node.reading_unwrapped hexpression,
        (settle_descends second).map_unwrapped hbinding hexpression, hpart]
  | template expression part =>
      obtain ⟨hbinding, _, hexpression, _⟩ := Node.reading_eq_template hreading
      have hsize : part.stripMarkers.size ≤ child.size :=
        Nat.le_trans (Node.size_stripMarkers_le part)
          (Nat.le_of_lt (Node.size_of_template hreading))
      simp only [Reading.survivor, Option.bind_some, Node.reading_unwrapped hexpression,
        (settle_descends second).map_unwrapped hbinding hexpression, ih _ hsize]
  | mixed =>
      rw [hreading] at hkept
      cases isFirst with
      | true => rfl
      | false =>
          simp only [Reading.survivor, Bool.false_eq_true, if_false, Option.bind_some, hkept,
            Reading.map, hself, Bool.false_or]

/-- A component keeps nothing that a later run could report. -/
theorem removals_of_component (children : List Node) :
    removals isSecond 0 (children.filterMap (settleChild first true)) = [] := by
  have hnone : ∀ kept ∈ children.filterMap (settleChild first true),
      ¬(isSecond && (kept.reading 0).isMixed) = true := by
    intro kept hkept
    obtain ⟨child, _, hsettled⟩ := List.mem_filterMap.mp hkept
    rcases reading_settleChild hsettled with ⟨hwhole, _⟩ | ⟨_, _, hfalse⟩
    · intro hreported
      rw [hwhole] at hreported
      exact Bool.false_ne_true (Bool.and_eq_true_iff.mp hreported).2
    · cases hfalse
  rw [removals, List.filter_eq_nil_iff.mpr hnone]
  rfl

/-- A plain tag keeps all that a later run has to report, as it was. -/
theorem removals_of_plain (children : List Node) :
    removals isSecond 0 (children.filterMap (settleChild first false)) =
      removals isSecond 0 children := by
  induction children with
  | nil => rfl
  | cons child later ih =>
      obtain ⟨kept, hsettled⟩ := settleChild_of_plain first child
      have hmixed : (kept.reading 0).isMixed = (child.reading 0).isMixed := by
        rcases reading_settleChild hsettled with ⟨hkept, hchild⟩ | ⟨hkept, hchild, _⟩
        · rw [hkept, hchild]; rfl
        · rw [hkept, hchild]; rfl
      rw [List.filterMap_cons_some hsettled, Node.removals_cons, Node.removals_cons, ih, hmixed,
        removal_settleChild hsettled]

theorem removals_append (children : List Node) :
    removals isFirst 0 children ++
        removals isSecond 0 (children.filterMap (settleChild first isFirst)) =
      removals (isFirst || isSecond) 0 children := by
  cases isFirst with
  | true => rw [removals_of_component, List.append_nil, Bool.true_or]
  | false =>
      have hnil : removals false 0 children = [] := by
        rw [removals, List.filter_eq_nil_iff.mpr]
        · rfl
        · exact fun _ _ => Bool.false_ne_true
      rw [removals_of_plain, hnil, List.nil_append, Bool.false_or]

end

/-- Two visits make one. -/
theorem settle_settle (first second : Descriptor → Bool) (node : Node) :
    settle second (settle first node) = settle (either first second) node := by
  induction node using Node.bySize with
  | step node ih =>
      have hall : node.tag ≠ .tagHelper →
          settle second (settle first node) = settle (either first second) node := by
        intro htag
        have htag' : (settle first node).tag ≠ .tagHelper := by rwa [Node.tag, kind_settle]
        rw [settle_of_not_tag second htag', settle_of_not_tag first htag,
          settle_of_not_tag (either first second) htag]
        simp only [List.map_map]
        congr 1
        exact List.map_congr_left fun child hchild => ih child (Node.size_lt_of_mem hchild)
      rcases node.kind_cases with ⟨tagName, descriptors, hkind⟩ | hkind | ⟨htag, _⟩
      · have hkind' : (settle first node).kind = .tagHelper tagName descriptors := by
          rw [kind_settle, hkind]
        rw [settle_of_tag second hkind', settle_of_tag (either first second) hkind,
          settle_of_tag first hkind, any_either]
        simp only [List.filterMap_filterMap, List.append_assoc, removals_append]
        congr 1
        refine List.filterMap_congr fun child hchild => ?_
        exact settleChild_bind first second _ _ child fun smaller hsmaller =>
          ih smaller (Nat.lt_of_le_of_lt hsmaller (Node.size_lt_of_mem hchild))
      · exact hall (Node.tag_of_expression hkind)
      · exact hall htag

theorem outcome_outcome (first second : Descriptor → Bool) (logger logger' logger'' : Logger)
    (tree : Node) :
    outcome second logger' (outcome first logger tree) =
      outcome (either first second) logger'' tree := by
  by_cases h : tree.fileKind? = some .legacy
  · rw [outcome_of_legacy first logger h, outcome_of_legacy second logger' h,
      outcome_of_legacy _ logger'' h]
  · have h' : (settle first tree).fileKind? ≠ some .legacy := by
      rwa [Node.fileKind?, kind_settle]
    rw [outcome_eq_settle first logger h, outcome_eq_settle second logger' h',
      outcome_eq_settle _ logger'' h, settle_settle]

theorem either_self (gate : Descriptor → Bool) : either gate gate = gate := by
  funext descriptor
  exact Bool.or_self (gate descriptor)

theorem either_comm (first second : Descriptor → Bool) :
    either first second = either second first := by
  funext descriptor
  exact Bool.or_comm (first descriptor) (second descriptor)

/-- Runs for two gates compose to a run for either, whatever loggers they write to; so a run changes
nothing that a run for the same gate left, and runs for different gates may change places. -/
theorem gates_compose (first second : Descriptor → Bool) (logger logger' logger'' : Logger)
    (tree : Node) :
    outcome second logger' (outcome first logger tree) =
        outcome (either first second) logger'' tree ∧
      outcome first logger' (outcome first logger tree) = outcome first logger tree ∧
      outcome second logger' (outcome first logger tree) =
        outcome first logger'' (outcome second logger tree) := by
  refine ⟨outcome_outcome first second logger logger' logger'' tree, ?_, ?_⟩
  · rw [outcome_outcome first first logger logger' logger, either_self]
  · rw [outcome_outcome first second logger logger' logger,
      outcome_outcome second first logger logger'' logger, either_comm]

end ComplexContent
end ComponentLowering
