import ComponentLowering.Proofs.Lowering
/-!
The order in which passes run. However passes were added, a pipeline holds their stable sort by
order (`stableSort_foldl_add`), and there is only one (`StableSort.unique`). A run is a chain of
executions, one for each pass of the pipeline: each starts from the tree that the one before it left
(`chain_foldlM`).
-/

namespace ComponentLowering

/-- `StableSort key before after`: the elements of `before` by ascending key, and those of equal key
as they stood. -/
structure StableSort {α : Type} (key : α → Int) (before after : List α) : Prop where
  perm : after.Perm before
  ascending : after.Pairwise fun a b => key a ≤ key b
  stable : ∀ k, after.filter (fun a => key a = k) = before.filter fun a => key a = k

namespace StableSort

variable {α : Type} {key : α → Int} {before sorted more after : List α}

theorem nil : StableSort key [] [] :=
  ⟨.nil, .nil, fun _ => rfl⟩

theorem of_mergeSort (key : α → Int) (elements : List α) :
    StableSort key elements (elements.mergeSort fun a b => decide (key a ≤ key b)) := by
  have htrans : ∀ a b c : α, decide (key a ≤ key b) = true → decide (key b ≤ key c) = true →
      decide (key a ≤ key c) = true := by
    intro a b c hab hbc
    rw [decide_eq_true_eq] at hab hbc ⊢
    exact Int.le_trans hab hbc
  have htotal : ∀ a b : α, (decide (key a ≤ key b) || decide (key b ≤ key a)) = true := by
    intro a b
    rw [Bool.or_eq_true, decide_eq_true_eq, decide_eq_true_eq]
    exact Int.le_total _ _
  have hperm := List.mergeSort_perm elements fun a b => decide (key a ≤ key b)
  refine ⟨hperm, ?_, ?_⟩
  · apply (List.pairwise_mergeSort htrans htotal elements).imp
    exact of_decide_eq_true
  · intro k
    -- the elements of one key are sorted as they stand, and sorting keeps sorted sublists
    have hsorted : (elements.filter fun a => key a = k).Pairwise
        fun a b => decide (key a ≤ key b) = true := by
      rw [List.pairwise_filter]
      apply List.pairwise_of_forall
      intro a b ha hb
      rw [of_decide_eq_true ha, of_decide_eq_true hb]
      exact decide_eq_true (Int.le_refl k)
    have hsub := (List.sublist_mergeSort htrans htotal hsorted List.filter_sublist).filter
      fun a => decide (key a = k)
    simp only [List.filter_filter, Bool.and_self] at hsub
    exact (hsub.eq_of_length (hperm.filter _).length_eq.symm).symm

/-- Sorting again with more elements behind is sorting all of them at once. -/
theorem append (h : StableSort key before sorted) (hafter : StableSort key (sorted ++ more) after) :
    StableSort key (before ++ more) after := by
  refine ⟨hafter.perm.trans (h.perm.append_right more), hafter.ascending, ?_⟩
  intro k
  rw [hafter.stable, List.filter_append, List.filter_append, h.stable]

theorem mem_iff_of_filter_eq {xs ys : List α}
    (h : ∀ k, xs.filter (fun a => key a = k) = ys.filter fun a => key a = k) (a : α) :
    a ∈ xs ↔ a ∈ ys := by
  have hmem : a ∈ xs.filter (fun b => key b = key a) ↔ a ∈ ys.filter fun b => key b = key a := by
    rw [h]
  simpa using hmem

/-- Ascending lists are equal if they have the same elements, in the same order, of each key. -/
theorem eq_of_filter_eq {xs ys : List α} (hx : xs.Pairwise fun a b => key a ≤ key b)
    (hy : ys.Pairwise fun a b => key a ≤ key b)
    (h : ∀ k, xs.filter (fun a => key a = k) = ys.filter fun a => key a = k) : xs = ys := by
  induction xs generalizing ys with
  | nil =>
      symm
      apply List.eq_nil_iff_forall_not_mem.mpr
      intro a ha
      exact List.not_mem_nil ((mem_iff_of_filter_eq h a).mpr ha)
  | cons a xs ih =>
      cases ys with
      | nil => exact absurd ((mem_iff_of_filter_eq h a).mp (by simp)) List.not_mem_nil
      | cons b ys =>
          obtain ⟨hleast, hxs⟩ := List.pairwise_cons.mp hx
          obtain ⟨hleast', hys⟩ := List.pairwise_cons.mp hy
          have hle : key a ≤ key b := by
            rcases List.mem_cons.mp ((mem_iff_of_filter_eq h b).mpr (by simp)) with rfl | hb
            · exact Int.le_refl _
            · exact hleast b hb
          have hge : key b ≤ key a := by
            rcases List.mem_cons.mp ((mem_iff_of_filter_eq h a).mp (by simp)) with rfl | ha
            · exact Int.le_refl _
            · exact hleast' a ha
          have hkey : key b = key a := Int.le_antisymm hge hle
          have hfirst := h (key a)
          rw [List.filter_cons_of_pos (by simp), List.filter_cons_of_pos (by simp [hkey])] at hfirst
          obtain ⟨rfl, _⟩ := List.cons.inj hfirst
          congr 1
          apply ih hxs hys
          intro k
          have hk := h k
          by_cases ha : key a = k
          · rw [List.filter_cons_of_pos (by simp [ha]),
              List.filter_cons_of_pos (by simp [ha])] at hk
            exact (List.cons.inj hk).2
          · rwa [List.filter_cons_of_neg (by simp [ha]),
              List.filter_cons_of_neg (by simp [ha])] at hk

/-- Elements sorted stably stand in no other order. -/
theorem unique {after' : List α} (h : StableSort key before after)
    (h' : StableSort key before after') : after = after' := by
  apply eq_of_filter_eq h.ascending h'.ascending
  intro k
  rw [h.stable, h'.stable]

end StableSort

/-! ### Adding passes -/

namespace Pipeline

theorem stableSort_add {pipeline : Pipeline} {added : List Pass}
    (h : StableSort Pass.order added pipeline.passes) (pass : Pass) :
    StableSort Pass.order (added ++ [pass]) (pipeline.add pass).passes :=
  h.append (.of_mergeSort Pass.order (pipeline.passes ++ [pass]))

/-- A pipeline that is sorted after every addition holds the stable sort of all that was added. -/
theorem stableSort_foldl_add {pipeline : Pipeline} {before : List Pass}
    (h : StableSort Pass.order before pipeline.passes) (added : List Pass) :
    StableSort Pass.order (before ++ added) (added.foldl add pipeline).passes := by
  induction added generalizing pipeline before with
  | nil => rwa [List.append_nil]
  | cons pass rest ih =>
      rw [List.append_cons]
      exact ih (stableSort_add h pass)

/-! ### Running passes -/

/-- One pass at work. -/
structure Execution where
  pass : Pass
  /-- The tree it was given. -/
  given : Node
  /-- The tree it left. -/
  left : Node
  /-- The lines it wrote. -/
  lines : List Line

/-- What is told of a pass before it runs. -/
def announcement (pass : Pass) : String :=
  "running pass " ++ pass.name ++ " (order " ++ String.ofList (Number.digits pass.order) ++ ")"

/-- `Chain logger before executions after`: the executions lead from one tree to the other, each
from the tree that the one before it left. -/
inductive Chain (logger : Logger) : Node → List Execution → Node → Prop
  | nil (tree : Node) : Chain logger tree [] tree
  | cons {execution : Execution} {rest : List Execution} {after : Node} :
      (execution.pass.execute execution.given).run logger = (execution.left, execution.lines) →
      Chain logger execution.left rest after →
      Chain logger execution.given (execution :: rest) after

theorem Chain.of_append {logger : Logger} {before after : Node} {first rest : List Execution}
    (h : Chain logger before (first ++ rest) after) :
    ∃ middle, Chain logger before first middle ∧ Chain logger middle rest after := by
  induction first generalizing before with
  | nil => exact ⟨before, .nil before, h⟩
  | cons execution first ih =>
      cases h with
      | cons hexecution hlater =>
          obtain ⟨middle, hfirst, hrest⟩ := ih hlater
          exact ⟨middle, .cons hexecution hfirst, hrest⟩

theorem Chain.eq_of_nil {logger : Logger} {before after : Node} (h : Chain logger before [] after) :
    after = before := by
  cases h
  rfl

theorem Chain.given_eq {logger : Logger} {before after : Node} {execution : Execution}
    {rest : List Execution} (h : Chain logger before (execution :: rest) after) :
    execution.given = before := by
  cases h
  rfl

/-- One step of a run tells of the pass and runs it. -/
theorem run_step (tree : Node) (pass : Pass) (logger : Logger) :
    (step tree pass).run logger =
      (((pass.execute tree).run logger).1,
        logger.log .debug (announcement pass) ++ ((pass.execute tree).run logger).2) :=
  rfl

theorem chain_foldlM (logger : Logger) (passes : List Pass) (tree : Node) :
    ∃ executions : List Execution, executions.map Execution.pass = passes ∧
      Chain logger tree executions ((passes.foldlM step tree).run logger).1 ∧
      ((passes.foldlM step tree).run logger).2 = executions.flatMap fun execution =>
        logger.log .debug (announcement execution.pass) ++ execution.lines := by
  induction passes generalizing tree with
  | nil => exact ⟨[], rfl, .nil tree, rfl⟩
  | cons pass rest ih =>
      let execution : Execution :=
        ⟨pass, tree, ((pass.execute tree).run logger).1, ((pass.execute tree).run logger).2⟩
      obtain ⟨executions, rfl, hchain, hlines⟩ := ih execution.left
      refine ⟨execution :: executions, rfl, .cons rfl hchain, ?_⟩
      rw [List.foldlM_cons, LogM.snd_run_bind, run_step, List.flatMap_cons, ← hlines]

/-! ### The pass that makes content simple -/

open ComplexContent (outcome)

/-- In ascending order, a pass of lower order comes before one of higher order. -/
theorem mem_of_order_lt {passes earlier later : List Pass} {pass other : Pass}
    (h : passes.Pairwise fun a b => a.order ≤ b.order) (hpasses : passes = earlier ++ pass :: later)
    (hmem : other ∈ passes) (hlt : other.order < pass.order) : other ∈ earlier := by
  subst hpasses
  rcases List.mem_append.mp hmem with hearlier | hlater
  · exact hearlier
  · have hle : pass.order ≤ other.order := by
      rcases List.mem_cons.mp hlater with rfl | hlater
      · exact Int.le_refl _
      · exact (List.pairwise_cons.mp (List.pairwise_append.mp h).2.1).1 other hlater
    omega

/-- Passes run in the one stable order, each once, told of, and on what the passes before it left. A
pass of an order above that of `Pass.complexContent` is given a tree that this pass has gone over,
if the pipeline has it at all. -/
theorem run_in_order (added : List Pass) (logger : Logger) (tree : Node) :
    (StableSort Pass.order added (added.foldl add empty).passes ∧
        ∀ passes, StableSort Pass.order added passes → passes = (added.foldl add empty).passes) ∧
      ∃ executions : List Execution,
        executions.map Execution.pass = (added.foldl add empty).passes ∧
        Chain logger tree executions (((added.foldl add empty).run tree).run logger).1 ∧
        (((added.foldl add empty).run tree).run logger).2 = executions.flatMap (fun execution =>
          logger.log .debug (announcement execution.pass) ++ execution.lines) ∧
        ∀ gate, Pass.complexContent gate ∈ added →
          ∀ earlier execution later, executions = earlier ++ execution :: later →
            -1000 < execution.pass.order →
              ∃ first simplifying between, earlier = first ++ simplifying :: between ∧
                simplifying.pass = Pass.complexContent gate ∧
                simplifying.left = outcome gate logger simplifying.given ∧
                Chain logger simplifying.left between execution.given := by
  have hsorted : StableSort Pass.order added (added.foldl add empty).passes :=
    stableSort_foldl_add .nil added
  refine ⟨⟨hsorted, fun passes hpasses => hpasses.unique hsorted⟩, ?_⟩
  obtain ⟨executions, hpasses, hchain, hlines⟩ :=
    chain_foldlM logger (added.foldl add empty).passes tree
  refine ⟨executions, hpasses, hchain, hlines, ?_⟩
  rintro gate hadded earlier execution later rfl horder
  have hmem : Pass.complexContent gate ∈ earlier.map Execution.pass := by
    rw [List.map_append, List.map_cons] at hpasses
    apply mem_of_order_lt hsorted.ascending hpasses.symm
    · exact hsorted.perm.mem_iff.mpr hadded
    · exact horder
  obtain ⟨simplifying, hsimplifying, hpass⟩ := List.mem_map.mp hmem
  obtain ⟨first, between, rfl⟩ := List.append_of_mem hsimplifying
  rw [List.append_assoc, List.cons_append] at hchain
  obtain ⟨_, _, hrest⟩ := hchain.of_append
  cases hrest with
  | cons hrun hlater =>
      obtain ⟨given, hbetween, hexecution⟩ := hlater.of_append
      cases hexecution with
      | cons _ _ =>
          refine ⟨first, simplifying, between, rfl, hpass, ?_, hbetween⟩
          rw [hpass] at hrun
          exact (congrArg Prod.fst hrun).symm

/-- A pass that changes nothing. -/
def observer : Pass where
  name := "observer"
  execute := pure

theorem stableSort_observer :
    StableSort Pass.order [observer, Pass.complexContent Descriptor.isComponent]
      [Pass.complexContent Descriptor.isComponent, observer] := by
  refine ⟨.swap .., by decide, ?_⟩
  intro k
  by_cases hk : observer.order = k
  · subst hk
    rfl
  · simp only [List.filter_cons, hk, decide_false, Bool.false_eq_true, if_false]

theorem run_in_order_observer :
    ∃ simplifying observing : Execution,
      simplifying.pass = Pass.complexContent Descriptor.isComponent ∧ observing.pass = observer ∧
        observing.given = outcome Descriptor.isComponent .null ComplexContent.nestedTemplates := by
  obtain ⟨⟨_, hunique⟩, executions, hpasses, hchain, _, hordered⟩ :=
    run_in_order [observer, Pass.complexContent Descriptor.isComponent] .null
      ComplexContent.nestedTemplates
  rw [← hunique _ stableSort_observer] at hpasses
  obtain ⟨simplifying, _, rfl, hsimplifying, hrest⟩ := List.map_eq_cons_iff.mp hpasses
  obtain ⟨observing, _, rfl, hobserving, hnone⟩ := List.map_eq_cons_iff.mp hrest
  obtain rfl := List.map_eq_nil_iff.mp hnone
  obtain ⟨first, other, between, hearlier, _, hleft, hbetween⟩ :=
    hordered Descriptor.isComponent (by simp) [simplifying] observing [] rfl
      (by rw [hobserving]; decide)
  cases first with
  | cons _ _ => simp at hearlier
  | nil =>
      obtain ⟨rfl, rfl⟩ := List.cons.inj hearlier
      rw [← hchain.given_eq, ← hleft]
      exact ⟨simplifying, observing, hsimplifying, hobserving, hbetween.eq_of_nil⟩

end Pipeline
end ComponentLowering
