import ComponentLowering.Proofs.Queries
import ComponentLowering.Proofs.Stripping
/-!
Edits of nodes that are found by their paths. An edit shows at its own path (`at?_modifyAt`), above
it (`at?_modifyAt_above`) and below it, and nowhere else (`at?_modifyAt_of_apart`). A path that
comes earlier in pre-order does not lead through the node that is edited, so it leads to the same
node as before, at most with another node in place of one of its children (`at?_modifyAt_of_lt`).
Hence paths stay right while those behind them are used, from the last to the first
(`at?_modifyAlong`).
-/

namespace ComponentLowering
namespace Node

/-! ### Holding a node for a change -/

/-- A node that is held for a change, and the tree it stands in with another node in its place. -/
structure Held where
  node : Node
  put : Node → Node

/-- Goes on to a child of the node that is held. -/
def Held.child? (held : Held) (index : Nat) : Option Held :=
  held.node.children[index]?.map fun child =>
    { node := child
      put := fun other =>
        held.put { held.node with children := held.node.children.set index other } }

/-- Holds the node at a path, going from child to child. -/
def hold? (root : Node) (path : Path) : Option Held :=
  path.foldlM Held.child? { node := root, put := id }

theorem foldlM_child? (edit : Node → Node) (path : Path) (held : Held) :
    (path.foldlM Held.child? held).map (fun held => (held.node, held.put (edit held.node))) =
      (held.node.at? path).map fun node => (node, held.put (held.node.modifyAt edit path)) := by
  induction path generalizing held with
  | nil => rfl
  | cons index path ih =>
      rw [List.foldlM_cons, Held.child?, at?, modifyAt, List.modify_eq_set_getElem?]
      cases held.node.children[index]? with
      | none => rfl
      | some child => exact ih _

/-- A node can be held where a path leads to it, and what is put in its place is the edit there. -/
theorem hold?_eq (edit : Node → Node) (path : Path) (root : Node) :
    (root.hold? path).map (fun held => (held.node, held.put (edit held.node))) =
      (root.at? path).map fun node => (node, root.modifyAt edit path) :=
  foldlM_child? edit path { node := root, put := id }

/-! ### Paths before an edit -/

/-- An edit does not show along a path that leads neither towards it nor through it. -/
theorem at?_modifyAt_of_apart (edit : Node → Node) {path other : Path} (root : Node)
    (hbelow : ¬ path <+: other) (habove : ¬ other <+: path) :
    (root.modifyAt edit path).at? other = root.at? other := by
  induction path generalizing other root with
  | nil => exact absurd List.nil_prefix hbelow
  | cons index path ih =>
      cases other with
      | nil => exact absurd List.nil_prefix habove
      | cons first other =>
          simp only [modifyAt, at?]
          by_cases hindex : index = first
          · -- both lead into one child, and part below it
            subst hindex
            rw [List.prefix_cons_inj] at hbelow habove
            rw [List.getElem?_modify_eq]
            cases root.children[index]? with
            | none => rfl
            | some child => exact ih child hbelow habove
          · rw [List.getElem?_modify_ne _ _ hindex]

/-- The second node is the first with other children, as many as there were. -/
def Alike (before after : Node) : Prop :=
  ∃ children, after = { before with children } ∧ children.length = before.children.length

theorem Alike.refl (node : Node) : node.Alike node :=
  ⟨node.children, (with_children_eq rfl).symm, rfl⟩

theorem Alike.trans {first second third : Node} (h : first.Alike second)
    (h' : second.Alike third) : first.Alike third := by
  obtain ⟨children, rfl, hlength⟩ := h
  obtain ⟨others, rfl, hlength'⟩ := h'
  exact ⟨others, rfl, hlength'.trans hlength⟩

theorem alike_modifyAt_cons (edit : Node → Node) (index : Nat) (below : Path) (node : Node) :
    node.Alike (node.modifyAt edit (index :: below)) :=
  ⟨node.children.modify index (modifyAt edit below), rfl, List.length_modify ..⟩

theorem not_prefix_of_lt {path later : Path} (h : path < later) : ¬ later <+: path := by
  rintro ⟨below, rfl⟩
  exact List.le_append_left h

/-- An edit leaves what an earlier path leads to, but for the child that it is made in. -/
theorem at?_modifyAt_of_lt (edit : Node → Node) {earlier path : Path} {tree node : Node}
    (h : earlier < path) (hnode : tree.at? earlier = some node) :
    ∃ after, (tree.modifyAt edit path).at? earlier = some after ∧ node.Alike after ∧
      (¬ earlier <+: path → after = node) := by
  by_cases habove : earlier <+: path
  · obtain ⟨below, rfl⟩ := habove
    cases below with
    | nil =>
        rw [List.append_nil] at h
        exact absurd h (List.lt_irrefl earlier)
    | cons index below =>
        refine ⟨node.modifyAt edit (index :: below), ?_, alike_modifyAt_cons edit index below node,
          fun hapart => absurd (List.prefix_append earlier (index :: below)) hapart⟩
        rw [at?_modifyAt_above, hnode, Option.map_some]
  · refine ⟨node, ?_, .refl node, fun _ => rfl⟩
    rw [at?_modifyAt_of_apart edit tree (not_prefix_of_lt h) habove, hnode]

/-- Edits the nodes at some paths, that at the last path first. -/
def modifyAlong (edit : Path → Node → Node) (paths : List Path) (tree : Node) : Node :=
  paths.foldr (fun path tree => tree.modifyAt (edit path) path) tree

/-- Edits at later paths, one after the other, leave what an earlier path leads to. -/
theorem at?_modifyAlong (edit : Path → Node → Node) {paths : List Path} {earlier : Path}
    {tree node : Node} (h : ∀ path ∈ paths, earlier < path)
    (hnode : tree.at? earlier = some node) :
    ∃ after, (modifyAlong edit paths tree).at? earlier = some after ∧ node.Alike after ∧
      ((∀ path ∈ paths, ¬ earlier <+: path) → after = node) := by
  induction paths with
  | nil => exact ⟨node, hnode, .refl node, fun _ => rfl⟩
  | cons path behind ih =>
      obtain ⟨hpath, hbehind⟩ := List.forall_mem_cons.mp h
      obtain ⟨between, hbetween, halike, hsame⟩ := ih hbehind
      obtain ⟨after, hafter, halike', hsame'⟩ := at?_modifyAt_of_lt (edit path) hpath hbetween
      refine ⟨after, hafter, halike.trans halike', fun hapart => ?_⟩
      obtain ⟨hfirst, hrest⟩ := List.forall_mem_cons.mp hapart
      rw [hsame' hfirst, hsame hrest]

/-! ### Paths that a query found -/

/-- A change takes nothing away from a node but some of its children. -/
def PrunedBy (node : Node) (edit : Node → Node) : Prop :=
  ∃ kept, kept.Sublist node.children ∧ edit node = { node with children := kept }

section

variable {kinds : KindSet} {root : Node}

theorem exists_at?_of_mem_find {path : Path} (h : path ∈ root.find kinds) :
    ∃ node, root.at? path = some node :=
  (mem_find.mp h).2.imp fun _ => And.left

theorem lt_of_getElem?_find {i j : Nat} {earlier path : Path} (h : j < i)
    (hearlier : (root.find kinds)[j]? = some earlier)
    (hpath : (root.find kinds)[i]? = some path) : earlier < path := by
  obtain ⟨hj, rfl⟩ := List.getElem?_eq_some_iff.mp hearlier
  obtain ⟨hi, rfl⟩ := List.getElem?_eq_some_iff.mp hpath
  exact List.pairwise_iff_getElem.mp (sorted_find kinds root) j i hj hi h

/-- Removing children of a node that was found leaves all that was found up to there. -/
theorem at?_modifyAt_of_le {i j : Nat} {earlier path : Path} {node : Node} {edit : Node → Node}
    (hj : j ≤ i) (hearlier : (root.find kinds)[j]? = some earlier)
    (hpath : (root.find kinds)[i]? = some path) (hnode : root.at? path = some node)
    (hedit : node.PrunedBy edit) :
    ∃ before after, root.at? earlier = some before ∧
      (root.modifyAt edit path).at? earlier = some after ∧
      after.kind = before.kind ∧ after.span = before.span ∧
      after.diagnostics = before.diagnostics ∧
      (¬ earlier <+: path → after = before) ∧
      (earlier <+: path → earlier ≠ path → after.children.length = before.children.length) := by
  rcases Nat.lt_or_eq_of_le hj with hlt | rfl
  · obtain ⟨before, hbefore⟩ := exists_at?_of_mem_find (List.mem_of_getElem? hearlier)
    have horder := lt_of_getElem?_find hlt hearlier hpath
    obtain ⟨_, hafter, ⟨children, rfl, hlength⟩, hsame⟩ := at?_modifyAt_of_lt edit horder hbefore
    exact ⟨before, _, hbefore, hafter, rfl, rfl, rfl, hsame, fun _ _ => hlength⟩
  · obtain rfl := Option.some.inj (hpath.symm.trans hearlier)
    obtain ⟨kept, _, hkept⟩ := hedit
    have hafter := at?_modifyAt edit path root
    rw [hnode, Option.map_some, hkept] at hafter
    exact ⟨node, _, hnode, hafter, rfl, rfl, rfl,
      fun hapart => absurd (List.prefix_refl path) hapart, fun _ hne => absurd rfl hne⟩

/-- When the paths behind some path were used, that path and those before it lead to what they led
to. -/
theorem at?_modifyAlong_of_find (edit : Path → Node → Node) {earlier later : List Path}
    {path target : Path} (hfind : root.find kinds = earlier ++ path :: later)
    (htarget : target ∈ earlier ++ [path]) :
    ∃ before after, root.at? target = some before ∧
      (modifyAlong edit later root).at? target = some after ∧ before.Alike after ∧
      ((∀ used ∈ later, ¬ target <+: used) → after = before) := by
  rw [List.append_cons] at hfind
  have hmem : target ∈ root.find kinds := by
    rw [hfind]
    exact List.mem_append_left later htarget
  have hbehind := sorted_find kinds root
  rw [hfind, List.pairwise_append] at hbehind
  obtain ⟨before, hbefore⟩ := exists_at?_of_mem_find hmem
  obtain ⟨after, hafter⟩ := at?_modifyAlong edit (hbehind.2.2 target htarget) hbefore
  exact ⟨before, after, hbefore, hafter⟩

end

/-- When children of a node that a query found are removed, each path that was found up to there
leads to the node it led to: to the whole of it as it was, or, on the way to the edit, to a node
with as many children. No edit shows along a path that is apart from it. So the paths of a query can
be used from the last to the first, whatever is done at each. A node can be held for a change just
where it is found, and the edits are what is done to it there. -/
theorem paths_before_edit (kinds : KindSet) (root : Node) :
    (∀ (i : Nat) (path : Path), (root.find kinds)[i]? = some path →
      ∃ node, root.at? path = some node ∧ ∀ edit, node.PrunedBy edit →
        (root.modifyAt edit path).at? path = some (edit node) ∧
        ∀ (j : Nat) (earlier : Path), j ≤ i → (root.find kinds)[j]? = some earlier →
          ∃ before after, root.at? earlier = some before ∧
            (root.modifyAt edit path).at? earlier = some after ∧
            after.kind = before.kind ∧ after.span = before.span ∧
            after.diagnostics = before.diagnostics ∧
            (¬ earlier <+: path → after = before) ∧
            (earlier <+: path → earlier ≠ path →
              after.children.length = before.children.length)) ∧
    (∀ (edit : Node → Node) (path other : Path), ¬ path <+: other → ¬ other <+: path →
      (root.modifyAt edit path).at? other = root.at? other) ∧
    (∀ (edit : Path → Node → Node) (earlier : List Path) (path : Path) (later : List Path),
      root.find kinds = earlier ++ path :: later → ∀ target ∈ earlier ++ [path],
        ∃ before after, root.at? target = some before ∧
          (modifyAlong edit later root).at? target = some after ∧ before.Alike after ∧
          ((∀ used ∈ later, ¬ target <+: used) → after = before)) ∧
    ∀ (edit : Node → Node) (path : Path),
      (root.hold? path).map (fun held => (held.node, held.put (edit held.node))) =
        (root.at? path).map fun node => (node, root.modifyAt edit path) := by
  refine ⟨?_, fun edit path other => at?_modifyAt_of_apart edit root, ?_,
    fun edit path => hold?_eq edit path root⟩
  · intro i path hpath
    obtain ⟨node, hnode⟩ := exists_at?_of_mem_find (List.mem_of_getElem? hpath)
    refine ⟨node, hnode, fun edit hedit => ⟨?_, fun j earlier hj hearlier => ?_⟩⟩
    · rw [at?_modifyAt, hnode, Option.map_some]
    · exact at?_modifyAt_of_le hj hearlier hpath hnode hedit
  · intro edit earlier path later hfind target htarget
    exact at?_modifyAlong_of_find edit hfind htarget

/-- A tag with an attribute whose value holds attributes itself, between two others. -/
def nestedAttributes : Node :=
  .tagHelper "counter" [] [
    .htmlAttribute "class" [.token "a"],
    .htmlAttribute "title" [
      .token "b",
      .htmlAttribute "lang" [.token "c", .token "d"],
      .htmlAttribute "dir" []],
    .htmlAttribute "id" [.token "e"]]

def withoutFirst (node : Node) : Node :=
  { node with children := node.children.tail }

/-- Once the first part of the title is gone, what was found before it stays, what was found below
it does not; and all paths can be used from the last on. -/
theorem paths_before_edit_nestedAttributes :
    nestedAttributes.find .attributes = [[0], [1], [1, 1], [1, 2], [2]] ∧
      (∃ after, (nestedAttributes.modifyAt withoutFirst [1, 1]).at? [1] = some after ∧
        after.children.length = 3) ∧
      (nestedAttributes.modifyAt withoutFirst [1]).at? [0] =
        some (.htmlAttribute "class" [.token "a"]) ∧
      (nestedAttributes.modifyAt withoutFirst [1]).at? [1, 2] = none ∧
      (nestedAttributes.modifyAt withoutFirst [1]).at? [2] = nestedAttributes.at? [2] ∧
      ∃ title,
        (modifyAlong (fun _ => withoutFirst) [[1, 1], [1, 2], [2]] nestedAttributes).at? [1] =
          some title ∧ title.attributeName? = some "title" ∧ title.children.length = 3 := by
  have hfind : nestedAttributes.find .attributes = [[0], [1], [1, 1], [1, 2], [2]] := by decide
  have hpruned (node : Node) : node.PrunedBy withoutFirst :=
    ⟨node.children.tail, List.tail_sublist node.children, rfl⟩
  obtain ⟨hedit, hapart, hturn, _⟩ := paths_before_edit .attributes nestedAttributes
  rw [hfind] at hedit
  refine ⟨hfind, ?_, ?_, by decide, hapart withoutFirst [1] [2] (by decide) (by decide), ?_⟩
  · obtain ⟨_, _, hbelow⟩ := hedit 2 [1, 1] rfl
    obtain ⟨before, after, hbefore, hafter, _, _, _, _, hlength⟩ :=
      (hbelow withoutFirst (hpruned _)).2 1 [1] (by decide) rfl
    cases hbefore
    exact ⟨after, hafter, hlength (by decide) (by decide)⟩
  · obtain ⟨_, _, hbelow⟩ := hedit 1 [1] rfl
    obtain ⟨before, after, hbefore, hafter, _, _, _, hsame, _⟩ :=
      (hbelow withoutFirst (hpruned _)).2 0 [0] (by decide) rfl
    cases hbefore
    rw [hafter, hsame (by decide)]
  · obtain ⟨before, after, hbefore, hafter, ⟨children, rfl, hlength⟩, _⟩ :=
      hturn (fun _ => withoutFirst) [[0]] [1] [[1, 1], [1, 2], [2]] hfind [1] (by decide)
    cases hbefore
    exact ⟨_, hafter, rfl, hlength⟩

end Node
end ComponentLowering
