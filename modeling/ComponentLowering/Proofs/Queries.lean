import ComponentLowering.Proofs.Survivors
/-!
Nodes and the paths to them. `places` lists the nodes of a tree with their paths, in the order of
the paths (`sorted_places`), and holds just what `at?` finds (`mem_places`). What a query by kind
finds is a part of that list (`find_eq_places`); so a query of all kinds meets the nodes whose
diagnostics are gathered, in the same order (`map_at?_find_all`). Both are told once more as walks
that carry what they found along with them (`walk_eq`, `gather_eq`).
-/

namespace ComponentLowering
namespace Node

/-! ### All nodes with their paths -/

mutual

/-- The nodes of a tree with the paths to them, in pre-order. -/
def places : Node → List (Path × Node)
  | ⟨kind, children, diagnostics, span⟩ =>
    ([], ⟨kind, children, diagnostics, span⟩) :: placesAmong 0 children

/-- The nodes of sibling trees, with paths from the parent of the siblings, the first of which has
the given index. -/
def placesAmong (index : Nat) : List Node → List (Path × Node)
  | [] => []
  | node :: rest =>
    node.places.map (fun place => (index :: place.1, place.2)) ++ placesAmong (index + 1) rest

end

theorem places_eq (root : Node) : root.places = ([], root) :: placesAmong 0 root.children := by
  cases root
  rfl

/-- A place among siblings is a place in one of them. -/
theorem mem_placesAmong {start : Nat} {siblings : List Node} {place : Path × Node} :
    place ∈ placesAmong start siblings ↔
      ∃ index path sibling, siblings[index]? = some sibling ∧ (path, place.2) ∈ sibling.places ∧
        place.1 = (start + index) :: path := by
  induction siblings generalizing start with
  | nil => simp [placesAmong]
  | cons first rest ih =>
      obtain ⟨target, node⟩ := place
      rw [placesAmong, List.mem_append, ih]
      constructor
      · rintro (hfirst | ⟨index, path, sibling, hsibling, hplace, htarget⟩)
        · obtain ⟨⟨path, _⟩, hplace, heq⟩ := List.mem_map.mp hfirst
          cases heq
          exact ⟨0, path, first, rfl, hplace, rfl⟩
        · rw [Nat.add_right_comm] at htarget
          exact ⟨index + 1, path, sibling, hsibling, hplace, htarget⟩
      · rintro ⟨_ | index, path, sibling, hsibling, hplace, htarget⟩
        · cases hsibling
          cases htarget
          exact .inl (List.mem_map.mpr ⟨(path, node), hplace, rfl⟩)
        · have hindex : start + (index + 1) = start + 1 + index := by omega
          rw [hindex] at htarget
          exact .inr ⟨index, path, sibling, hsibling, hplace, htarget⟩

/-- The places of a tree are what its paths lead to. -/
theorem mem_places {root : Node} {path : Path} {node : Node} :
    (path, node) ∈ root.places ↔ root.at? path = some node := by
  induction path generalizing root with
  | nil =>
      rw [places_eq, List.mem_cons, mem_placesAmong, at?]
      simp [eq_comm]
  | cons index path ih =>
      rw [places_eq, List.mem_cons, mem_placesAmong, at?, Option.bind_eq_bind,
        Option.bind_eq_some_iff]
      simp [ih]

theorem at?_of_mem_placesAmong {root : Node} {place : Path × Node}
    (h : place ∈ placesAmong 0 root.children) : root.at? place.1 = some place.2 := by
  apply mem_places.mp
  rw [places_eq]
  exact List.mem_cons_of_mem _ h

/-- Paths among siblings start with the indices from that of the first on. -/
theorem le_of_mem_placesAmong {start : Nat} {siblings : List Node} {path : Path}
    (h : path ∈ (placesAmong start siblings).map Prod.fst) :
    ∃ index rest, path = index :: rest ∧ start ≤ index := by
  obtain ⟨place, hplace, rfl⟩ := List.mem_map.mp h
  obtain ⟨index, rest, _, _, _, hpath⟩ := mem_placesAmong.mp hplace
  exact ⟨start + index, rest, hpath, Nat.le_add_right start index⟩

theorem sorted_placesAmong (start : Nat) {siblings : List Node}
    (ih : ∀ sibling ∈ siblings, (sibling.places.map Prod.fst).Pairwise (· < ·)) :
    ((placesAmong start siblings).map Prod.fst).Pairwise (· < ·) := by
  induction siblings generalizing start with
  | nil => exact .nil
  | cons first rest ihRest =>
      rw [placesAmong, List.map_append, List.map_map]
      have hrest := ihRest (start + 1) fun sibling hs => ih sibling (List.mem_cons_of_mem first hs)
      refine List.pairwise_append.mpr ⟨?_, hrest, ?_⟩
      · have hfirst := List.pairwise_map.mp (ih first (by simp))
        refine List.pairwise_map.mpr (hfirst.imp fun {a b} hlt => ?_)
        exact List.cons_lt_cons_iff.mpr (.inr ⟨rfl, hlt⟩)
      · intro path hpath later hlater
        obtain ⟨place, _, rfl⟩ := List.mem_map.mp hpath
        obtain ⟨index, below, rfl, hindex⟩ := le_of_mem_placesAmong hlater
        exact List.cons_lt_cons_iff.mpr (.inl hindex)

/-- An ancestor comes before its descendants, and these before its later siblings. -/
theorem sorted_places (root : Node) : (root.places.map Prod.fst).Pairwise (· < ·) := by
  induction root using bySize with
  | step root ih =>
      rw [places_eq, List.map_cons]
      refine List.pairwise_cons.mpr ⟨?_, ?_⟩
      · intro path hpath
        obtain ⟨index, rest, rfl, _⟩ := le_of_mem_placesAmong hpath
        exact List.nil_lt_cons index rest
      · exact sorted_placesAmong 0 fun child hc => ih child (size_lt_of_mem hc)

/-! ### Queries by kind -/

mutual

theorem find_eq_places (kinds : KindSet) (root : Node) :
    root.find kinds =
      ((placesAmong 0 root.children).filter fun place => place.2.isAnyOf kinds).map Prod.fst := by
  match root with
  | ⟨kind, children, diagnostics, span⟩ => exact findAmong_eq_places kinds 0 children

theorem findAmong_eq_places (kinds : KindSet) (index : Nat) (siblings : List Node) :
    findAmong kinds index siblings =
      ((placesAmong index siblings).filter fun place => place.2.isAnyOf kinds).map Prod.fst := by
  match siblings with
  | [] => rfl
  | node :: rest =>
    rw [findAmong, find_eq_places kinds node, findAmong_eq_places kinds (index + 1) rest,
      placesAmong, places_eq, List.filter_append, List.map_append]
    congr 1
    rw [List.map_cons, List.filter_cons, List.filter_map, List.map_map]
    split <;> simp [Function.comp_def]

end

/-- What a walk along a tree carries with it: the path to where it is, which it makes longer and
shorter again, and the paths it has found. -/
structure Search where
  path : Path
  found : List Path

namespace Search

def enter (search : Search) (index : Nat) : Search :=
  { search with path := search.path ++ [index] }

def leave (search : Search) : Search :=
  { search with path := search.path.dropLast }

def keep (search : Search) : Search :=
  { search with found := search.found ++ [search.path] }

end Search

mutual

/-- Looks for nodes of some kinds below a node with one path for all of them. -/
def walk (kinds : KindSet) : Node → Search → Search
  | ⟨_, children, _, _⟩, search => walkAmong kinds 0 children search

def walkAmong (kinds : KindSet) (index : Nat) : List Node → Search → Search
  | [], search => search
  | node :: rest, search =>
    let inside := search.enter index
    let inside := if node.isAnyOf kinds then inside.keep else inside
    walkAmong kinds (index + 1) rest (walk kinds node inside).leave

end

mutual

/-- A walk comes back with the path it set out with, and adds what there is to find below it. -/
theorem walk_eq (kinds : KindSet) (node : Node) (search : Search) :
    walk kinds node search =
      { search with found := search.found ++ (node.find kinds).map (search.path ++ ·) } := by
  match node with
  | ⟨kind, children, diagnostics, span⟩ => exact walkAmong_eq kinds 0 children search

theorem walkAmong_eq (kinds : KindSet) (index : Nat) (siblings : List Node) (search : Search) :
    walkAmong kinds index siblings search =
      { search with
        found := search.found ++ (findAmong kinds index siblings).map (search.path ++ ·) } := by
  match siblings with
  | [] => simp [walkAmong, findAmong]
  | node :: rest =>
    rw [walkAmong, walk_eq kinds node, walkAmong_eq kinds (index + 1) rest, findAmong]
    cases node.isAnyOf kinds <;> simp [Search.enter, Search.keep, Search.leave, Function.comp_def]

end

theorem mem_find {kinds : KindSet} {root : Node} {path : Path} :
    path ∈ root.find kinds ↔
      path ≠ [] ∧ ∃ node, root.at? path = some node ∧ node.isAnyOf kinds = true := by
  rw [find_eq_places, List.mem_map]
  constructor
  · rintro ⟨⟨target, node⟩, hplace, rfl⟩
    obtain ⟨hbelow, hkind⟩ := List.mem_filter.mp hplace
    obtain ⟨index, rest, htarget, _⟩ := le_of_mem_placesAmong (List.mem_map_of_mem hbelow)
    refine ⟨?_, node, at?_of_mem_placesAmong hbelow, hkind⟩
    rw [htarget]
    exact List.cons_ne_nil index rest
  · rintro ⟨hpath, node, hnode, hkind⟩
    have hroot := mem_places.mpr hnode
    rw [places_eq, List.mem_cons] at hroot
    have hbelow := hroot.resolve_left fun heq => hpath (congrArg Prod.fst heq)
    exact ⟨(path, node), List.mem_filter.mpr ⟨hbelow, hkind⟩, rfl⟩

theorem sorted_find (kinds : KindSet) (root : Node) : (root.find kinds).Pairwise (· < ·) := by
  have hplaces := sorted_places root
  rw [places_eq, List.map_cons] at hplaces
  rw [find_eq_places]
  exact hplaces.of_cons.sublist (List.filter_sublist.map Prod.fst)

theorem nodup_find (kinds : KindSet) (root : Node) : (root.find kinds).Nodup := by
  refine List.Pairwise.imp ?_ (sorted_find kinds root)
  rintro path _ hlt rfl
  exact List.lt_irrefl path hlt

/-- A query finds just the paths below the root that lead to a node of its kinds, each once, an
ancestor before its descendants and these before its later siblings. A walk that makes one path
longer and shorter on its way finds the same, and is back at the root with it. -/
theorem find_in_order (kinds : KindSet) (root : Node) :
    (∀ path, path ∈ root.find kinds ↔
        path ≠ [] ∧ ∃ node, root.at? path = some node ∧ node.isAnyOf kinds = true) ∧
      (root.find kinds).Nodup ∧ (root.find kinds).Pairwise (· < ·) ∧
      walk kinds root ⟨[], []⟩ = ⟨[], root.find kinds⟩ := by
  refine ⟨fun path => mem_find, nodup_find kinds root, sorted_find kinds root, ?_⟩
  rw [walk_eq]
  simp

/-! ### Diagnostics along paths -/

theorem isAnyOf_all (node : Node) : node.isAnyOf .all = true := by
  have h : ∀ tag : Tag, KindSet.all.contains tag = true := by
    intro tag
    cases tag <;> rfl
  exact h node.tag

theorem find_all (root : Node) : root.find .all = (placesAmong 0 root.children).map Prod.fst := by
  rw [find_eq_places]
  congr 1
  exact List.filter_eq_self.mpr fun place _ => isAnyOf_all place.2

mutual

theorem nodes_eq_places (root : Node) : root.nodes = root.places.map Prod.snd := by
  match root with
  | ⟨kind, children, diagnostics, span⟩ =>
    rw [nodes, places, List.map_cons, nodesOfAll_eq_places 0 children]

theorem nodesOfAll_eq_places (index : Nat) (siblings : List Node) :
    nodesOfAll siblings = (placesAmong index siblings).map Prod.snd := by
  match siblings with
  | [] => rfl
  | node :: rest =>
    rw [nodesOfAll, placesAmong, List.map_append, List.map_map, nodes_eq_places node,
      nodesOfAll_eq_places (index + 1) rest]
    rfl

end

mutual

/-- Gathers the diagnostics of a tree behind those that were found before. -/
def gather : Node → List Diagnostic → List Diagnostic
  | ⟨_, children, diagnostics, _⟩, found => gatherAmong children (found ++ diagnostics)

def gatherAmong : List Node → List Diagnostic → List Diagnostic
  | [], found => found
  | node :: rest, found => gatherAmong rest (gather node found)

end

mutual

theorem gather_eq (node : Node) (found : List Diagnostic) :
    node.gather found = found ++ node.allDiagnostics := by
  match node with
  | ⟨kind, children, diagnostics, span⟩ =>
    rw [gather, gatherAmong_eq children, allDiagnostics, List.append_assoc]

theorem gatherAmong_eq (siblings : List Node) (found : List Diagnostic) :
    gatherAmong siblings found = found ++ diagnosticsOfAll siblings := by
  match siblings with
  | [] => exact (List.append_nil found).symm
  | node :: rest =>
    rw [gatherAmong, gatherAmong_eq rest, gather_eq node, diagnosticsOfAll, List.append_assoc]

end

/-- What the paths to all nodes below a root lead to, in order. -/
theorem map_at?_find_all (root : Node) :
    (root.find .all).map (fun path => root.at? path) =
      (nodesOfAll root.children).map some := by
  rw [find_all, nodesOfAll_eq_places 0, List.map_map, List.map_map]
  exact List.map_congr_left fun place hplace => at?_of_mem_placesAmong hplace

theorem mem_paths {root : Node} {path : Path} :
    path ∈ [] :: root.find .all ↔ ∃ node, root.at? path = some node := by
  rw [List.mem_cons, mem_find]
  cases path with
  | nil => simp [at?]
  | cons index path => simp [isAnyOf_all]

theorem hasErrors_iff {root : Node} :
    root.hasErrors = true ↔
      ∃ path node diagnostic, root.at? path = some node ∧ diagnostic ∈ node.diagnostics ∧
        diagnostic.isError = true := by
  rw [hasErrors, allDiagnostics_eq, nodes_eq_places, List.any_eq_true]
  constructor
  · rintro ⟨diagnostic, hdiagnostic, herror⟩
    obtain ⟨node, hnode, hown⟩ := List.mem_flatMap.mp hdiagnostic
    obtain ⟨⟨path, _⟩, hplace, rfl⟩ := List.mem_map.mp hnode
    exact ⟨path, _, diagnostic, mem_places.mp hplace, hown, herror⟩
  · rintro ⟨path, node, diagnostic, hnode, hown, herror⟩
    refine ⟨diagnostic, List.mem_flatMap.mpr ⟨node, ?_, hown⟩, herror⟩
    exact List.mem_map.mpr ⟨(path, node), mem_places.mpr hnode, rfl⟩

/-- The diagnostics of a tree are those of its root and those found along the paths to all nodes
below it, in the order of the paths; they lead to every node, and to none twice. One list that is
added to on the way gathers the same. -/
theorem allDiagnostics_along_paths (root : Node) :
    (∃ below : List Node, (root.find .all).map (fun path => root.at? path) = below.map some ∧
        root.allDiagnostics = root.diagnostics ++ below.flatMap diagnostics) ∧
      ([] :: root.find .all).Nodup ∧
      (∀ path, path ∈ [] :: root.find .all ↔ ∃ node, root.at? path = some node) ∧
      (root.hasErrors = true ↔
        ∃ path node diagnostic, root.at? path = some node ∧ diagnostic ∈ node.diagnostics ∧
          diagnostic.isError = true) ∧
      root.gather [] = root.allDiagnostics := by
  refine ⟨⟨nodesOfAll root.children, map_at?_find_all root, ?_⟩, ?_, fun path => mem_paths,
    hasErrors_iff, ?_⟩
  · rw [allDiagnostics_eq, nodes_eq, List.flatMap_cons, nodesOfAll_eq_flatMap]
  · exact List.nodup_cons.mpr ⟨fun h => (mem_find.mp h).1 rfl, nodup_find .all root⟩
  · rw [gather_eq, List.nil_append]

end Node
end ComponentLowering
