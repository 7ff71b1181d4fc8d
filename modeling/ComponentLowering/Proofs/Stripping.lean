import ComponentLowering.Proofs.Markers
/-!
Stripping path by path. All paths are taken from the tree as it is before any edit, and used after
some edits. Still each leads at its turn to the expression it was taken for, with everything below
that expression stripped already (`inTurn`): only nodes behind it in pre-order, and nodes below it,
were edited by then. What comes of all edits together is a recursion from the leaves up, `stripped`.
-/

namespace ComponentLowering

/-- An element of two lists put together stands in the first of them or in the second. -/
theorem append_eq_append_cons {α : Type} {xs ys before after : List α} {a : α}
    (h : xs ++ ys = before ++ a :: after) :
    (∃ more, xs = before ++ a :: more ∧ after = more ++ ys) ∨
      ∃ more, before = xs ++ more ∧ ys = more ++ a :: after := by
  rcases List.append_eq_append_iff.mp h with ⟨more, hbefore, hys⟩ | ⟨more, hxs, hafter⟩
  · exact .inr ⟨more, hbefore, hys⟩
  · rcases List.cons_eq_append_iff.mp hafter with ⟨rfl, hys⟩ | ⟨more, rfl, hmore⟩
    · rw [List.append_nil] at hxs
      exact .inr ⟨[], by rw [hxs, List.append_nil], hys⟩
    · exact .inl ⟨more, hxs, hmore⟩

namespace Node

mutual

/-- A tree whose expressions lost the marker in front of their parts, those below an expression
before the expression itself. -/
def stripped : Node → Node
  | ⟨kind, children, diagnostics, span⟩ =>
    let children := strippedAll children
    let isMarked := kind = .expression ∧ children.head?.any fun first => first.isToken "@"
    ⟨kind, if isMarked then children.tail else children, diagnostics, span⟩

def strippedAll : List Node → List Node
  | [] => []
  | node :: rest => stripped node :: strippedAll rest

end

theorem strippedAll_eq_map (nodes : List Node) : strippedAll nodes = nodes.map stripped := by
  induction nodes with
  | nil => rfl
  | cons node rest ih => rw [strippedAll, ih, List.map_cons]

theorem stripped_of_expression {node : Node} (h : node.kind = .expression) :
    node.stripped = dropMarker { node with children := node.children.map stripped } := by
  obtain ⟨kind, children, diagnostics, span⟩ := node
  cases h
  rw [stripped, strippedAll_eq_map, dropMarker]
  cases children with
  | nil => rfl
  | cons first rest =>
      simp only [List.map_cons, List.head?_cons, Option.any_some, List.tail_cons, true_and]
      split <;> rfl

theorem stripped_of_ne {node : Node} (h : node.kind ≠ .expression) :
    node.stripped = { node with children := node.children.map stripped } := by
  obtain ⟨kind, children, diagnostics, span⟩ := node
  rw [stripped, if_neg fun hmarked => h hmarked.1, strippedAll_eq_map]

theorem stripped_eq_unmarked : stripped = unmarked 1 := by
  funext node
  induction node using bySize with
  | step node ih =>
      have hchildren : node.children.map stripped = node.children.map (unmarked 1) :=
        List.map_congr_left fun child hc => ih child (size_lt_of_mem hc)
      by_cases h : node.kind = .expression
      · rw [stripped_of_expression h, hchildren, dropMarker_below h]
      · rw [stripped_of_ne h, hchildren, unmarked_of_ne 1 h]

/-- A node keeps its own data and all its children, but for the marker in front of an
expression. -/
theorem stripped_cases (node : Node) :
    ∃ children, node.stripped = { node with children := children.map stripped } ∧
      (children = node.children ∨
        node.kind = .expression ∧
          ∃ marker : Node, node.children = marker :: children ∧ marker.isToken "@") := by
  by_cases h : node.kind = .expression
  · rw [stripped_of_expression h, dropMarker]
    cases hchildren : node.children with
    | nil => exact ⟨[], rfl, .inl rfl⟩
    | cons first rest =>
        have hkind : first.stripped.kind = first.kind := by
          rw [stripped_eq_unmarked, kind_unmarked]
        simp only [List.map_cons, isToken_congr hkind]
        split
        case isTrue hmarker => exact ⟨rest, rfl, .inr ⟨h, first, rfl, hmarker⟩⟩
        case isFalse => exact ⟨first :: rest, rfl, .inl rfl⟩
  · exact ⟨node.children, stripped_of_ne h, .inl rfl⟩

/-! ### Edits along paths -/

/-- What stands above an edit is edited below. -/
theorem at?_modifyAt_above (f : Node → Node) (path below : Path) (node : Node) :
    (node.modifyAt f (path ++ below)).at? path = (node.at? path).map (modifyAt f below) := by
  induction path generalizing node with
  | nil => rfl
  | cons index path ih =>
      simp only [List.cons_append, modifyAt, at?, List.getElem?_modify_eq]
      cases node.children[index]? with
      | none => rfl
      | some child => exact ih child

/-- What is found at a path after an edit there is what was found, edited. -/
theorem at?_modifyAt (f : Node → Node) (path : Path) (node : Node) :
    (node.modifyAt f path).at? path = (node.at? path).map f := by
  have h := at?_modifyAt_above f path [] node
  rwa [List.append_nil] at h

theorem at?_below (node : Node) (front : List Node) (child : Node) (rest : List Node)
    (path : Path) :
    ({ node with children := front ++ child :: rest } : Node).at? (front.length :: path) =
      child.at? path := by
  simp [at?]

/-- Drops the markers at some paths, those at the last path first. -/
def stripAlong (paths : List Path) (tree : Node) : Node :=
  paths.foldr (fun path tree => tree.modifyAt dropMarker path) tree

/-- How a path stands when its turn comes, the paths behind it having been used: it leads to the
expression it was taken for, with everything below that expression stripped. -/
def InTurn (tree : Node) (path : Path) (behind : List Path) : Prop :=
  ∃ expression, tree.at? path = some expression ∧ expression.kind = .expression ∧
    (stripAlong behind tree).at? path = some expression.stripMarkers

theorem stripAlong_append (paths more : List Path) (tree : Node) :
    stripAlong (paths ++ more) tree = stripAlong paths (stripAlong more tree) :=
  List.foldr_append

/-- Edits in a sibling and among those behind it come to the edits in the sibling for a path that
leads into it: what is gone there by then stood further back. -/
theorem at?_stripAlong_among (node : Node) (front : List Node) (first : Node) (rest : List Node)
    (paths : List Path) (path : Path) :
    (stripAlong (paths.map (front.length :: ·) ++
          findAmong (.singleton .expression) (front.length + 1) rest)
        { node with children := front ++ first :: rest }).at? (front.length :: path) =
      (stripAlong paths first).at? path := by
  have hbehind := foldr_findAmong node (front ++ [first]) rest
    fun sibling _ => stripMarkers_eq sibling
  simp only [List.length_append, List.length_singleton, List.append_assoc,
    List.singleton_append] at hbehind
  rw [stripAlong_append]
  unfold stripAlong
  rw [hbehind, foldr_modifyAt_below]
  simp only [modify_length_append]
  exact at?_below node front _ _ path

theorem inTurn_among (node : Node) (front : List Node) {siblings : List Node}
    (ih : ∀ sibling ∈ siblings, ∀ {earlier : List Path} {path : Path} {later : List Path},
      sibling.find (.singleton .expression) = earlier ++ path :: later →
        InTurn sibling path later)
    {earlier : List Path} {path : Path} {later : List Path}
    (h : findAmong (.singleton .expression) front.length siblings = earlier ++ path :: later) :
    InTurn { node with children := front ++ siblings } path later := by
  induction siblings generalizing front earlier with
  | nil => simp [findAmong] at h
  | cons first rest ihRest =>
      rw [findAmong, List.append_assoc] at h
      have hinto := at?_stripAlong_among node front first rest
      have hfound := at?_below node front first rest
      rcases append_eq_append_cons h with ⟨more, hown, rfl⟩ | ⟨_, _, hlater⟩
      · -- the path of the sibling itself stands before those below it, which are used by now
        rw [isAnyOf_singleton] at hown
        split at hown
        case isFalse => simp at hown
        case isTrue hkind =>
          cases earlier with
          | cons other earlier => simp at hown
          | nil =>
              obtain ⟨rfl, rfl⟩ := List.cons.inj hown
              exact ⟨first, hfound [], tag_eq_expression.mp (of_decide_eq_true hkind), hinto _ []⟩
      · rcases append_eq_append_cons hlater with ⟨more, hbelow, rfl⟩ | ⟨_, _, hrest⟩
        · obtain ⟨_, _, hfind, _, hpaths⟩ := List.map_eq_append_iff.mp hbelow
          obtain ⟨inner, later, rfl, rfl, rfl⟩ := List.map_eq_cons_iff.mp hpaths
          obtain ⟨expression, hexpression, hkind, hturn⟩ := ih first (by simp) hfind
          refine ⟨expression, ?_, hkind, ?_⟩
          · rw [hfound, hexpression]
          · rw [hinto, hturn]
        · have hbehind := ihRest (front ++ [first])
            (fun sibling hs => ih sibling (List.mem_cons_of_mem first hs))
            (by rw [List.length_append, List.length_singleton]; exact hrest)
          rwa [List.append_assoc, List.singleton_append] at hbehind

/-- Every path is right in its turn. -/
theorem inTurn (tree : Node) {earlier : List Path} {path : Path} {later : List Path}
    (h : tree.find (.singleton .expression) = earlier ++ path :: later) :
    InTurn tree path later := by
  induction tree using bySize generalizing earlier path later with
  | step tree ih =>
      obtain ⟨kind, children, diagnostics, span⟩ := tree
      rw [find] at h
      exact inTurn_among ⟨kind, children, diagnostics, span⟩ []
        (fun sibling hs => ih sibling (size_lt_of_mem hs)) h

/-- Stripping along the paths of all expressions below a root is stripping from the leaves up. No
node below the root loses anything but a marker in front of an expression, and at its turn each path
leads to the expression it was taken for, with all that is below it stripped and itself not. -/
theorem stripMarkers_eq_stripped (tree : Node) :
    tree.stripMarkers = { tree with children := tree.children.map stripped } ∧
      (∀ node : Node, ∃ children, node.stripped = { node with children := children.map stripped } ∧
        (children = node.children ∨
          node.kind = .expression ∧
            ∃ marker : Node, node.children = marker :: children ∧ marker.isToken "@")) ∧
      ∀ earlier path later,
        tree.find (.singleton .expression) = earlier ++ path :: later →
          ∃ expression, tree.at? path = some expression ∧ expression.kind = .expression ∧
            (stripAlong later tree).at? path = some expression.stripMarkers ∧
            (stripAlong (path :: later) tree).at? path = some expression.stripped := by
  refine ⟨?_, stripped_cases, ?_⟩
  · rw [stripped_eq_unmarked]
    exact stripMarkers_eq tree
  · intro earlier path later h
    obtain ⟨expression, hfound, hkind, hturn⟩ := inTurn tree h
    refine ⟨expression, hfound, hkind, hturn, ?_⟩
    have hedit := at?_modifyAt dropMarker path (stripAlong later tree)
    rw [hturn, Option.map_some, stripMarkers_eq, ← stripped_eq_unmarked,
      ← stripped_of_expression hkind] at hedit
    exact hedit

/-- A template whose one expression starts with a marker that holds an expression itself. -/
def nestedMarkers : Node :=
  .template [.expression [
    { Node.token "@" with children := [.expression [.token "@", .token "x"]] },
    .expression [.token "@", .token "y"]]]

/-- The marker of the outer expression goes last, with what was stripped below it. -/
theorem stripAlong_nestedMarkers :
    nestedMarkers.find (.singleton .expression) = [[0], [0, 0, 0], [0, 1]] ∧
      (stripAlong [[0], [0, 0, 0], [0, 1]] nestedMarkers).at? [0] =
        some (.expression [.expression [.token "y"]]) := by
  have hfind : nestedMarkers.find (.singleton .expression) = [[0], [0, 0, 0], [0, 1]] := by
    decide
  refine ⟨hfind, ?_⟩
  obtain ⟨expression, hfound, _, _, hedit⟩ :=
    (stripMarkers_eq_stripped nestedMarkers).2.2 [] [0] [[0, 0, 0], [0, 1]] hfind
  rw [hedit]
  cases hfound
  decide

end Node
end ComponentLowering
