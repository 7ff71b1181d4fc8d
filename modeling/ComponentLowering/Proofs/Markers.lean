import ComponentLowering.Pass.Content
/-!
Markers in front of expressions. `Node.stripMarkers` takes the paths of all expressions once and
then edits the tree path by path. Here the same tree is given by recursion: `stripMarkers_eq` says
that below the root every expression lost one leading marker, and `unmarked_unmarked` that
stripping again and again adds up.
-/

namespace ComponentLowering
namespace Node

/-! ### Markers in front of siblings -/

/-- Drops the markers in front of some nodes, at most `count` of them. -/
def dropMarkers (count : Nat) (nodes : List Node) : List Node :=
  nodes.drop (min count (nodes.takeWhile fun node => node.isToken "@").length)

@[simp] theorem dropMarkers_zero (nodes : List Node) : dropMarkers 0 nodes = nodes := by
  rw [dropMarkers, Nat.zero_min, List.drop_zero]

@[simp] theorem dropMarkers_nil (count : Nat) : dropMarkers count [] = [] :=
  List.drop_nil

theorem dropMarkers_succ_cons (count : Nat) (first : Node) (rest : List Node) :
    dropMarkers (count + 1) (first :: rest) =
      if first.isToken "@" then dropMarkers count rest else first :: rest := by
  rw [dropMarkers, List.takeWhile_cons]
  by_cases h : first.isToken "@"
  · simp only [h, if_true, List.length_cons, Nat.add_min_add_right, List.drop_succ_cons,
      dropMarkers]
  · simp only [h, Bool.false_eq_true, if_false, List.length_nil, Nat.min_zero, List.drop_zero]

theorem dropMarkers_dropMarkers (first second : Nat) (nodes : List Node) :
    dropMarkers second (dropMarkers first nodes) = dropMarkers (first + second) nodes := by
  induction first generalizing nodes with
  | zero => rw [dropMarkers_zero, Nat.zero_add]
  | succ first ih =>
      cases nodes with
      | nil => simp only [dropMarkers_nil]
      | cons head rest =>
          rw [Nat.add_right_comm, dropMarkers_succ_cons, dropMarkers_succ_cons]
          by_cases h : head.isToken "@"
          · rw [if_pos h, if_pos h, ih]
          · -- the first node stays, and shields those behind it from any further count
            rw [if_neg h, if_neg h]
            cases second with
            | zero => rw [dropMarkers_zero]
            | succ second => rw [dropMarkers_succ_cons, if_neg h]

/-- Nodes that keep their kinds keep their markers. -/
theorem dropMarkers_map (count : Nat) (f : Node → Node) (h : ∀ node, (f node).kind = node.kind)
    (nodes : List Node) : dropMarkers count (nodes.map f) = (dropMarkers count nodes).map f := by
  induction nodes generalizing count with
  | nil => rw [List.map_nil, dropMarkers_nil, List.map_nil]
  | cons head rest ih =>
      cases count with
      | zero => rw [dropMarkers_zero, dropMarkers_zero]
      | succ count =>
          rw [List.map_cons, dropMarkers_succ_cons, dropMarkers_succ_cons, isToken_congr (h head)]
          split
          · exact ih count
          · rfl

theorem mem_of_mem_dropMarkers {count : Nat} {node : Node} {nodes : List Node}
    (h : node ∈ dropMarkers count nodes) : node ∈ nodes :=
  List.mem_of_mem_drop h

/-! ### Markers in a tree -/

mutual

/-- A tree all of whose expressions lost their leading markers, at most `count` each. -/
def unmarked (count : Nat) : Node → Node
  | ⟨kind, children, diagnostics, span⟩ =>
    let children := unmarkedAll count children
    ⟨kind, if kind = .expression then dropMarkers count children else children, diagnostics, span⟩

def unmarkedAll (count : Nat) : List Node → List Node
  | [] => []
  | node :: rest => unmarked count node :: unmarkedAll count rest

end

theorem unmarkedAll_eq_map (count : Nat) (nodes : List Node) :
    unmarkedAll count nodes = nodes.map (unmarked count) := by
  induction nodes with
  | nil => rfl
  | cons node rest ih => rw [unmarkedAll, ih, List.map_cons]

@[simp] theorem kind_unmarked (count : Nat) (node : Node) :
    (node.unmarked count).kind = node.kind := by
  cases node; rfl

theorem unmarked_of_expression (count : Nat) {node : Node} (h : node.kind = .expression) :
    node.unmarked count =
      { node with children := (dropMarkers count node.children).map (unmarked count) } := by
  obtain ⟨kind, children, diagnostics, span⟩ := node
  cases h
  rw [unmarked, if_pos rfl, unmarkedAll_eq_map, dropMarkers_map count _ (kind_unmarked count)]

theorem unmarked_of_ne (count : Nat) {node : Node} (h : node.kind ≠ .expression) :
    node.unmarked count = { node with children := node.children.map (unmarked count) } := by
  obtain ⟨kind, children, diagnostics, span⟩ := node
  rw [unmarked, if_neg h, unmarkedAll_eq_map]

theorem unmarked_zero (node : Node) : node.unmarked 0 = node := by
  induction node using bySize with
  | step node ih =>
      have hchildren : node.children.map (unmarked 0) = node.children := by
        rw [List.map_congr_left fun child hc => ih child (size_lt_of_mem hc), List.map_id']
      by_cases h : node.kind = .expression
      · rw [unmarked_of_expression 0 h, dropMarkers_zero, with_children_eq hchildren]
      · rw [unmarked_of_ne 0 h, with_children_eq hchildren]

theorem unmarked_unmarked (first second : Nat) (node : Node) :
    (node.unmarked first).unmarked second = node.unmarked (first + second) := by
  induction node using bySize with
  | step node ih =>
      have hall : ∀ nodes : List Node, (∀ child ∈ nodes, child ∈ node.children) →
          (nodes.map (unmarked first)).map (unmarked second) =
            nodes.map (unmarked (first + second)) := by
        intro nodes hsub
        rw [List.map_map]
        exact List.map_congr_left fun child hc => ih child (size_lt_of_mem (hsub child hc))
      by_cases h : node.kind = .expression
      · rw [unmarked_of_expression first h, unmarked_of_expression second (by exact h),
          dropMarkers_map second _ (kind_unmarked first), dropMarkers_dropMarkers,
          hall _ fun _ => mem_of_mem_dropMarkers, unmarked_of_expression (first + second) h]
      · rw [unmarked_of_ne first h, unmarked_of_ne second (by exact h), hall _ fun _ hc => hc,
          unmarked_of_ne (first + second) h]

/-! ### Stripping by paths -/

/-- Edits below one child are edits of that child. -/
theorem foldr_modifyAt_below (f : Node → Node) (index : Nat) (paths : List Path) (node : Node) :
    (paths.map (index :: ·)).foldr (fun path tree => tree.modifyAt f path) node =
      { node with
        children := node.children.modify index fun child =>
          paths.foldr (fun path tree => tree.modifyAt f path) child } := by
  induction paths with
  | nil =>
      exact (with_children_eq (List.modify_id index node.children)).symm
  | cons path paths ih =>
      simp only [List.map_cons, List.foldr_cons, ih, modifyAt, List.modify_modify_eq]
      rfl

theorem modify_length_append (f : Node → Node) (earlier : List Node) (node : Node)
    (later : List Node) :
    (earlier ++ node :: later).modify earlier.length f = earlier ++ f node :: later := by
  induction earlier with
  | nil => rfl
  | cons head rest ih => rw [List.cons_append, List.length_cons, List.modify_succ_cons, ih]; rfl

theorem isAnyOf_singleton (node : Node) (tag : Tag) :
    node.isAnyOf (.singleton tag) = decide (node.tag = tag) := by
  have h : ∀ a b : Tag, (KindSet.singleton b).contains a = decide (a = b) := by
    intro a b
    cases a <;> cases b <;> rfl
  exact h node.tag tag

theorem tag_eq_expression {node : Node} : node.tag = .expression ↔ node.kind = .expression := by
  unfold tag
  cases node.kind <;> simp [Kind.tag]

/-- The marker of an expression itself goes last, when those below it are gone. -/
theorem dropMarker_below {node : Node} (h : node.kind = .expression) :
    dropMarker { node with children := node.children.map (unmarked 1) } = node.unmarked 1 := by
  rw [unmarked_of_expression 1 h, ← dropMarkers_map 1 _ (kind_unmarked 1), dropMarker]
  cases node.children with
  | nil => rfl
  | cons first rest =>
      simp only [List.map_cons, dropMarkers_succ_cons, dropMarkers_zero]
      split <;> rfl

/-- Stripping among the later children of a node, the earlier ones standing before them. The paths
were taken before any edit; they hold since only children of visited nodes are gone by then. -/
theorem foldr_findAmong (node : Node) (earlier siblings : List Node)
    (ih : ∀ sibling ∈ siblings, sibling.stripMarkers =
      { sibling with children := sibling.children.map (unmarked 1) }) :
    (findAmong (.singleton .expression) earlier.length siblings).foldr
        (fun path tree => tree.modifyAt dropMarker path)
        { node with children := earlier ++ siblings } =
      { node with children := earlier ++ siblings.map (unmarked 1) } := by
  induction siblings generalizing earlier with
  | nil => rfl
  | cons first rest ihRest =>
      have hrest := ihRest (earlier ++ [first]) fun sibling hs => ih sibling (by simp [hs])
      simp only [List.length_append, List.length_singleton, List.append_assoc,
        List.singleton_append] at hrest
      have hfirst := ih first (by simp)
      unfold stripMarkers at hfirst
      rw [findAmong, List.foldr_append, hrest, List.foldr_append, foldr_modifyAt_below]
      simp only [modify_length_append, hfirst, isAnyOf_singleton, tag_eq_expression, List.map_cons]
      by_cases h : first.kind = .expression
      · rw [if_pos (by rw [decide_eq_true h]), List.foldr_cons, List.foldr_nil, modifyAt,
          modify_length_append]
        simp only [modifyAt, dropMarker_below h]
      · simp only [h, decide_false, Bool.false_eq_true, if_false, List.foldr_nil]
        rw [unmarked_of_ne 1 h]

/-- Stripping by paths is stripping by recursion, the root left alone. -/
theorem stripMarkers_eq (node : Node) :
    node.stripMarkers = { node with children := node.children.map (unmarked 1) } := by
  induction node using bySize with
  | step node ih =>
      have h := foldr_findAmong node [] node.children fun sibling hs =>
        ih sibling (size_lt_of_mem hs)
      cases node
      exact h

/-- In a tree that is stripped already, stripping below a root that is no expression counts as one
more marker for all. -/
theorem stripMarkers_unmarked (count : Nat) {node : Node} (h : node.kind ≠ .expression) :
    (node.unmarked count).stripMarkers = node.unmarked (count + 1) := by
  have hkind : (node.unmarked count).kind ≠ .expression := by rwa [kind_unmarked]
  rw [← unmarked_unmarked count 1, stripMarkers_eq, unmarked_of_ne 1 hkind]

end Node
end ComponentLowering
