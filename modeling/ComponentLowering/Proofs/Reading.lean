import ComponentLowering.Proofs.Markers
/-!
How the children of a tag read. A `Reading` says of an attribute whether its content is one
fragment, is one in redundant parentheses, or mixes several; it is taken without changing anything,
and with a number of markers that are to be overlooked. `classify_eq` derives classification from
it, and `Descends.reading_eq` says that a walk down the tree that keeps kinds does not alter it.
-/

namespace ComponentLowering

open Node (dropMarkers)

/-- The three parts of an explicit expression that is parenthesized once more. -/
def Parenthesized (parts : List Node) (part : Node) : Prop :=
  ∃ opening closing : Node, parts = [opening, part, closing] ∧
    opening.isToken "(" ∧ closing.isToken ")"

/-- The four parts of an explicit expression around a template. -/
def ParenthesizedTemplate (parts : List Node) (part : Node) : Prop :=
  ∃ opening empty closing : Node, parts = [opening, part, empty, closing] ∧
    opening.isToken "(" ∧ part.tag = .template ∧ empty.isToken "" ∧ closing.isToken ")"

theorem Parenthesized.mem {parts : List Node} {part : Node} (h : Parenthesized parts part) :
    part ∈ parts := by
  obtain ⟨opening, closing, rfl, _⟩ := h
  simp

theorem ParenthesizedTemplate.mem {parts : List Node} {part : Node}
    (h : ParenthesizedTemplate parts part) : part ∈ parts := by
  obtain ⟨opening, empty, closing, rfl, _⟩ := h
  simp

/-- What the content of an attribute comes down to. -/
inductive Reading where
  /-- No content, or a single fragment. -/
  | whole
  /-- A single fragment, once the parentheses in an expression are gone. -/
  | value (expression part : Node)
  /-- A single template, once the parentheses in an expression are gone. -/
  | template (expression part : Node)
  /-- Several fragments, or code. -/
  | mixed

namespace Reading

/-- The reading of an expression by its parts. -/
def ofParts (expression : Node) : List Node → Reading
  | [] | [_] => .whole
  | [opening, part, closing] =>
    if opening.isToken "(" ∧ closing.isToken ")" then .value expression part else .mixed
  | [opening, part, empty, closing] =>
    if opening.isToken "(" ∧ part.tag = .template ∧ empty.isToken "" ∧ closing.isToken ")" then
      .template expression part
    else .mixed
  | _ => .mixed

/-- The reading of content, with `count` markers overlooked in front of an expression's parts. -/
def ofContent (count : Nat) : List Node → Reading
  | [] => .whole
  | [node] =>
    match node.kind with
    | .expression => ofParts node (dropMarkers count node.children)
    | .genericValue => if 1 < node.children.length then .mixed else .whole
    | .codeBlock => .mixed
    | _ => .whole
  | _ => .mixed

def map (f : Node → Node) : Reading → Reading
  | whole => whole
  | value expression part => value (f expression) (f part)
  | template expression part => template (f expression) (f part)
  | mixed => mixed

def isMixed : Reading → Bool
  | mixed => true
  | _ => false

@[simp] theorem isMixed_map (f : Node → Node) (reading : Reading) :
    (reading.map f).isMixed = reading.isMixed := by
  cases reading <;> rfl

theorem ofParts_eq_value {expression expression' part : Node} {parts : List Node} :
    ofParts expression parts = .value expression' part ↔
      expression = expression' ∧ Parenthesized parts part := by
  constructor
  · intro h
    unfold ofParts at h
    split at h
    · cases h
    · cases h
    · rename_i opening inner closing
      split at h
      · rename_i hshape
        cases h
        exact ⟨rfl, opening, closing, rfl, hshape⟩
      · cases h
    · split at h <;> cases h
    · cases h
  · rintro ⟨rfl, opening, closing, rfl, hshape⟩
    rw [ofParts, if_pos hshape]

theorem ofParts_eq_template {expression expression' part : Node} {parts : List Node} :
    ofParts expression parts = .template expression' part ↔
      expression = expression' ∧ ParenthesizedTemplate parts part := by
  constructor
  · intro h
    unfold ofParts at h
    split at h
    · cases h
    · cases h
    · split at h <;> cases h
    · rename_i opening inner empty closing
      split at h
      · rename_i hshape
        cases h
        exact ⟨rfl, opening, empty, closing, rfl, hshape⟩
      · cases h
    · cases h
  · rintro ⟨rfl, opening, empty, closing, rfl, hshape⟩
    rw [ofParts, if_pos hshape]

theorem ofContent_of_expression (count : Nat) {expression : Node}
    (h : expression.kind = .expression) :
    ofContent count [expression] = ofParts expression (dropMarkers count expression.children) := by
  simp only [ofContent, h]

/-- Nothing but a single expression has parentheses to lose. -/
theorem ofContent_cases (count : Nat) (content : List Node) :
    ofContent count content = .whole ∨ ofContent count content = .mixed ∨
      ∃ expression, content = [expression] ∧ expression.kind = .expression := by
  rcases content with _ | ⟨node, _ | _⟩
  · exact .inl rfl
  · cases hkind : node.kind with
    | expression => exact .inr (.inr ⟨node, rfl, hkind⟩)
    | genericValue =>
        simp only [ofContent, hkind]
        split
        · exact .inr (.inl rfl)
        · exact .inl rfl
    | _ => simp [ofContent, hkind]
  · exact .inr (.inl rfl)

theorem ofContent_eq_value {count : Nat} {content : List Node} {expression part : Node} :
    ofContent count content = .value expression part ↔
      content = [expression] ∧ expression.kind = .expression ∧
        Parenthesized (dropMarkers count expression.children) part := by
  constructor
  · intro h
    rcases ofContent_cases count content with hwhole | hmixed | ⟨node, rfl, hkind⟩
    · rw [hwhole] at h; cases h
    · rw [hmixed] at h; cases h
    · rw [ofContent_of_expression count hkind] at h
      obtain ⟨rfl, hparts⟩ := ofParts_eq_value.mp h
      exact ⟨rfl, hkind, hparts⟩
  · rintro ⟨rfl, hkind, hparts⟩
    rw [ofContent_of_expression count hkind]
    exact ofParts_eq_value.mpr ⟨rfl, hparts⟩

theorem ofContent_eq_template {count : Nat} {content : List Node} {expression part : Node} :
    ofContent count content = .template expression part ↔
      content = [expression] ∧ expression.kind = .expression ∧
        ParenthesizedTemplate (dropMarkers count expression.children) part := by
  constructor
  · intro h
    rcases ofContent_cases count content with hwhole | hmixed | ⟨node, rfl, hkind⟩
    · rw [hwhole] at h; cases h
    · rw [hmixed] at h; cases h
    · rw [ofContent_of_expression count hkind] at h
      obtain ⟨rfl, hparts⟩ := ofParts_eq_template.mp h
      exact ⟨rfl, hkind, hparts⟩
  · rintro ⟨rfl, hkind, hparts⟩
    rw [ofContent_of_expression count hkind]
    exact ofParts_eq_template.mpr ⟨rfl, hparts⟩

end Reading

/-! ### Classification by reading -/

namespace Node

/-- A binding whose content is an expression with a single part. -/
def unwrapped (binding expression part : Node) : Node :=
  { binding with children := [{ expression with children := [part] }] }

/-- What classification answers to content of some reading. -/
def classified (content : List Node) : Reading → ContentShape × List Node
  | .whole => (.simple, content)
  | .value expression part => (.simple, [{ expression with children := [part] }])
  | .template expression part =>
    (.simple, [{ expression with children := [part.stripMarkers] }])
  | .mixed => (.complex, content)

theorem classify_expression {expression : Node} (h : expression.kind = .expression) :
    classify [expression] = classified [expression] (.ofParts expression expression.children) := by
  obtain ⟨kind, children, diagnostics, span⟩ := expression
  cases h
  match children with
  | [] | [_] | [_, _] => rfl
  | [opening, part, closing] =>
      by_cases hshape : opening.isToken "(" ∧ closing.isToken ")"
      · simp [classify, unwrap?, Reading.ofParts, classified, hshape]
      · simp [classify, unwrap?, Reading.ofParts, classified, hshape]
  | [opening, part, empty, closing] =>
      by_cases hshape :
          opening.isToken "(" ∧ part.tag = .template ∧ empty.isToken "" ∧ closing.isToken ")"
      · simp [classify, unwrap?, Reading.ofParts, classified, hshape]
      · simp [classify, unwrap?, Reading.ofParts, classified, hshape]
  | _ :: _ :: _ :: _ :: _ :: rest => simp [classify, unwrap?, Reading.ofParts, classified]

/-- Classification answers by the reading of the content as it stands. -/
theorem classify_eq (content : List Node) :
    classify content = classified content (.ofContent 0 content) := by
  match content with
  | [] => rfl
  | [node] =>
      cases hkind : node.kind with
      | expression =>
          rw [classify_expression hkind, Reading.ofContent_of_expression 0 hkind, dropMarkers_zero]
      | genericValue =>
          simp only [classify, Reading.ofContent, hkind]
          split <;> rfl
      | _ => simp only [classify, Reading.ofContent, hkind, classified]
  | _ :: _ :: _ => rfl

/-! ### Kinds -/

/-- A walk has three cases: a tag, an expression, and any other node. -/
theorem kind_cases (node : Node) :
    (∃ tagName descriptors, node.kind = .tagHelper tagName descriptors) ∨
      node.kind = .expression ∨ (node.tag ≠ .tagHelper ∧ node.kind ≠ .expression) := by
  unfold tag
  cases node.kind <;> simp [Kind.tag]

theorem tag_of_expression {node : Node} (h : node.kind = .expression) : node.tag ≠ .tagHelper := by
  rw [tag, h]
  exact Tag.noConfusion

theorem kind_of_attribute {node : Node} (h : node.attributeName?.isSome) :
    node.tag ≠ .tagHelper ∧ node.kind ≠ .expression := by
  unfold tag
  unfold attributeName? at h
  cases hkind : node.kind <;> simp_all [Kind.tag]

/-! ### Children of a tag -/

/-- The reading of a child of a tag, which is that of its content if it is an attribute. -/
def reading (count : Nat) (child : Node) : Reading :=
  match child.attributeName? with
  | none => .whole
  | some _ => .ofContent count child.children

theorem reading_of_attribute (count : Nat) {child : Node} (h : child.attributeName?.isSome) :
    child.reading count = .ofContent count child.children := by
  obtain ⟨name, hname⟩ := Option.isSome_iff_exists.mp h
  rw [reading, hname]

theorem attribute_of_reading {count : Nat} {child : Node} (h : child.reading count ≠ .whole) :
    child.attributeName?.isSome := by
  rw [reading] at h
  cases hname : child.attributeName? with
  | none => rw [hname] at h; exact absurd rfl h
  | some name => rfl

theorem reading_eq_value {count : Nat} {child expression part : Node}
    (h : child.reading count = .value expression part) :
    child.attributeName?.isSome ∧ child.children = [expression] ∧
      expression.kind = .expression ∧
        Parenthesized (dropMarkers count expression.children) part := by
  have hread : child.reading count ≠ .whole := by simp [h]
  have hattribute : child.attributeName?.isSome := attribute_of_reading hread
  rw [reading_of_attribute count hattribute] at h
  exact ⟨hattribute, Reading.ofContent_eq_value.mp h⟩

theorem reading_eq_template {count : Nat} {child expression part : Node}
    (h : child.reading count = .template expression part) :
    child.attributeName?.isSome ∧ child.children = [expression] ∧
      expression.kind = .expression ∧
        ParenthesizedTemplate (dropMarkers count expression.children) part := by
  have hread : child.reading count ≠ .whole := by simp [h]
  have hattribute : child.attributeName?.isSome := attribute_of_reading hread
  rw [reading_of_attribute count hattribute] at h
  exact ⟨hattribute, Reading.ofContent_eq_template.mp h⟩

/-- What stays between parentheses is a part of the expression that is all the content. -/
theorem part_of_value {count : Nat} {child expression part : Node}
    (h : child.reading count = .value expression part) :
    child.children = [expression] ∧ part ∈ expression.children := by
  obtain ⟨_, hchild, _, hparts⟩ := reading_eq_value h
  exact ⟨hchild, mem_of_mem_dropMarkers hparts.mem⟩

theorem part_of_template {count : Nat} {child expression part : Node}
    (h : child.reading count = .template expression part) :
    child.children = [expression] ∧ part ∈ expression.children := by
  obtain ⟨_, hchild, _, hparts⟩ := reading_eq_template h
  exact ⟨hchild, mem_of_mem_dropMarkers hparts.mem⟩

theorem size_of_part {child expression part : Node}
    (h : child.children = [expression] ∧ part ∈ expression.children) : part.size < child.size := by
  have hin : part.size < expression.size := size_lt_of_mem h.2
  have hout : expression.size < child.size := size_lt_of_mem (by rw [h.1]; simp)
  exact Nat.lt_trans hin hout

theorem size_of_value {count : Nat} {child expression part : Node}
    (h : child.reading count = .value expression part) : part.size < child.size :=
  size_of_part (part_of_value h)

theorem size_of_template {count : Nat} {child expression part : Node}
    (h : child.reading count = .template expression part) : part.size < child.size :=
  size_of_part (part_of_template h)

/-- What is gone on with at a child of a tag: the child, or the part that stays of it. -/
structure Below (motive : Nat → Node → Prop) (count : Nat) (child : Node) : Prop where
  self : motive count child
  value : ∀ {expression part : Node}, child.reading count = .value expression part →
    motive count part
  template : ∀ {expression part : Node}, child.reading count = .template expression part →
    motive (count + 1) part

/-- Induction along a walk from the top that counts the templates that come out of parentheses. -/
@[elab_as_elim]
theorem byReading {motive : Nat → Node → Prop}
    (tag : ∀ (count : Nat) (node : Node) (tagName : String) (descriptors : List Descriptor),
      node.kind = .tagHelper tagName descriptors →
        (∀ child ∈ node.children, Below motive count child) → motive count node)
    (expression : ∀ (count : Nat) (node : Node), node.kind = .expression →
      (∀ child ∈ node.children, motive count child) → motive count node)
    (other : ∀ (count : Nat) (node : Node), node.tag ≠ .tagHelper → node.kind ≠ .expression →
      (∀ child ∈ node.children, motive count child) → motive count node)
    (count : Nat) (node : Node) : motive count node := by
  induction node using bySize generalizing count with
  | step node ih =>
      have hall : ∀ child ∈ node.children, motive count child :=
        fun child hchild => ih child (size_lt_of_mem hchild) count
      rcases node.kind_cases with ⟨tagName, descriptors, h⟩ | h | ⟨htag, h⟩
      · refine tag count node tagName descriptors h fun child hchild => ⟨hall child hchild, ?_, ?_⟩
        · intro _ part hreading
          exact ih part (Nat.lt_trans (size_of_value hreading) (size_lt_of_mem hchild)) count
        · intro _ part hreading
          exact ih part (Nat.lt_trans (size_of_template hreading) (size_lt_of_mem hchild))
            (count + 1)
      · exact expression count node h hall
      · exact other count node htag h hall

/-- An expression with one part left asks for nothing more. -/
theorem reading_unwrapped {binding expression : Node} (h : expression.kind = .expression)
    (part : Node) : (binding.unwrapped expression part).reading 0 = .whole := by
  rw [reading]
  cases (binding.unwrapped expression part).attributeName? with
  | none => rfl
  | some name => simp only [unwrapped, Reading.ofContent, h, dropMarkers_zero, Reading.ofParts]

end Node

/-! ### Walks down a tree -/

/-- A walk down a tree. At a node other than a tag it only goes on to the children, but for up to
`count` markers that it drops in front of the parts of an expression. -/
structure Descends (count : Nat) (f : Node → Node) : Prop where
  kind_eq : ∀ node, (f node).kind = node.kind
  span_eq : ∀ node, (f node).span = node.span
  expression_eq : ∀ {node : Node}, node.kind = .expression →
    f node = { node with children := (dropMarkers count node.children).map f }
  other_eq : ∀ {node : Node}, node.tag ≠ .tagHelper → node.kind ≠ .expression →
    f node = { node with children := node.children.map f }

namespace Descends

variable {count : Nat} {f : Node → Node}

theorem ofParts_map (h : Descends count f) (expression : Node) (parts : List Node) :
    Reading.ofParts (f expression) (parts.map f) = (Reading.ofParts expression parts).map f := by
  have htoken : ∀ node content, (f node).isToken content = node.isToken content := by
    intro node content
    rw [Node.isToken_congr (h.kind_eq node)]
  have htag : ∀ node, (f node).tag = node.tag := by
    intro node
    rw [Node.tag, h.kind_eq, Node.tag]
  match parts with
  | [] | [_] | [_, _] => rfl
  | [opening, part, closing] =>
      simp only [List.map_cons, List.map_nil, Reading.ofParts, htoken]
      split <;> rfl
  | [opening, part, empty, closing] =>
      simp only [List.map_cons, List.map_nil, Reading.ofParts, htoken, htag]
      split <;> rfl
  | _ :: _ :: _ :: _ :: _ :: _ => rfl

/-- Content reads after the walk as it did before with the markers overlooked. -/
theorem ofContent_map (h : Descends count f) (content : List Node) :
    Reading.ofContent 0 (content.map f) = (Reading.ofContent count content).map f := by
  match content with
  | [] => rfl
  | [node] =>
      cases hkind : node.kind with
      | expression =>
          simp only [List.map_cons, List.map_nil, Reading.ofContent, h.kind_eq, hkind,
            Node.dropMarkers_zero]
          rw [← h.ofParts_map, h.expression_eq hkind]
      | genericValue =>
          have htag : node.tag ≠ .tagHelper := by simp [Node.tag, hkind, Kind.tag]
          have hf : f node = { node with children := node.children.map f } :=
            h.other_eq htag (by simp [hkind])
          simp only [List.map_cons, List.map_nil, Reading.ofContent, h.kind_eq, hkind]
          rw [hf, List.length_map]
          split <;> rfl
      | _ =>
          simp only [List.map_cons, List.map_nil, Reading.ofContent, h.kind_eq, hkind]
          rfl
  | _ :: _ :: _ => rfl

theorem attribute_eq (h : Descends count f) {node : Node} (hn : node.attributeName?.isSome) :
    f node = { node with children := node.children.map f } :=
  h.other_eq (Node.kind_of_attribute hn).1 (Node.kind_of_attribute hn).2

theorem reading_eq (h : Descends count f) (child : Node) :
    (f child).reading 0 = (child.reading count).map f := by
  have hname : (f child).attributeName? = child.attributeName? :=
    Node.attributeName?_congr (h.kind_eq child)
  cases hc : child.attributeName? with
  | none => simp only [Node.reading, hname, hc, Reading.map]
  | some name =>
      have hsome : child.attributeName?.isSome := by rw [hc]; rfl
      rw [Node.reading_of_attribute count hsome, Node.reading_of_attribute 0 (by rwa [hname]),
        h.attribute_eq hsome, h.ofContent_map]

/-- What is unwrapped after the walk has the frame of what is unwrapped before. -/
theorem unwrapped_eq (h : Descends count f) {binding expression : Node}
    (hb : binding.attributeName?.isSome) (he : expression.kind = .expression) (part : Node) :
    (f binding).unwrapped (f expression) part = binding.unwrapped expression part := by
  rw [h.attribute_eq hb, h.expression_eq he]
  rfl

/-- A walk that drops no markers passes through what is unwrapped. -/
theorem map_unwrapped (h : Descends 0 f) {binding expression : Node}
    (hb : binding.attributeName?.isSome) (he : expression.kind = .expression) (part : Node) :
    f (binding.unwrapped expression part) = binding.unwrapped expression (f part) := by
  rw [h.attribute_eq (by exact hb)]
  simp only [Node.unwrapped, List.map_cons, List.map_nil]
  rw [h.expression_eq (by exact he), Node.dropMarkers_zero]
  rfl

end Descends

namespace Node

theorem unmarked_descends (count : Nat) : Descends count (unmarked count) where
  kind_eq := kind_unmarked count
  span_eq node := by cases node; rfl
  expression_eq := unmarked_of_expression count
  other_eq _ := unmarked_of_ne count

end Node

end ComponentLowering
