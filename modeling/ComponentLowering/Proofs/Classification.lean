import ComponentLowering.Proofs.Reading
/-!
What classification answers, for all content. `Complex` lists the ways in which content is more than
one fragment, and `Simplified` says what becomes of all other content. Redundant parentheses can
also be taken away position by position, as an edit in place does it; `classifyInPlace?_eq` says
that no position is ever missing then.
-/

namespace ComponentLowering

/-- Content that is no single fragment. -/
inductive Complex : List Node → Prop
  | several {content : List Node} : 2 ≤ content.length → Complex content
  | code {node : Node} : node.kind = .codeBlock → Complex [node]
  | fragments {node : Node} :
      node.kind = .genericValue → 2 ≤ node.children.length → Complex [node]
  | parts {node : Node} :
      node.kind = .expression → 2 ≤ node.children.length →
      (∀ part, ¬Parenthesized node.children part) →
      (∀ part, ¬ParenthesizedTemplate node.children part) → Complex [node]

/-- `Simplified content kept`: what is kept of content that is a single fragment, with parentheses
that are redundant or without. -/
inductive Simplified : List Node → List Node → Prop
  | whole {content : List Node} :
      (∀ node ∈ content, ∀ part, node.kind = .expression →
        ¬Parenthesized node.children part ∧ ¬ParenthesizedTemplate node.children part) →
      Simplified content content
  | value {expression part : Node} :
      expression.kind = .expression → Parenthesized expression.children part →
      Simplified [expression] [{ expression with children := [part] }]
  | template {expression part : Node} :
      expression.kind = .expression → ParenthesizedTemplate expression.children part →
      Simplified [expression] [{ expression with children := [part.stripMarkers] }]

theorem Simplified.length_eq {content kept : List Node} (h : Simplified content kept) :
    kept.length = content.length := by
  cases h with
  | whole _ => rfl
  | value _ _ => rfl
  | template _ _ => rfl

theorem Parenthesized.two_le {parts : List Node} {part : Node} (h : Parenthesized parts part) :
    2 ≤ parts.length := by
  obtain ⟨opening, closing, rfl, -⟩ := h
  exact Nat.le_add_left 2 1

theorem ParenthesizedTemplate.two_le {parts : List Node} {part : Node}
    (h : ParenthesizedTemplate parts part) : 2 ≤ parts.length := by
  obtain ⟨opening, empty, closing, rfl, -⟩ := h
  exact Nat.le_add_left 2 2

/-! ### Content that is mixed -/

namespace Reading

theorem ofParts_eq_whole {expression : Node} {parts : List Node} :
    ofParts expression parts = .whole ↔ parts.length < 2 := by
  match parts with
  | [] | [_] => simp [ofParts]
  | [_, _] => simp [ofParts]
  | [_, _, _] | [_, _, _, _] =>
      simp only [ofParts, List.length_cons]
      split <;> simp
  | _ :: _ :: _ :: _ :: _ :: _ => simp [ofParts]

theorem ofParts_eq_mixed {expression : Node} {parts : List Node} :
    ofParts expression parts = .mixed ↔
      2 ≤ parts.length ∧ (∀ part, ¬Parenthesized parts part) ∧
        ∀ part, ¬ParenthesizedTemplate parts part := by
  constructor
  · intro h
    refine ⟨?_, ?_, ?_⟩
    · apply Nat.le_of_not_lt
      intro hshort
      rw [ofParts_eq_whole.mpr hshort] at h
      cases h
    · intro part hpart
      rw [ofParts_eq_value.mpr ⟨rfl, hpart⟩] at h
      cases h
    · intro part hpart
      rw [ofParts_eq_template.mpr ⟨rfl, hpart⟩] at h
      cases h
  · rintro ⟨hlength, hvalue, htemplate⟩
    cases h : ofParts expression parts with
    | whole => exact absurd (ofParts_eq_whole.mp h) (Nat.not_lt.mpr hlength)
    | value expression' part => exact absurd (ofParts_eq_value.mp h).2 (hvalue part)
    | template expression' part => exact absurd (ofParts_eq_template.mp h).2 (htemplate part)
    | mixed => rfl

/-- Content reads as mixed in exactly the ways that make it complex. -/
theorem ofContent_eq_mixed {content : List Node} :
    ofContent 0 content = .mixed ↔ Complex content := by
  constructor
  · intro h
    rcases content with _ | ⟨node, _ | _⟩
    · cases h
    · cases hkind : node.kind with
      | expression =>
          rw [ofContent_of_expression 0 hkind, Node.dropMarkers_zero] at h
          obtain ⟨hlength, hvalue, htemplate⟩ := ofParts_eq_mixed.mp h
          exact .parts hkind hlength hvalue htemplate
      | genericValue =>
          simp only [ofContent, hkind] at h
          split at h
          · rename_i hlength
            exact .fragments hkind hlength
          · cases h
      | codeBlock => exact .code hkind
      | _ => simp only [ofContent, hkind] at h; cases h
    · exact .several (by simp)
  · intro h
    cases h with
    | several hlength =>
        rcases content with _ | ⟨_, _ | _⟩
        · simp at hlength
        · simp at hlength
        · rfl
    | code hkind => simp only [ofContent, hkind]
    | fragments hkind hlength => simp only [ofContent, hkind, if_pos (show 1 < _ from hlength)]
    | parts hkind hlength hvalue htemplate =>
        rw [ofContent_of_expression 0 hkind, Node.dropMarkers_zero]
        exact ofParts_eq_mixed.mpr ⟨hlength, hvalue, htemplate⟩

end Reading

/-! ### Parentheses taken away in place -/

namespace Node

/-- Takes out the part at a position. Nothing comes of a position behind the last part. -/
def takeOut? (position : Nat) (parts : List Node) : Option (List Node) :=
  if position < parts.length then some (parts.eraseIdx position) else none

def changeAt? (f : Node → Node) (position : Nat) (parts : List Node) : Option (List Node) :=
  if position < parts.length then some (parts.modify position f) else none

def isParenthesized : List Node → Bool
  | [opening, _, closing] => opening.isToken "(" && closing.isToken ")"
  | _ => false

def isParenthesizedTemplate : List Node → Bool
  | [opening, part, empty, closing] =>
    opening.isToken "(" && part.tag = .template && empty.isToken "" && closing.isToken ")"
  | _ => false

/-- Takes redundant parentheses away from the last position to the first. -/
def unwrapInPlace? (parts : List Node) : Option (ContentShape × List Node) :=
  if isParenthesized parts then do
    let parts ← takeOut? 2 parts
    let parts ← takeOut? 0 parts
    return (.simple, parts)
  else if isParenthesizedTemplate parts then do
    let parts ← takeOut? 3 parts
    let parts ← takeOut? 2 parts
    let parts ← takeOut? 0 parts
    return (.simple, ← changeAt? stripMarkers 0 parts)
  else return (.complex, parts)

/-- Classification that edits the parts of an expression in place. -/
def classifyInPlace? : List Node → Option (ContentShape × List Node)
  | [] => some (.simple, [])
  | [node] =>
    match node.kind with
    | .codeBlock => some (.complex, [node])
    | .genericValue => some (if 1 < node.children.length then .complex else .simple, [node])
    | .expression =>
      if 1 < node.children.length then do
        let (shape, parts) ← unwrapInPlace? node.children
        return (shape, [{ node with children := parts }])
      else some (.simple, [node])
    | _ => some (.simple, [node])
  | nodes => some (.complex, nodes)

theorem unwrapInPlace?_of_value {parts : List Node} {part : Node} (h : Parenthesized parts part) :
    unwrapInPlace? parts = some (.simple, [part]) := by
  obtain ⟨opening, closing, rfl, hopening, hclosing⟩ := h
  simp [unwrapInPlace?, isParenthesized, hopening, hclosing, takeOut?]

theorem unwrapInPlace?_of_template {parts : List Node} {part : Node}
    (h : ParenthesizedTemplate parts part) :
    unwrapInPlace? parts = some (.simple, [part.stripMarkers]) := by
  obtain ⟨opening, empty, closing, rfl, hopening, htag, hempty, hclosing⟩ := h
  simp [unwrapInPlace?, isParenthesized, isParenthesizedTemplate, hopening, htag, hempty, hclosing,
    takeOut?, changeAt?]

theorem isParenthesized_iff {parts : List Node} :
    isParenthesized parts = true ↔ ∃ part, Parenthesized parts part := by
  constructor
  · intro h
    unfold isParenthesized at h
    split at h
    · rename_i opening part closing
      obtain ⟨hopening, hclosing⟩ := Bool.and_eq_true_iff.mp h
      exact ⟨part, opening, closing, rfl, hopening, hclosing⟩
    · cases h
  · rintro ⟨part, opening, closing, rfl, hopening, hclosing⟩
    simp [isParenthesized, hopening, hclosing]

theorem isParenthesizedTemplate_iff {parts : List Node} :
    isParenthesizedTemplate parts = true ↔ ∃ part, ParenthesizedTemplate parts part := by
  constructor
  · intro h
    unfold isParenthesizedTemplate at h
    split at h
    · rename_i opening part empty closing
      simp only [Bool.and_eq_true, decide_eq_true_eq] at h
      obtain ⟨⟨⟨hopening, htag⟩, hempty⟩, hclosing⟩ := h
      exact ⟨part, opening, empty, closing, rfl, hopening, htag, hempty, hclosing⟩
    · cases h
  · rintro ⟨part, opening, empty, closing, rfl, hopening, htag, hempty, hclosing⟩
    simp [isParenthesizedTemplate, hopening, htag, hempty, hclosing]

theorem unwrapInPlace?_of_other {parts : List Node} (hvalue : ∀ part, ¬Parenthesized parts part)
    (htemplate : ∀ part, ¬ParenthesizedTemplate parts part) :
    unwrapInPlace? parts = some (.complex, parts) := by
  unfold unwrapInPlace?
  rw [if_neg (fun h => (isParenthesized_iff.mp h).elim hvalue),
    if_neg (fun h => (isParenthesizedTemplate_iff.mp h).elim htemplate)]
  rfl

theorem classifyInPlace?_of_expression {expression : Node} (h : expression.kind = .expression)
    (hlength : 2 ≤ expression.children.length) :
    classifyInPlace? [expression] = do
      let (shape, parts) ← unwrapInPlace? expression.children
      return (shape, [{ expression with children := parts }]) := by
  simp only [classifyInPlace?, h, if_pos (show 1 < _ from hlength)]

/-- Every position that is edited in place is there, and the result is that of `classify`. -/
theorem classifyInPlace?_eq (content : List Node) :
    classifyInPlace? content = some (classify content) := by
  match content with
  | [] => rfl
  | _ :: _ :: _ => rfl
  | [node] =>
      cases hkind : node.kind with
      | expression =>
          rw [classify_expression hkind]
          cases hreading : Reading.ofParts node node.children with
          | whole =>
              have hshort := Reading.ofParts_eq_whole.mp hreading
              simp only [classifyInPlace?, hkind,
                if_neg (Nat.not_lt.mpr (Nat.le_of_lt_succ hshort)), classified]
          | value expression part =>
              obtain ⟨rfl, hpart⟩ := Reading.ofParts_eq_value.mp hreading
              rw [classifyInPlace?_of_expression hkind hpart.two_le, unwrapInPlace?_of_value hpart]
              rfl
          | template expression part =>
              obtain ⟨rfl, hpart⟩ := Reading.ofParts_eq_template.mp hreading
              rw [classifyInPlace?_of_expression hkind hpart.two_le,
                unwrapInPlace?_of_template hpart]
              rfl
          | mixed =>
              obtain ⟨hlength, hvalue, htemplate⟩ := Reading.ofParts_eq_mixed.mp hreading
              rw [classifyInPlace?_of_expression hkind hlength,
                unwrapInPlace?_of_other hvalue htemplate]
              cases node
              rfl
      | _ => simp only [classifyInPlace?, classify, hkind]

/-! ### Classification -/

/-- An expression with a single part is kept as it is. -/
theorem classify_single {expression part : Node} (h : expression.kind = .expression) :
    classify [{ expression with children := [part] }] =
      (.simple, [{ expression with children := [part] }]) := by
  have hkind : ({ expression with children := [part] } : Node).kind = .expression := h
  rw [classify_expression hkind]
  rfl

theorem simplified_of_whole {content : List Node} (h : Reading.ofContent 0 content = .whole) :
    Simplified content content := by
  apply Simplified.whole
  intro node hnode part hkind
  match content with
  | [] => cases hnode
  | [_] =>
      obtain rfl := List.mem_singleton.mp hnode
      rw [Reading.ofContent_of_expression 0 hkind, dropMarkers_zero] at h
      have hshort := Reading.ofParts_eq_whole.mp h
      exact ⟨fun hpart => Nat.not_lt.mpr hpart.two_le hshort,
        fun hpart => Nat.not_lt.mpr hpart.two_le hshort⟩
  | _ :: _ :: _ => cases h

/-- Content that is simple is kept, less its redundant parentheses, and stays as it is from then
on. -/
theorem classify_of_simple {content : List Node} (h : Reading.ofContent 0 content ≠ .mixed) :
    (classify content).1 = .simple ∧ Simplified content (classify content).2 ∧
      classify (classify content).2 = (.simple, (classify content).2) := by
  cases hreading : Reading.ofContent 0 content with
  | whole =>
      have heq : classify content = (.simple, content) := by rw [classify_eq, hreading]; rfl
      rw [heq]
      exact ⟨rfl, simplified_of_whole hreading, heq⟩
  | value expression part =>
      obtain ⟨rfl, hkind, hpart⟩ := Reading.ofContent_eq_value.mp hreading
      rw [classify_eq, hreading]
      exact ⟨rfl, .value hkind hpart, classify_single hkind⟩
  | template expression part =>
      obtain ⟨rfl, hkind, hpart⟩ := Reading.ofContent_eq_template.mp hreading
      rw [classify_eq, hreading]
      exact ⟨rfl, .template hkind hpart, classify_single hkind⟩
  | mixed => exact absurd hreading h

/-- Content is complex in the listed ways only, and is left alone then. Simple content keeps its
length and loses no more than redundant parentheses, which a second classification does not find any
more. An edit in place finds every position it asks for. -/
theorem classify_exact (content : List Node) :
    ((classify content).1 = .complex ↔ Complex content) ∧
      ((classify content).1 = .complex → (classify content).2 = content) ∧
      ((classify content).1 = .simple →
        Simplified content (classify content).2 ∧
          (classify content).2.length = content.length ∧
          classify (classify content).2 = (.simple, (classify content).2)) ∧
      classifyInPlace? content = some (classify content) := by
  rw [← Reading.ofContent_eq_mixed]
  by_cases hmixed : Reading.ofContent 0 content = .mixed
  · have heq : classify content = (.complex, content) := by rw [classify_eq, hmixed]; rfl
    refine ⟨⟨fun _ => hmixed, fun _ => by rw [heq]⟩, fun _ => by rw [heq], ?_,
      classifyInPlace?_eq content⟩
    intro hsimple
    rw [heq] at hsimple
    cases hsimple
  · obtain ⟨hsimple, hkept, hstable⟩ := classify_of_simple hmixed
    rw [hsimple]
    refine ⟨⟨fun h => ContentShape.noConfusion h, fun h => absurd h hmixed⟩,
      fun h => ContentShape.noConfusion h, fun _ => ⟨hkept, hkept.length_eq, hstable⟩,
      classifyInPlace?_eq content⟩

/-- An expression that is nothing but a template in parentheses. -/
def templateInParentheses : Node :=
  .expression [.token "(", .template [.expression [.token "@", .token "x"]], .token "",
    .token ")"]

/-- The template stays, without the marker in it, and nothing more goes after that. -/
theorem classify_templateInParentheses :
    (classify [templateInParentheses]).1 = .simple ∧
      classify (classify [templateInParentheses]).2 =
        (.simple, [.expression [.template [.expression [.token "x"]]]]) := by
  have hsimple : (classify [templateInParentheses]).1 = .simple := by decide
  refine ⟨hsimple, ?_⟩
  obtain ⟨_, _, hstable⟩ := (classify_exact [templateInParentheses]).2.2.1 hsimple
  rw [hstable]
  decide

end Node
end ComponentLowering
