import ComponentLowering.Proofs.Gates
import ComponentLowering.Proofs.Lowering
/-!
What later passes may rely on. Wherever a tag stands in the tree that the pass leaves, the
attributes of a component have simple content, and no attribute at all holds an expression that
could lose parentheses; so that the pass has nothing more to do at any node of the tree.
-/

namespace ComponentLowering
namespace ComplexContent

/-- The content of the attributes of a tag as the pass is to leave it. -/
def Normal (gate : Descriptor → Bool) (node : Node) : Prop :=
  ∀ tagName descriptors, node.kind = .tagHelper tagName descriptors →
    ∀ child ∈ node.children, child.attributeName?.isSome →
      if descriptors.any gate then Node.classify child.children = (.simple, child.children)
      else ∀ expression part, child.children = [expression] → expression.kind = .expression →
        ¬Parenthesized expression.children part ∧ ¬ParenthesizedTemplate expression.children part

theorem classify_of_whole {child : Node} (hbinding : child.attributeName?.isSome)
    (h : child.reading 0 = .whole) :
    Node.classify child.children = (.simple, child.children) := by
  rw [Node.classify_eq, ← Node.reading_of_attribute 0 hbinding, h]
  rfl

/-- Parentheses that could go would show in the reading. -/
theorem not_parenthesized {child expression : Node} (hbinding : child.attributeName?.isSome)
    (hchild : child.children = [expression]) (hkind : expression.kind = .expression)
    (h : child.reading 0 = .whole ∨ child.reading 0 = .mixed) (part : Node) :
    ¬Parenthesized expression.children part ∧ ¬ParenthesizedTemplate expression.children part := by
  rw [Node.reading_of_attribute 0 hbinding, hchild] at h
  constructor
  · intro hshape
    have hvalue : Reading.ofContent 0 [expression] = .value expression part :=
      Reading.ofContent_eq_value.mpr ⟨rfl, hkind, by rwa [Node.dropMarkers_zero]⟩
    rw [hvalue] at h
    rcases h with h | h <;> cases h
  · intro hshape
    have htemplate : Reading.ofContent 0 [expression] = .template expression part :=
      Reading.ofContent_eq_template.mpr ⟨rfl, hkind, by rwa [Node.dropMarkers_zero]⟩
    rw [htemplate] at h
    rcases h with h | h <;> cases h

theorem settle_normal (gate : Descriptor → Bool) (node : Node) :
    Normal gate (settle gate node) := by
  intro tagName descriptors hkind child hchild hbinding
  rw [kind_settle] at hkind
  rw [settle_of_tag gate hkind] at hchild
  obtain ⟨source, _, hsettled⟩ := List.mem_filterMap.mp hchild
  have hreading := reading_settleChild hsettled
  split
  · rename_i hcomponent
    rcases hreading with ⟨hwhole, _⟩ | ⟨_, _, hplain⟩
    · exact classify_of_whole hbinding hwhole
    · rw [hcomponent] at hplain
      cases hplain
  · intro expression part hcontent hexpression
    refine not_parenthesized hbinding hcontent hexpression ?_ part
    rcases hreading with ⟨hwhole, _⟩ | ⟨hmixed, _⟩
    · exact .inl hwhole
    · exact .inr hmixed

/-- The pass has nothing to do about a node that was settled, wherever it stands. -/
theorem outcome_settle (gate : Descriptor → Bool) (logger : Logger) (node : Node) :
    outcome gate logger (settle gate node) = settle gate node := by
  by_cases h : (settle gate node).fileKind? = some .legacy
  · exact outcome_of_legacy gate logger h
  · rw [outcome_eq_settle gate logger h, settle_settle, either_self]

/-- Every node of the tree that the pass leaves is in normal form, and running the pass on that node
changes nothing. -/
theorem outcome_normal (gate : Descriptor → Bool) (logger logger' : Logger) {tree found : Node}
    {path : Path} (h : tree.fileKind? ≠ some .legacy)
    (hfound : (outcome gate logger tree).at? path = some found) :
    Normal gate found ∧ outcome gate logger' found = found := by
  rw [outcome_eq_settle gate logger h] at hfound
  obtain ⟨source, rfl⟩ := exists_of_at?_settle hfound
  exact ⟨settle_normal gate source, outcome_settle gate logger' source⟩

theorem outcome_normal_nestedTemplates :
    nestedTemplates.fileKind? ≠ some .legacy ∧
      ∃ found, (outcome Descriptor.isComponent .null nestedTemplates).at? [0, 0, 0, 0, 0] =
          some found ∧
        found.tag = .tagHelper ∧ Normal Descriptor.isComponent found ∧
          outcome Descriptor.isComponent .null found = found := by
  have hroot : nestedTemplates.fileKind? ≠ some .legacy := by decide
  have hfound : (outcome Descriptor.isComponent .null nestedTemplates).at? [0, 0, 0, 0, 0] =
      some (.tagHelper "inner" [⟨"inner", .tagHelper⟩] [
        .propertyBinding "content" [.expression [.template [
          .expression [.token "@", .token "x"]]]],
        .htmlAttribute "mixed" [.token "a", .expression [.token "@"]]]) := by
    decide +kernel
  exact ⟨hroot, _, hfound, rfl, outcome_normal Descriptor.isComponent .null .null hroot hfound⟩

end ComplexContent
end ComponentLowering
