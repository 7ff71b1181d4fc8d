/-!
Finite types whose values are written by name. Main statement: the name of a value finds that value
again (`ofName?_name`), and nothing else has that name (`ofName?_eq_some_iff`).
-/

namespace ComponentLowering

/-- A finite type whose values all have names of their own. -/
class Named (α : Type) where
  /-- Every value once, in declaration order. -/
  all : List α
  /-- The name under which a value is written. -/
  name : α → String
  mem_all : ∀ a, a ∈ all
  name_injective : ∀ a b, name a = name b → a = b

namespace Named

variable {α : Type} [Named α]

def names (α : Type) [Named α] : List String :=
  (all : List α).map name

/-- The value of a name. Names are compared exactly. -/
def ofName? (text : String) : Option α :=
  (all : List α).find? fun a => name a == text

theorem ofName?_eq_some_iff {text : String} {a : α} : ofName? text = some a ↔ name a = text := by
  constructor
  · intro h
    simpa using List.find?_some h
  · intro h
    cases found : (ofName? text : Option α) with
    | none => exact absurd h (by simpa using List.find?_eq_none.mp found a (mem_all a))
    | some b =>
      have hb : name b = text := by simpa using List.find?_some found
      rw [name_injective b a (hb.trans h.symm)]

theorem ofName?_name (a : α) : ofName? (name a) = some a :=
  ofName?_eq_some_iff.mpr rfl

end Named

end ComponentLowering
