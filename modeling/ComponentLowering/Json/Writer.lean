import ComponentLowering.Json.Basic
/-!
The text of JSON values. Both layouts share one writer: it may put blanks in front of each item, in
front of a closing bracket and after a colon, and nowhere else. An empty array or object is closed
at once.
-/

namespace ComponentLowering

/-- The characters that may stand between the tokens of a text. -/
def isBlank (c : Char) : Bool :=
  c = ' ' || c = '\t' || c = '\n' || c = '\r'

/-- The blanks of a text. -/
structure Layout where
  /-- Stands in front of each item, and of the bracket that ends it, at a depth. -/
  lineBreak : Nat → List Char
  /-- Stands after the colon of a member. -/
  afterColon : List Char
  lineBreak_blank : ∀ level, ∀ c ∈ lineBreak level, isBlank c = true
  afterColon_blank : ∀ c ∈ afterColon, isBlank c = true

namespace Layout

def compact : Layout where
  lineBreak _ := []
  afterColon := []
  lineBreak_blank := by simp
  afterColon_blank := by simp

/-- One item a line, each level two spaces further in. -/
def indented : Layout where
  lineBreak level := '\n' :: List.replicate (2 * level) ' '
  afterColon := [' ']
  lineBreak_blank level c h := by
    rcases List.mem_cons.mp h with rfl | h
    · rfl
    · rw [List.eq_of_mem_replicate h]; rfl
  afterColon_blank := by simp [isBlank]

end Layout

namespace Json

/-- A character of a string as it is written between the quotes. -/
def escape (c : Char) : List Char :=
  if c = '"' then ['\\', '"']
  else if c = '\\' then ['\\', '\\']
  else if c = '\x08' then ['\\', 'b']
  else if c = '\x0c' then ['\\', 'f']
  else if c = '\n' then ['\\', 'n']
  else if c = '\r' then ['\\', 'r']
  else if c = '\t' then ['\\', 't']
  else if c < ' ' then
    ['\\', 'u', '0', '0', Nat.digitChar (c.toNat / 16), Nat.digitChar (c.toNat % 16)]
  else [c]

def quote (s : String) : List Char :=
  '"' :: s.toList.flatMap escape ++ ['"']

mutual

/-- The text of a value whose brackets stand at depth `level`, in front of the text `after`. -/
def write (layout : Layout) (level : Nat) : Json → (after : List Char) → List Char
  | .null, after => ['n', 'u', 'l', 'l'] ++ after
  | .bool true, after => ['t', 'r', 'u', 'e'] ++ after
  | .bool false, after => ['f', 'a', 'l', 's', 'e'] ++ after
  | .num value, after => value.text ++ after
  | .str value, after => quote value ++ after
  | .arr [], after => '[' :: ']' :: after
  | .arr (element :: rest), after =>
    '[' :: layout.lineBreak (level + 1) ++
      element.write layout (level + 1) (writeElements layout level rest after)
  | .obj [], after => '{' :: '}' :: after
  | .obj ((key, value) :: rest), after =>
    '{' :: layout.lineBreak (level + 1) ++ quote key ++ ':' :: layout.afterColon ++
      value.write layout (level + 1) (writeMembers layout level rest after)
termination_by structural value => value

/-- The text of an array from its second element on, in front of the text `after`. -/
def writeElements (layout : Layout) (level : Nat) : List Json → (after : List Char) → List Char
  | [], after => layout.lineBreak level ++ ']' :: after
  | element :: rest, after =>
    ',' :: layout.lineBreak (level + 1) ++
      element.write layout (level + 1) (writeElements layout level rest after)
termination_by structural elements => elements

/-- The text of an object from its second member on, in front of the text `after`. -/
def writeMembers (layout : Layout) (level : Nat) :
    List (String × Json) → (after : List Char) → List Char
  | [], after => layout.lineBreak level ++ '}' :: after
  | (key, value) :: rest, after =>
    ',' :: layout.lineBreak (level + 1) ++ quote key ++ ':' :: layout.afterColon ++
      value.write layout (level + 1) (writeMembers layout level rest after)
termination_by structural members => members

end

mutual

/-- What stands behind a value has no influence on its text. -/
theorem write_append (layout : Layout) (level : Nat) (value : Json) (after more : List Char) :
    value.write layout level (after ++ more) = value.write layout level after ++ more := by
  match value with
  | .null | .bool true | .bool false | .num _ | .str _ | .arr [] | .obj [] => simp [write]
  | .arr (element :: rest) =>
    simp [write, writeElements_append layout level rest after more,
      write_append layout (level + 1) element]
  | .obj ((key, value) :: rest) =>
    simp [write, writeMembers_append layout level rest after more,
      write_append layout (level + 1) value]
termination_by structural value

theorem writeElements_append (layout : Layout) (level : Nat) (elements : List Json)
    (after more : List Char) :
    writeElements layout level elements (after ++ more) =
      writeElements layout level elements after ++ more := by
  match elements with
  | [] => simp [writeElements]
  | element :: rest =>
    simp [writeElements, writeElements_append layout level rest after more,
      write_append layout (level + 1) element]
termination_by structural elements

theorem writeMembers_append (layout : Layout) (level : Nat) (members : List (String × Json))
    (after more : List Char) :
    writeMembers layout level members (after ++ more) =
      writeMembers layout level members after ++ more := by
  match members with
  | [] => simp [writeMembers]
  | (key, value) :: rest =>
    simp [writeMembers, writeMembers_append layout level rest after more,
      write_append layout (level + 1) value]
termination_by structural members

end

def render (layout : Layout) (value : Json) : String :=
  String.ofList (value.write layout 0 [])

end Json

end ComponentLowering
