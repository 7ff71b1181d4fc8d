import ComponentLowering.Decimal
/-!
JSON values as they stand in a text: numbers keep whether they are whole, and objects keep the order
of their members and every repetition of a key.
-/

namespace ComponentLowering

/-- A number is whole as long as its text has no fraction and no exponent and it fits 64 bits. -/
inductive Number where
  | whole (value : Int)
  | real (value : Float)

inductive Json where
  | null
  | bool (value : Bool)
  | num (value : Number)
  | str (value : String)
  | arr (elements : List Json)
  | obj (members : List (String × Json))

namespace Number

/-- The text of a whole number, most significant digit first. -/
def digits : Int → List Char
  | .ofNat n => Nat.toDigits 10 n
  | .negSucc n => '-' :: Nat.toDigits 10 (n + 1)

def text : Number → List Char
  | whole value => digits value
  | real value => Decimal.ofFloat value

end Number

namespace Json

def natural (value : Nat) : Json :=
  .num (.whole value)

mutual

/-- The greatest number of arrays and objects that are open at once in the text of a value. -/
def depth : Json → Nat
  | .arr elements => depthOfElements elements + 1
  | .obj members => depthOfMembers members + 1
  | _ => 0
termination_by structural value => value

def depthOfElements : List Json → Nat
  | [] => 0
  | element :: rest => max element.depth (depthOfElements rest)
termination_by structural elements => elements

def depthOfMembers : List (String × Json) → Nat
  | [] => 0
  | (_, value) :: rest => max value.depth (depthOfMembers rest)
termination_by structural members => members

end

end Json

end ComponentLowering
