/-!
The shortest decimal text of a double: the fewest digits that read back as the same double, of
those the nearest to it, and of two equally near the even one. All comparisons are exact, on
natural numbers.
-/

namespace ComponentLowering

/-- The decimal digits of a natural number, most significant first. -/
def decimal (n : Nat) : String :=
  String.ofList (Nat.toDigits 10 n)

/-- The positive value `mantissa · 2 ^ exponent` of a finite double. -/
structure Binary where
  mantissa : Nat
  exponent : Int
  /-- Whether the double below is only half as far away as the one above. -/
  narrowBelow : Bool

namespace Binary

def ofFloat (x : Float) : Binary :=
  let bits := x.toBits.toNat
  let biased : Nat := bits / Nat.pow 2 52 % Nat.pow 2 11
  let fraction : Nat := bits % Nat.pow 2 52
  if biased = 0 then
    ⟨fraction, -1074, false⟩
  else
    ⟨fraction + Nat.pow 2 52, (biased : Int) - 1075, fraction = 0 ∧ 1 < biased⟩

/-- Four times the value as a fraction: the rounding interval has whole ends in these quarters. -/
def quarters (b : Binary) : Nat × Nat :=
  let shift := b.exponent - 2
  (Nat.pow 2 shift.toNat, Nat.pow 2 (-shift).toNat)

/-- The least quarter that rounds to the value, unless the mantissa is odd. -/
def low (b : Binary) : Nat :=
  4 * b.mantissa - (if b.narrowBelow then 1 else 2)

/-- The greatest quarter that rounds to the value, unless the mantissa is odd. -/
def high (b : Binary) : Nat :=
  4 * b.mantissa + 2

end Binary

/-- The positive value `digits · 10 ^ exponent`. -/
structure Decimal where
  digits : Nat
  exponent : Int
  deriving DecidableEq, Repr

namespace Decimal

def width (n : Nat) : Nat :=
  (Nat.toDigits 10 n).length

/-- The exponent of the leading decimal digit of a positive fraction. -/
def magnitude (numerator denominator : Nat) : Int :=
  let guess : Int := (width numerator : Int) - width denominator
  if denominator * Nat.pow 10 guess.toNat ≤ numerator * Nat.pow 10 (-guess).toNat then guess
  else guess - 1

/-- The candidate of least distance on the grid of multiples of `10 ^ k`, if one of the value's two
neighbours there rounds to the value. -/
def onGrid? (b : Binary) (k : Int) : Option Decimal :=
  let (up, down) := b.quarters
  let quarter := up * Nat.pow 10 (-k).toNat
  let step := down * Nat.pow 10 k.toNat
  let value := 4 * b.mantissa * quarter
  let below := value / step
  let inside (d : Nat) : Bool :=
    if b.mantissa % 2 = 0 then
      b.low * quarter ≤ d * step ∧ d * step ≤ b.high * quarter
    else
      b.low * quarter < d * step ∧ d * step < b.high * quarter
  let fromBelow := value - below * step
  let fromAbove := (below + 1) * step - value
  match inside below, inside (below + 1) with
  | false, false => none
  | true, false => some ⟨below, k⟩
  | false, true => some ⟨below + 1, k⟩
  | true, true =>
    if fromBelow < fromAbove ∨ (fromBelow = fromAbove ∧ below % 2 = 0) then
      some ⟨below, k⟩
    else
      some ⟨below + 1, k⟩

/-- The shortest decimal that rounds to a positive value: grids from coarse to fine. -/
def shortest (b : Binary) : Decimal :=
  let (up, down) := b.quarters
  let lead := magnitude (4 * b.mantissa * up) down
  ((List.range 17).findSome? fun (n : Nat) => onGrid? b (lead - n)).getD ⟨b.mantissa, b.exponent⟩

/-- The digits of a decimal without the zeros at its end, most significant first. -/
def significant (d : Decimal) : List Char :=
  ((Nat.toDigits 10 d.digits).reverse.dropWhile (· == '0')).reverse

/-- The text of a positive decimal: positional while its leading digit stands between the fifth
place after the point and the sixteenth before it, always with a place after the point; otherwise
with an exponent that shows its sign. -/
def text (d : Decimal) : List Char :=
  let digits := d.significant
  let lead : Int := d.exponent + width d.digits - 1
  if lead < -5 ∨ 15 < lead then
    let fraction := digits.tail
    digits.take 1 ++ (if fraction.isEmpty then [] else '.' :: fraction) ++
      ['e', if lead < 0 then '-' else '+'] ++ Nat.toDigits 10 lead.natAbs
  else if lead < 0 then
    '0' :: '.' :: List.replicate (-lead - 1).toNat '0' ++ digits
  else
    let whole := lead.toNat + 1
    let fraction := digits.drop whole
    digits.take whole ++ List.replicate (whole - digits.length) '0' ++
      '.' :: (if fraction.isEmpty then ['0'] else fraction)

/-- The shortest text of a finite double. Zero keeps its sign. -/
def ofFloat (x : Float) : List Char :=
  let sign := if x.toBits.toNat / Nat.pow 2 63 = 1 then ['-'] else []
  let b := Binary.ofFloat x
  sign ++ if b.mantissa = 0 then ['0', '.', '0'] else (shortest b).text

end Decimal

end ComponentLowering
