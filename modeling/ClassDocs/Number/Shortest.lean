/-! The fewest decimal digits that read back as a given binary number. The value is `m * 2 ^ q`;
all comparisons are exact, in natural numbers. -/
namespace ClassDocs.Number

/-- A positive finite double: `mantissa * 2 ^ exponent`. `tight` marks the smallest mantissa of
a binade, whose lower neighbour is only half as far away as the upper one. -/
structure Binary where
  mantissa : Nat
  exponent : Int
  tight : Bool
  deriving DecidableEq, Repr

def Binary.ofFloat (x : Float) : Binary :=
  let bits : Nat := x.toBits.toNat
  let fraction : Nat := bits % Nat.pow 2 52
  let field : Nat := bits / Nat.pow 2 52 % Nat.pow 2 11
  if field = 0 then ⟨fraction, -1074, false⟩
  else ⟨Nat.pow 2 52 + fraction, (field : Int) - 1075, fraction = 0 && decide (1 < field)⟩

structure Decimal where
  digits : Nat
  exponent : Int
  deriving DecidableEq, Repr

def Decimal.stripZeros (fuel : Nat) (d : Decimal) : Decimal :=
  match fuel with
  | 0 => d
  | fuel + 1 =>
    if d.digits % 10 = 0 ∧ d.digits ≠ 0 then stripZeros fuel ⟨d.digits / 10, d.exponent + 1⟩ else d

namespace Binary

/-- Four times the value as a fraction with a power of two below: numerator and denominator. -/
def quadruple (b : Binary) : Nat × Nat :=
  (4 * b.mantissa * Nat.pow 2 b.exponent.toNat, Nat.pow 2 (-b.exponent).toNat)

/-- Ends of the interval that rounds to the value, on the scale of `quadruple`. -/
def lowEnd (b : Binary) : Nat := (4 * b.mantissa - (if b.tight then 1 else 2)) * Nat.pow 2 b.exponent.toNat

def highEnd (b : Binary) : Nat := (4 * b.mantissa + 2) * Nat.pow 2 b.exponent.toNat

def zerosBelow (num den : Nat) : Nat → Nat
  | 0 => 0
  | fuel + 1 => if den ≤ num * 10 then 0 else zerosBelow (num * 10) den fuel + 1

/-- The place `p` with `10 ^ (p - 1) ≤ value < 10 ^ p`. -/
def place (b : Binary) : Int :=
  let (num, den) := b.quadruple
  let den := 4 * den
  if den ≤ num then ((Nat.toDigits 10 (num / den)).length : Int)
  else -(zerosBelow num den 400 : Int)

/-- The neighbour of the value on the grid of multiples of `10 ^ k` that lies in the interval;
of two such the nearer, and the upper one when they are equally near. The ends of the interval
count when the mantissa is even. -/
def onGrid (b : Binary) (k : Int) : Option Decimal :=
  let up := Nat.pow 10 k.toNat
  let down := Nat.pow 10 (-k).toNat
  let (num, den) := b.quadruple
  let unit := 4 * den * up
  let value := num * down
  let d := value / unit
  let within (x y : Nat) : Bool := if b.mantissa % 2 = 0 then x ≤ y else x < y
  let lower := d ≠ 0 && within (b.lowEnd * down) (d * unit)
  let upper := within ((d + 1) * unit) (b.highEnd * down)
  let high := unit ≤ 2 * (value % unit)
  match lower, upper with
  | true, true => some ⟨if high then d + 1 else d, k⟩
  | true, false => some ⟨d, k⟩
  | false, true => some ⟨d + 1, k⟩
  | false, false => none

/-- Grids of one digit, two digits and so on, up to the seventeen that always suffice. -/
def shortest (b : Binary) : Decimal :=
  let p := b.place
  match (List.range 17).findSome? fun n => b.onGrid (p - (n + 1 : Nat)) with
  | some d => d.stripZeros 400
  | none => ⟨b.mantissa, b.exponent⟩

def whole? (b : Binary) : Option Nat :=
  let den := Nat.pow 2 (-b.exponent).toNat
  if b.mantissa % den = 0 then some (b.mantissa / den * Nat.pow 2 b.exponent.toNat) else none

end Binary
end ClassDocs.Number
