/-! Numbers from their digits. -/
namespace ClassDocs.Number

/-- The double nearest to `digits * 10 ^ exponent`. Values beyond the largest double are infinite
and values far below the smallest are zero, without the power being formed. -/
def ofDecimal (digits : Nat) (exponent : Int) : Float :=
  let magnitude := (Nat.toDigits 10 digits).length + exponent
  if digits = 0 || magnitude < -330 then 0.0
  else if 310 < magnitude then 1.0 / 0.0
  else Float.ofScientific digits (exponent < 0) exponent.natAbs

def digit? (c : Char) : Option Nat := if c.isDigit then some (c.toNat - '0'.toNat) else none

def hexDigit? (c : Char) : Option Nat :=
  if c.isDigit then some (c.toNat - '0'.toNat)
  else if 'a' ≤ c && c ≤ 'f' then some (c.toNat - 'a'.toNat + 10)
  else if 'A' ≤ c && c ≤ 'F' then some (c.toNat - 'A'.toNat + 10)
  else none

/-- The number written by digits in a base up to sixteen. Other characters count as nothing. -/
def ofDigits (base : Nat) (digits : List Char) : Nat :=
  digits.foldl (fun n c => match hexDigit? c with | some d => n * base + d | none => n) 0

end ClassDocs.Number
