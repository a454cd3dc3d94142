import ClassDocs.Number.Shortest

/-! How numbers are written: always positionally, never with an exponent. -/
namespace ClassDocs.Number

def Decimal.positional (d : Decimal) : String :=
  let digits := Nat.toDigits 10 d.digits
  let shift := (-d.exponent).toNat
  if shift = 0 then String.ofList (digits ++ List.replicate d.exponent.toNat '0')
  else
    let padded := List.replicate (shift + 1 - digits.length) '0' ++ digits
    let whole := padded.length - shift
    String.ofList (padded.take whole ++ '.' :: padded.drop whole)

/-- The fewest digits that read back, with a sign for negative zero too; infinity is `inf`. -/
def display (x : Float) : String :=
  if x.isNaN then "NaN"
  else
    let sign := if x.toBits.toNat < Nat.pow 2 63 then "" else "-"
    if x.isInf then sign ++ "inf"
    else
      let b := Binary.ofFloat x
      sign ++ (if b.mantissa = 0 then "0" else b.shortest.positional)

/-- A number as it stands in documentation: no sign on zero, whole numbers below `10 ^ 21` with
all their digits, other numbers with the fewest digits that read back. -/
def text (x : Float) : String :=
  if x.isNaN then "NaN"
  else if x.isInf then (if x.toBits.toNat < Nat.pow 2 63 then "Infinity" else "-Infinity")
  else
    let b := Binary.ofFloat x
    if b.mantissa = 0 then "0"
    else
      match b.whole? with
      | some n =>
        if n < Nat.pow 10 21 then (if x.toBits.toNat < Nat.pow 2 63 then "" else "-") ++ toString n else display x
      | none => display x

theorem textZero : text 0.0 = "0" ∧ text (-0.0) = "0" := by decide +kernel

end ClassDocs.Number
