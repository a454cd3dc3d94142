import Mathlib.Data.List.TakeDrop
import ClassDocs.Script.Cursor
import ClassDocs.Proofs.Script.Names

/-! What the scanners of tokens make of a text that has a closing parenthesis or a colon behind it. Neither character
belongs to a name or a numeral, so that a scanner stops in front of it as it stops at the end of a text. -/
namespace ClassDocs.Script

/-- The same token with more text behind it. -/
def Lexeme.before (tail : List Char) (l : Lexeme) : Lexeme := { l with rest := l.rest ++ tail }

theorem spanStops {p : Char → Bool} {d : Char} (outside : p d = false) (s tail : List Char) :
    (s ++ d :: tail).span p = ((s.span p).1, (s.span p).2 ++ d :: tail) := by
  simp only [List.span_eq_takeWhile_dropWhile]
  induction s with
  | nil => simp [outside]
  | cons c s ih =>
    cases hc : p c with
    | true => simpa [hc] using ih
    | false => simp [hc]

section
variable {d : Char} (stop : d = ')' ∨ d = ':') (tail : List Char)
include stop

theorem stopNoDigit : d.isDigit = false := by rcases stop with rfl | rfl <;> rfl

theorem stopNoStart : isNameStart d = false := by rcases stop with rfl | rfl <;> decide +kernel

theorem digitRunStops {isDigit : Char → Bool} (outside : isDigit d = false) (s : List Char) :
    digitRun? isDigit (s ++ d :: tail) = (digitRun? isDigit s).map fun run => (run.1, run.2.1, run.2.2 ++ d :: tail) := by
  have other : (isDigit d || d == '_') = false := by
    rw [outside]
    rcases stop with rfl | rfl <;> rfl
  rw [digitRun?, digitRun?, spanStops other]
  obtain ⟨raw, rest⟩ := s.span fun c => isDigit c || c == '_'
  dsimp only
  split <;> rfl

theorem basedNumeralStops (base exact : Nat) (isDigit : Char → Bool) (outside : isDigit d = false) (mark s : List Char) :
    basedNumeral? base exact isDigit mark (s ++ d :: tail) = (basedNumeral? base exact isDigit mark s).map (·.before (d :: tail)) := by
  rw [basedNumeral?, basedNumeral?, digitRunStops stop tail outside]
  cases digitRun? isDigit s with
  | none => rfl
  | some run =>
    obtain ⟨digits, raw, rest⟩ := run
    rcases rest with _ | ⟨c, rest⟩
    · rcases stop with rfl | rfl <;> rfl
    · by_cases big : c = 'n'
      · subst big
        rfl
      · simp [big, Lexeme.before]

theorem fractionStops (s : List Char) : fractionDigits? (s ++ d :: tail) =
    (fractionDigits? s).map fun run => (run.1, run.2.1, run.2.2 ++ d :: tail) := by
  rcases s with _ | ⟨c, s⟩
  · rcases stop with rfl | rfl <;> rfl
  · by_cases point : c = '.'
    · subst point
      have first : (s ++ d :: tail).head?.any (fun c => c.isDigit || c == '_') = s.head?.any (fun c => c.isDigit || c == '_') := by
        rcases s with _ | ⟨c, s⟩
        · rcases stop with rfl | rfl <;> rfl
        · rfl
      rw [List.cons_append, fractionDigits?, fractionDigits?, first, digitRunStops stop tail (stopNoDigit stop)]
      split
      · cases digitRun? Char.isDigit s <;> rfl
      · rfl
    · simp [fractionDigits?, point]

theorem exponentStops (s : List Char) : exponent? (s ++ d :: tail) =
    (exponent? s).map fun run => (run.1, run.2.1, run.2.2 ++ d :: tail) := by
  have outside := stopNoDigit stop
  rcases s with _ | ⟨c, s⟩
  · rcases stop with rfl | rfl <;> rfl
  · by_cases mark : (c == 'e' || c == 'E') = true
    · rcases s with _ | ⟨sign, s⟩
      · rcases stop with rfl | rfl <;> simp [exponent?, mark, digitRun?, separatorsFit, List.span, List.span.loop]
      · by_cases minus : sign = '-'
        · simp [exponent?, mark, minus, digitRunStops stop tail outside, Function.comp_def]
        · by_cases plus : sign = '+'
          · simp [exponent?, mark, plus, digitRunStops stop tail outside, Function.comp_def]
          · have run := digitRunStops stop tail outside (sign :: s)
            rw [List.cons_append] at run
            simp [exponent?, mark, minus, plus, run, Function.comp_def]
    · simp [exponent?, mark]

theorem decimalTailStops (digits raw s : List Char) :
    decimalTail? digits raw (s ++ d :: tail) = (decimalTail? digits raw s).map (·.before (d :: tail)) := by
  simp only [decimalTail?, fractionStops stop tail]
  rcases fractionDigits? s with _ | ⟨fraction, fractionRaw, rest⟩
  · rfl
  · simp only [Option.map_some, Option.bind_eq_bind, Option.bind_some, exponentStops stop tail]
    rcases exponent? rest with _ | ⟨exponent, exponentRaw, rest⟩ <;> rfl

theorem decimalNumeralStops (s : List Char) :
    decimalNumeral? (s ++ d :: tail) = (decimalNumeral? s).map (·.before (d :: tail)) := by
  have outside := stopNoDigit stop
  by_cases point : s.head? = some '.'
  · obtain ⟨c, rest, rfl⟩ := List.head?_eq_some_iff.mp point
    exact decimalTailStops stop tail [] [] _
  · have behind : (s ++ d :: tail).head? ≠ some '.' := by
      rcases s with _ | ⟨c, s⟩
      · rcases stop with rfl | rfl <;> simp
      · exact point
    rw [decimalNumeral?.eq_2 _ fun rest same => behind (by rw [same]; rfl),
      decimalNumeral?.eq_2 _ fun rest same => point (by rw [same]; rfl), digitRunStops stop tail outside]
    rcases digitRun? Char.isDigit s with _ | ⟨digits, raw, rest⟩
    · rfl
    · rcases rest with _ | ⟨c, rest⟩
      · have none := decimalTailStops stop tail digits raw []
        rcases stop with rfl | rfl <;> simpa using none
      · by_cases big : c = 'n'
        · subst big
          rfl
        · simpa [big] using decimalTailStops stop tail digits raw (c :: rest)

theorem zeroNumeralStops (s : List Char) : zeroNumeral? (s ++ d :: tail) = (zeroNumeral? s).map (·.before (d :: tail)) := by
  have outside := stopNoDigit stop
  rw [zeroNumeral?, zeroNumeral?, spanStops outside]
  generalize s.span Char.isDigit = run
  obtain ⟨digits, rest⟩ := run
  have marks : ((rest ++ d :: tail).head? == some 'n' || (rest ++ d :: tail).head? == some '_') =
      (rest.head? == some 'n' || rest.head? == some '_') := by
    rcases rest with _ | ⟨c, rest⟩
    · rcases stop with rfl | rfl <;> rfl
    · rfl
  simp only [marks, decimalTailStops stop tail]
  split
  · rfl
  · split <;> rfl

theorem anyNumeralStops (s : List Char) : anyNumeral? (s ++ d :: tail) = (anyNumeral? s).map (·.before (d :: tail)) := by
  by_cases zero : ∃ c rest, s = '0' :: c :: rest
  · obtain ⟨c, rest, rfl⟩ := zero
    have noHex : (Number.hexDigit? d).isSome = false := by rcases stop with rfl | rfl <;> rfl
    have noOctal : isOctalDigit d = false := by rcases stop with rfl | rfl <;> rfl
    have noBinary : (d == '0' || d == '1') = false := by rcases stop with rfl | rfl <;> rfl
    have hex := basedNumeralStops stop tail 16 16 (fun c => (Number.hexDigit? c).isSome) noHex ['0', c] rest
    have octal := basedNumeralStops stop tail 8 21 isOctalDigit noOctal ['0', c] rest
    have binary := basedNumeralStops stop tail 2 64 (fun c => c == '0' || c == '1') noBinary ['0', c] rest
    have zeros := zeroNumeralStops stop tail ('0' :: c :: rest)
    have decimal := decimalNumeralStops stop tail ('0' :: c :: rest)
    simp only [List.cons_append] at zeros decimal
    simp only [List.cons_append, anyNumeral?, hex, octal, binary, zeros, decimal]
    repeat (first | split | rfl)
  · rw [anyNumeral?.eq_2 s fun c rest same => zero ⟨c, rest, same⟩, ← decimalNumeralStops stop tail]
    rcases s with _ | ⟨c, _ | ⟨c', s⟩⟩
    · rcases stop with rfl | rfl <;> rfl
    · by_cases first : c = '0'
      · subst first
        rcases stop with rfl | rfl <;> rfl
      · rw [List.singleton_append, anyNumeral?.eq_2 _ fun c' rest same => first (List.cons.inj same).1]
    · rw [anyNumeral?.eq_2 _ fun c'' rest same => zero ⟨c', s, by rw [(List.cons.inj same).1]⟩]

theorem numeralStops (s : List Char) : numeral? (s ++ d :: tail) = (numeral? s).map (·.before (d :: tail)) := by
  rw [numeral?, numeral?, anyNumeralStops stop tail]
  rcases anyNumeral? s with _ | ⟨token, raw, rest⟩
  · rfl
  · have clear : (rest ++ d :: tail).head?.any (fun c => isNameStart c || c.isDigit) =
        rest.head?.any (fun c => isNameStart c || c.isDigit) := by
      rcases rest with _ | ⟨c, rest⟩
      · simp [stopNoStart stop, stopNoDigit stop]
      · rfl
    simp only [Option.map_some, Option.bind_eq_bind, Option.bind_some, Lexeme.before, clear]
    split <;> rfl

end
end ClassDocs.Script
