import Mathlib.Data.List.TakeDrop
import ClassDocs.Script.Cursor

/-! What a scanner took and what it left make up its text, and every token but the last takes something. -/
namespace ClassDocs.Script

theorem fourDigitsText {s : List Char} {n : Nat} {taken rest : List Char} (h : fourDigits? s = some (n, taken, rest)) : taken ++ rest = s := by
  rcases s with _ | ⟨a, _ | ⟨b, _ | ⟨c, _ | ⟨d, s⟩⟩⟩⟩
  case cons.cons.cons.cons =>
    simp only [fourDigits?, Option.ite_none_right_eq_some, Option.some.injEq, Prod.mk.injEq] at h
    obtain ⟨-, -, rfl, rfl⟩ := h
    rfl
  all_goals simp [fourDigits?] at h

theorem spanText {p : Char → Bool} {s taken rest : List Char} (h : s.span p = (taken, rest)) : taken ++ rest = s := by
  rw [List.span_eq_takeWhile_dropWhile, Prod.mk.injEq] at h
  rw [← h.1, ← h.2]
  exact List.takeWhile_append_dropWhile

theorem codePointText {s : List Char} {n : Nat} {taken rest : List Char} (h : codePoint? s = some (n, taken, rest)) : taken ++ rest = s := by
  unfold codePoint? at h
  split at h
  · rename_i s
    obtain ⟨digits, after, run⟩ : ∃ digits after, s.span (fun c => (Number.hexDigit? c).isSome) = (digits, after) := ⟨_, _, rfl⟩
    rw [run] at h
    dsimp only at h
    split at h
    · simp only [Option.ite_none_left_eq_some, Option.some.injEq, Prod.mk.injEq] at h
      obtain ⟨-, -, rfl, rfl⟩ := h
      simp [← spanText run]
    · contradiction
  · exact fourDigitsText h

/- What was read before stays in front. -/
theorem nameCharsText {fits : Char → Bool} {fuel : Nat} {text raw s text' raw' rest : List Char}
    (h : nameChars fits fuel text raw s = some (text', raw', rest)) :
    raw'.reverse ++ rest = raw.reverse ++ s ∧ text'.length + raw.length ≤ raw'.length + text.length := by
  fun_induction nameChars fits fuel text raw s with
  | case2 fits fuel text raw s ih =>
    simp only [Option.bind_eq_bind, Option.bind_eq_some_iff] at h
    obtain ⟨⟨n, taken, after⟩, point, h⟩ := h
    simp only [Option.ite_none_right_eq_some] at h
    obtain ⟨kept, longer⟩ := ih n taken after h.2
    refine ⟨by simp [kept, ← codePointText point], ?_⟩
    simp at longer
    omega
  | case3 => contradiction
  | case4 fits fuel text raw c s plain part ih =>
    obtain ⟨kept, longer⟩ := ih h
    refine ⟨by simp [kept], ?_⟩
    simp at longer
    omega
  | case1 | case5 | case6 =>
    simp only [Option.some.injEq, Prod.mk.injEq] at h
    obtain ⟨rfl, rfl, rfl⟩ := h
    exact ⟨rfl, Nat.le_of_eq (Nat.add_comm _ _)⟩

/-- The token stands in front of its text: what it took, which is something, and what it left make up the text. -/
structure Lexeme.Heads (l : Lexeme) (s : List Char) : Prop where
  text : l.raw ++ l.rest = s
  takes : l.raw ≠ []
  more : l.token ≠ .finish

theorem nameText {limit : Nat} {s : List Char} {name : String} {raw rest : List Char} (h : name? limit s = some (name, raw, rest)) :
    raw ++ rest = s ∧ raw ≠ [] := by
  simp only [name?, Option.bind_eq_bind, Option.bind_eq_some_iff] at h
  obtain ⟨⟨text', raw', rest'⟩, chars, h⟩ := h
  simp only [Option.ite_none_left_eq_some, Option.some.injEq, Prod.mk.injEq] at h
  obtain ⟨some, -, rfl, rfl⟩ := h
  obtain ⟨kept, longer⟩ := nameCharsText chars
  refine ⟨kept, fun none => some ?_⟩
  rw [List.reverse_eq_nil_iff.mp none] at longer
  exact List.isEmpty_iff.mpr (List.length_eq_zero_iff.mp (by simpa using longer))

theorem pointEscapeText {s : List Char} {n : Nat} {taken rest : List Char} (h : pointEscape? s = some (n, taken, rest)) : taken ++ rest = s := by
  simp only [pointEscape?, Option.bind_eq_bind, Option.bind_eq_some_iff] at h
  obtain ⟨⟨n', taken', rest'⟩, point, h⟩ := h
  have kept := codePointText point
  dsimp only at h
  split at h
  · rename_i low
    split at h
    · rename_i m takenLow after digits
      split at h
      · simp only [Option.some.injEq, Prod.mk.injEq] at h
        obtain ⟨-, rfl, rfl⟩ := h
        simp [← kept, ← fourDigitsText digits]
      · cases h
        exact kept
    · cases h
      exact kept
  · cases h
    exact kept

theorem escapeText {inString : Bool} {s : List Char} {ns : List Nat} {taken rest : List Char} (h : escape? inString s = some (ns, taken, rest)) :
    taken ++ rest = s := by
  rcases s with _ | ⟨c, s⟩
  · contradiction
  · simp only [escape?] at h
    split at h
    case h_7 =>
      split at h <;> cases h <;> rfl
    case h_8 =>
      split at h
      · simp only [Option.ite_none_right_eq_some, Option.some.injEq, Prod.mk.injEq] at h
        obtain ⟨-, -, rfl, rfl⟩ := h
        rfl
      · contradiction
    case h_9 =>
      simp only [Option.map_eq_some_iff, Prod.mk.injEq] at h
      obtain ⟨⟨n, taken', rest'⟩, point, -, rfl, rfl⟩ := h
      simp [pointEscapeText point]
    case h_10 =>
      -- the first digit decides whether up to two or up to three belong to the escape
      have octal : (octalEscape (c :: s)).2.1 ++ (octalEscape (c :: s)).2.2 = c :: s := by
        have digits := (List.takeWhile_prefix (fun c => decide ('0' ≤ c) && decide (c ≤ '7'))).trans (List.take_prefix
          (if (c :: s).head?.any (fun c => c ≤ '3') then 3 else 2) (c :: s))
        exact List.prefix_iff_eq_append.mp digits
      repeat' split at h
      all_goals first
        | contradiction
        | cases h; rfl
        | cases h; exact octal
    all_goals
      cases h
      rfl

theorem stringBodyHeads {quote : Char} {fuel : Nat} {points : List Nat} {raw s : List Char} {l : Lexeme}
    (h : stringBody? quote fuel points raw s = some l) : l.Heads (raw.reverse ++ s) := by
  fun_induction stringBody? quote fuel points raw s with
  | case1 | case2 => contradiction
  | case3 fuel points raw s ih =>
    simp only [Option.bind_eq_bind, Option.bind_eq_some_iff] at h
    obtain ⟨⟨ns, taken, rest⟩, escape, h⟩ := h
    have heads := ih ns taken rest h
    exact ⟨by simp [heads.text, ← escapeText escape], heads.takes, heads.more⟩
  | case4 fuel points raw c s plain closes =>
    cases h
    exact ⟨by simp, by simp, by simp⟩
  | case5 => contradiction
  | case6 fuel points raw c s plain other noBreak ih =>
    have heads := ih h
    exact ⟨by simp [heads.text], heads.takes, heads.more⟩

theorem templateBodyHeads {fuel : Nat} {points : Option (List Nat)} {raw s : List Char} {l : Lexeme}
    (h : templateBody? fuel points raw s = some l) : l.Heads (raw.reverse ++ s) := by
  fun_induction templateBody? fuel points raw s with
  | case1 | case2 => contradiction
  | case3 | case4 =>
    cases h
    exact ⟨by simp, by simp, by simp⟩
  | case5 fuel points raw s ns taken rest escape ih =>
    have heads := ih h
    exact ⟨by simp [heads.text, ← escapeText escape], heads.takes, heads.more⟩
  | case6 fuel points raw s none ih =>
    have heads := ih h
    exact ⟨by simp [heads.text], heads.takes, heads.more⟩
  | case7 fuel points raw s ih =>
    have heads := ih h
    exact ⟨by simp [heads.text], heads.takes, heads.more⟩
  | case8 fuel points raw c s =>
    rename_i ih
    have heads := ih h
    exact ⟨by simp [heads.text], heads.takes, heads.more⟩

theorem patternBodyText {inClass : Bool} {raw s pattern rest : List Char} (h : patternBody? inClass raw s = some (pattern, rest)) :
    pattern ++ '/' :: rest = raw.reverse ++ s := by
  fun_induction patternBody? inClass raw s with
  | case1 => contradiction
  | case2 => contradiction
  | case3 inClass raw c s plain ih => simp [ih h]
  | case4 => contradiction
  | case5 inClass raw c s plain other closes =>
    cases h
    simp at closes
    simp [closes]
  | case6 inClass raw c s plain other closes ih => simp [ih h]

theorem regexHeads {s : List Char} {l : Lexeme} (h : regex? s = some l) : l.Heads ('/' :: s) := by
  simp only [regex?, Option.bind_eq_bind, Option.bind_eq_some_iff] at h
  obtain ⟨⟨pattern, after⟩, body, h⟩ := h
  obtain ⟨flags, rest, run⟩ : ∃ flags rest, after.span isNamePart = (flags, rest) := ⟨_, _, rfl⟩
  simp only [run, Option.ite_none_right_eq_some, Option.some.injEq] at h
  obtain ⟨-, rfl⟩ := h
  exact ⟨by simpa [spanText run] using patternBodyText body, by simp, by simp⟩

theorem digitRunText {isDigit : Char → Bool} {s digits raw rest : List Char} (h : digitRun? isDigit s = some (digits, raw, rest)) :
    raw ++ rest = s ∧ raw ≠ [] := by
  obtain ⟨raw', rest', run⟩ : ∃ raw rest, s.span (fun c => isDigit c || c == '_') = (raw, rest) := ⟨_, _, rfl⟩
  simp only [digitRun?, run, Option.ite_none_right_eq_some, Option.some.injEq, Prod.mk.injEq] at h
  obtain ⟨fit, -, rfl, rfl⟩ := h
  refine ⟨spanText run, ?_⟩
  rintro rfl
  contradiction

theorem basedNumeralHeads {base exact : Nat} {isDigit : Char → Bool} {mark s : List Char} {l : Lexeme}
    (h : basedNumeral? base exact isDigit mark s = some l) : l.Heads (mark ++ s) := by
  simp only [basedNumeral?, Option.bind_eq_bind, Option.bind_eq_some_iff] at h
  obtain ⟨⟨digits, raw, rest⟩, run, h⟩ := h
  obtain ⟨text, some⟩ := digitRunText run
  dsimp only at h
  split at h <;> cases h <;> exact ⟨by simp [← text], by simp [some], by simp⟩

theorem fractionText {s digits raw rest : List Char} (h : fractionDigits? s = some (digits, raw, rest)) :
    raw ++ rest = s ∧ (s.head? = some '.' → raw ≠ []) := by
  unfold fractionDigits? at h
  split at h
  · split at h
    · simp only [Option.map_eq_some_iff, Prod.mk.injEq] at h
      obtain ⟨⟨digits', raw', rest'⟩, run, -, rfl, rfl⟩ := h
      exact ⟨by simp [(digitRunText run).1], by simp⟩
    · cases h
      exact ⟨rfl, by simp⟩
  · rename_i s other
    cases h
    refine ⟨rfl, fun point => ?_⟩
    obtain ⟨rest, rfl⟩ := List.head?_eq_some_iff.mp point
    exact absurd rfl (other rest)

theorem exponentText {s raw rest : List Char} {n : Int} (h : exponent? s = some (n, raw, rest)) : raw ++ rest = s := by
  unfold exponent? at h
  split at h
  · rename_i c s
    split at h
    · dsimp only at h
      split at h <;>
      · simp only [Option.map_eq_some_iff, Prod.mk.injEq] at h
        obtain ⟨⟨digits, raw', rest'⟩, run, -, rfl, rfl⟩ := h
        simp [(digitRunText run).1]
    · cases h
      rfl
  · cases h
    rfl

theorem decimalTailHeads {digits raw s : List Char} {l : Lexeme} (h : decimalTail? digits raw s = some l)
    (takes : raw ≠ [] ∨ s.head? = some '.') : l.Heads (raw ++ s) := by
  simp only [decimalTail?, Option.bind_eq_bind, Option.bind_eq_some_iff] at h
  obtain ⟨⟨fraction, fractionRaw, rest⟩, point, ⟨exponent, exponentRaw, rest'⟩, power, h⟩ := h
  cases h
  obtain ⟨text, some⟩ := fractionText point
  have exponentText := exponentText power
  refine ⟨by simpa [← text] using exponentText, ?_, by simp⟩
  rcases takes with read | here
  · simp [read]
  · simp [some here]

theorem decimalNumeralHeads {s : List Char} {l : Lexeme} (h : decimalNumeral? s = some l) : l.Heads s := by
  unfold decimalNumeral? at h
  split at h
  · exact decimalTailHeads h (.inr rfl)
  · simp only [Option.bind_eq_bind, Option.bind_eq_some_iff] at h
    obtain ⟨⟨digits, raw, rest⟩, run, h⟩ := h
    obtain ⟨text, some⟩ := digitRunText run
    dsimp only at h
    split at h
    · cases h
      exact ⟨by simp [← text], by simp, by simp⟩
    · exact text ▸ decimalTailHeads h (.inl some)

theorem anyNumeralHeads {s : List Char} {l : Lexeme} (h : anyNumeral? s = some l) : l.Heads s := by
  unfold anyNumeral? at h
  split at h
  · rename_i c rest
    split at h
    · exact basedNumeralHeads h
    split at h
    · exact basedNumeralHeads h
    split at h
    · exact basedNumeralHeads h
    split at h
    · contradiction
    split at h
    · obtain ⟨digits, after, run⟩ : ∃ digits after, ('0' :: c :: rest).span Char.isDigit = (digits, after) := ⟨_, _, rfl⟩
      have some : digits ≠ [] := by
        rw [List.span_eq_takeWhile_dropWhile, Prod.mk.injEq] at run
        simp [← run.1]
      simp only [zeroNumeral?, run] at h
      split at h
      · cases h
        exact ⟨spanText run, some, by simp⟩
      · split at h
        · contradiction
        · exact spanText run ▸ decimalTailHeads h (.inl some)
    · exact decimalNumeralHeads h
  · exact decimalNumeralHeads h

theorem punctuatorHeads {s : List Char} {l : Lexeme} (h : punctuator? s = some l) : l.Heads s := by
  have text := punctuatorKeepsText h
  simp only [punctuator?, Option.map_eq_some_iff] at h
  obtain ⟨⟨mark, name⟩, found, rfl⟩ := h
  have some : ∀ entry ∈ punctuators, entry.1 ≠ [] := by decide +kernel
  exact ⟨text, some _ (List.mem_of_find?_eq_some found), by simp⟩

theorem numeralHeads {s : List Char} {l : Lexeme} (h : numeral? s = some l) : l.Heads s := by
  simp only [numeral?, Option.bind_eq_bind, Option.bind_eq_some_iff] at h
  obtain ⟨l', any, h⟩ := h
  split at h
  · contradiction
  · cases h
    exact anyNumeralHeads any

theorem lexemeHeads {limit offset : Nat} {s : List Char} {l : Lexeme} (h : lexeme limit offset s = .ok l) :
    s = [] ∧ l = ⟨.finish, [], []⟩ ∨ l.Heads s := by
  rcases s with _ | ⟨c, s⟩
  · cases h
    exact .inl ⟨rfl, rfl⟩
  · refine .inr ?_
    unfold lexeme at h
    dsimp only at h
    split at h
    · split at h <;> cases h
      exact stringBodyHeads ‹_›
    split at h
    · split at h <;> cases h
      exact templateBodyHeads ‹_›
    split at h
    · split at h <;> cases h
      exact numeralHeads ‹_›
    split at h
    · rename_i hash
      split at h <;> cases h
      obtain ⟨⟨text, raw, rest⟩, name, rfl⟩ := Option.map_eq_some_iff.mp ‹_›
      exact ⟨by simp [(nameText name).1, eq_of_beq hash], by simp, by simp⟩
    split at h
    · split at h <;> cases h
      obtain ⟨⟨text, raw, rest⟩, name, rfl⟩ := Option.map_eq_some_iff.mp ‹_›
      obtain ⟨kept, takes⟩ := nameText name
      exact ⟨kept, takes, by simp⟩
    · split at h <;> cases h
      exact punctuatorHeads ‹_›

theorem blockCommentText {content s inside rest : List Char} (h : blockComment? content s = some (inside, rest)) :
    inside ++ '*' :: '/' :: rest = content.reverse ++ s := by
  fun_induction blockComment? content s with
  | case1 =>
    cases h
    rfl
  | case2 content c s other ih => simp [ih h]
  | case3 => contradiction

end ClassDocs.Script
