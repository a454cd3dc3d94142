import Mathlib.Data.List.Find
import ClassDocs.Proofs.Script.Scanning
import ClassDocs.Proofs.Script.Tokens

/-! A text with a closing parenthesis and a semicolon behind it. Neither of the two ends a string, a template, a pattern or a comment,
so that whatever is open at the end of the text stays open, and every other token is the same. -/
namespace ClassDocs.Script

/-- What stands behind the text. -/
def ending : List Char := [')', ';']

/-- What a scanner took and read, with the ending behind the rest. -/
def withEnding {α β : Type} (run : α × β × List Char) : α × β × List Char := (run.1, run.2.1, run.2.2 ++ ending)

theorem fourDigitsEnding (s : List Char) : fourDigits? (s ++ ending) = (fourDigits? s).map withEnding := by
  have outside : Number.hexDigit? ')' = none := by decide
  rcases s with _ | ⟨a, _ | ⟨b, _ | ⟨c, _ | ⟨d, s⟩⟩⟩⟩
  case cons.cons.cons.cons =>
    simp only [List.cons_append, fourDigits?]
    split <;> rfl
  all_goals simp [fourDigits?, ending, outside]

theorem spanEnding {p : Char → Bool} (outside : p ')' = false) (s : List Char) :
    (s ++ ending).span p = ((s.span p).1, (s.span p).2 ++ ending) := spanStops outside s [';']

theorem codePointEnding (s : List Char) : codePoint? (s ++ ending) = (codePoint? s).map withEnding := by
  rcases s with _ | ⟨c, s⟩
  · rfl
  · by_cases brace : c = '\x7b'
    · subst brace
      have run := spanEnding (p := fun c => (Number.hexDigit? c).isSome) (by decide) s
      simp only [List.cons_append, codePoint?, run]
      generalize s.span (fun c => (Number.hexDigit? c).isSome) = run
      obtain ⟨digits, rest⟩ := run
      rcases rest with _ | ⟨c, rest⟩
      · rfl
      · by_cases closes : c = '\x7d'
        · subst closes
          simp only [List.cons_append]
          cases digits.isEmpty || decide (0x10FFFF < Number.ofDigits 16 digits) <;> rfl
        · simp [closes]
    · rw [codePoint?.eq_2 _ fun t same => brace (List.cons.inj same).1]
      rw [List.cons_append, codePoint?.eq_2 _ fun t same => brace (List.cons.inj same).1]
      exact fourDigitsEnding (c :: s)

theorem nameCharsEnding {fits : Char → Bool} (outside : fits ')' = false) (fuel : Nat) (text raw s : List Char) :
    nameChars fits fuel text raw (s ++ ending) = (nameChars fits fuel text raw s).map withEnding := by
  have noPart : isNamePart ')' = false := by decide +kernel
  fun_induction nameChars fits fuel text raw s with
  | case1 => simp [nameChars, withEnding]
  | case2 fits fuel text raw s ih =>
    rw [List.cons_append, List.cons_append, nameChars, codePointEnding]
    rcases codePoint? s with _ | ⟨n, taken, rest⟩
    · rfl
    · simp only [Option.map_some, Option.bind_eq_bind, Option.bind_some, withEnding]
      split
      · exact ih n taken rest noPart
      · rfl
  | case3 fits fuel text raw s other =>
    rcases s with _ | ⟨c, s⟩
    · rfl
    · have plain : c ≠ 'u' := fun same => other s (by rw [same])
      simp [nameChars, plain]
  | case4 fits fuel text raw c s plain part ih => simpa [nameChars, part] using ih noPart
  | case5 fits fuel text raw c s plain part => simp [nameChars, part, withEnding]
  | case6 => simp [nameChars, ending, outside, withEnding]

theorem nameEnding (limit : Nat) (s : List Char) : name? limit (s ++ ending) = (name? limit s).map withEnding := by
  have noStart : isNameStart ')' = false := by decide +kernel
  rw [name?, name?, nameCharsEnding noStart]
  rcases nameChars isNameStart limit [] [] s with _ | ⟨text, raw, rest⟩
  · rfl
  · simp only [Option.map_some, Option.bind_eq_bind, Option.bind_some, withEnding]
    split <;> rfl

theorem pointEscapeEnding (s : List Char) : pointEscape? (s ++ ending) = (pointEscape? s).map withEnding := by
  rw [pointEscape?, pointEscape?, codePointEnding]
  rcases codePoint? s with _ | ⟨n, taken, rest⟩
  · rfl
  · simp only [Option.map_some, Option.bind_eq_bind, Option.bind_some, withEnding]
    by_cases escaped : ∃ low, rest = '\\' :: 'u' :: low
    · obtain ⟨low, rfl⟩ := escaped
      simp only [List.cons_append, fourDigitsEnding]
      rcases fourDigits? low with _ | ⟨m, takenLow, after⟩
      · rfl
      · simp only [Option.map_some, withEnding]
        split <;> rfl
    · have escaped' : ∀ low, rest ++ ending ≠ '\\' :: 'u' :: low := by
        intro low same
        rcases rest with _ | ⟨c, _ | ⟨d, rest⟩⟩
        · cases same
        · cases same
        · cases same
          exact escaped ⟨rest, rfl⟩
      split
      · rename_i low same
        exact absurd same (escaped' low)
      · split
        · rename_i low _
          exact absurd ⟨low, rfl⟩ escaped
        · rfl

theorem takeWhileEnding {p : Char → Bool} (outside : p ')' = false) (n : Nat) (s : List Char) :
    ((s ++ ending).take n).takeWhile p = (s.take n).takeWhile p := by
  induction s generalizing n with
  | nil => rcases n with _ | _ | _ | n <;> simp [ending, outside]
  | cons c s ih =>
    rcases n with _ | n
    · rfl
    · simp only [List.cons_append, List.take_succ_cons, List.takeWhile_cons, ih]

theorem octalEnding (c : Char) (s : List Char) : octalEscape (c :: s ++ ending) = withEnding (octalEscape (c :: s)) := by
  have outside : (decide ('0' ≤ ')') && decide (')' ≤ '7')) = false := by decide
  have digits := takeWhileEnding (p := fun c => decide ('0' ≤ c) && decide (c ≤ '7')) outside
    (if (c :: s).head?.any (fun c => c ≤ '3') then 3 else 2) (c :: s)
  have within : ((c :: s).take (if (c :: s).head?.any (fun c => c ≤ '3') then 3 else 2)).takeWhile
      (fun c => decide ('0' ≤ c) && decide (c ≤ '7')) <+: c :: s := (List.takeWhile_prefix _).trans (List.take_prefix _ _)
  simp only [octalEscape, withEnding]
  rw [show (c :: s ++ ending).head? = (c :: s).head? from rfl, digits, List.drop_append_of_le_length within.length_le]

/-- An escape is the same with the ending behind it. Only a backslash that ends the text has something to escape then. -/
theorem escapeEnding (inString : Bool) (c : Char) (s : List Char) :
    escape? inString (c :: (s ++ ending)) = (escape? inString (c :: s)).map withEnding := by
  have octal := octalEnding c s
  rw [List.cons_append] at octal
  have zero : (s ++ ending).head?.any Char.isDigit = s.head?.any Char.isDigit := by
    rcases s with _ | ⟨d, s⟩ <;> rfl
  simp only [escape?, pointEscapeEnding, octal, zero]
  split
  case h_7 =>
    rcases s with _ | ⟨d, s⟩
    · rfl
    · by_cases feed : d = '\n'
      · subst feed
        rfl
      · simp [feed, withEnding]
  case h_8 =>
    rcases s with _ | ⟨a, _ | ⟨b, s⟩⟩
    · rfl
    · have outside : Number.hexDigit? ')' = none := by decide
      simp [ending, outside]
    · simp only [List.cons_append]
      split <;> rfl
  case h_9 => cases pointEscape? s <;> rfl
  case h_10 =>
    repeat' split
    all_goals rfl
  all_goals rfl

section Unclosed

/-- Nothing in the text closes or escapes. -/
theorem stringUnclosed {quote : Char} {s : List Char} (noQuote : quote ∉ s) (plain : '\\' ∉ s) (fuel : Nat) (points : List Nat)
    (raw : List Char) : stringBody? quote fuel points raw s = none := by
  fun_induction stringBody? quote fuel points raw s with
  | case1 | case2 | case5 => rfl
  | case3 => simp at plain
  | case4 fuel points raw c s _ closes => simp [eq_of_beq closes] at noQuote
  | case6 fuel points raw c s _ _ _ ih =>
    simp only [List.mem_cons, not_or] at noQuote plain
    exact ih noQuote.2 plain.2

theorem templateUnclosed {s : List Char} (noQuote : '\x60' ∉ s) (noMark : '$' ∉ s) (plain : '\\' ∉ s) (fuel : Nat)
    (points : Option (List Nat)) (raw : List Char) : templateBody? fuel points raw s = none := by
  fun_induction templateBody? fuel points raw s with
  | case1 | case2 => rfl
  | case3 => simp at noQuote
  | case4 => simp at noMark
  | case5 | case6 => simp at plain
  | case7 fuel points raw s ih =>
    simp only [List.mem_cons, not_or] at noQuote noMark plain
    exact ih noQuote.2.2 noMark.2.2 plain.2.2
  | case8 fuel points raw c s =>
    rename_i ih
    simp only [List.mem_cons, not_or] at noQuote noMark plain
    exact ih noQuote.2 noMark.2 plain.2

end Unclosed

theorem stringEnding {quote : Char} (noQuote : quote ∉ ending) (fuel : Nat) (points : List Nat) (raw s : List Char) :
    stringBody? quote fuel points raw (s ++ ending) = (stringBody? quote fuel points raw s).map (·.before ending) := by
  fun_induction stringBody? quote fuel points raw s with
  | case1 => simp [stringBody?]
  | case2 => exact stringUnclosed noQuote (by decide) _ _ _
  | case3 fuel points raw s ih =>
    rcases s with _ | ⟨c, s⟩
    · have other : quote ∉ [';'] := fun here => noQuote (by simp_all [ending])
      exact stringUnclosed other (by decide) _ _ _
    · rw [List.cons_append, List.cons_append, stringBody?, escapeEnding]
      cases escape? true (c :: s) with
      | none => rfl
      | some run => exact ih run.1 run.2.1 run.2.2
  | case4 fuel points raw c s plain closes => simp [stringBody?, closes, Lexeme.before]
  | case5 fuel points raw c s plain other feed => simp [stringBody?, other, feed]
  | case6 fuel points raw c s plain other noBreak ih => simp [stringBody?, other, noBreak, ih]

/- What stands at the beginning stands there without the ending too. -/
theorem headEnding {d : Char} {s t : List Char} (other : d ≠ ')') (h : s ++ ending = d :: t) : ∃ t', s = d :: t' := by
  rcases s with _ | ⟨c, s⟩
  · exact absurd (List.cons.inj h).1.symm other
  · exact ⟨s, by rw [(List.cons.inj h).1]⟩

theorem absentEnding {d : Char} {s : List Char} (other : d ≠ ')') (absent : ∀ t, s ≠ d :: t) (t : List Char) : s ++ ending ≠ d :: t := by
  intro same
  obtain ⟨t', rfl⟩ := headEnding other same
  exact absent t' rfl

theorem templateEnding (fuel : Nat) (points : Option (List Nat)) (raw s : List Char) :
    templateBody? fuel points raw (s ++ ending) = (templateBody? fuel points raw s).map (·.before ending) := by
  fun_induction templateBody? fuel points raw s with
  | case1 => simp [templateBody?]
  | case2 => exact templateUnclosed (by decide) (by decide) (by decide) _ _ _
  | case3 => simp [templateBody?, Lexeme.before]
  | case4 => simp [templateBody?, Lexeme.before]
  | case5 fuel points raw s ns taken rest escape ih =>
    rcases s with _ | ⟨c, s⟩
    · contradiction
    · rw [List.cons_append, List.cons_append, templateBody?, escapeEnding, escape]
      exact ih
  | case6 fuel points raw s none ih =>
    rcases s with _ | ⟨c, s⟩
    · rw [templateUnclosed (s := []) (by decide) (by decide) (by decide)]
      exact templateUnclosed (s := [';']) (by decide) (by decide) (by decide) _ _ _
    · rw [List.cons_append, List.cons_append, templateBody?, escapeEnding, none]
      exact ih
  | case7 fuel points raw s ih => simpa [templateBody?] using ih
  | case8 fuel points raw c s noQuote noMark plain noFeed ih =>
    rw [List.cons_append, templateBody?]
    · exact ih
    · exact noQuote
    · exact fun t dollar => absentEnding (by decide) (fun t => noMark t dollar) t
    · exact plain
    · exact fun t returns => absentEnding (by decide) (fun t => noFeed t returns) t

theorem patternEnding (inClass : Bool) (raw s : List Char) :
    patternBody? inClass raw (s ++ ending) = (patternBody? inClass raw s).map fun parts => (parts.1, parts.2 ++ ending) := by
  have unclosed (inClass : Bool) (raw : List Char) : patternBody? inClass raw [';'] = none := by cases inClass <;> rfl
  fun_induction patternBody? inClass raw s with
  | case1 inClass raw => cases inClass <;> rfl
  | case2 inClass raw c s feed => simp [patternBody?, feed]
  | case3 inClass raw c s plain ih => simpa [patternBody?, plain] using ih
  | case4 inClass raw c s other feed =>
    have plain : c ≠ '\\' := by
      rintro rfl
      contradiction
    rw [List.cons_append, patternBody?]
    · simp [feed]
    · exact fun d t same => absurd same plain
  | case5 inClass raw c s other plain closes =>
    have noBackslash : c ≠ '\\' := by
      rintro rfl
      simp at closes
    rw [List.cons_append, patternBody?]
    · simp [plain, closes]
    · exact fun d t same => absurd same noBackslash
  | case6 inClass raw c s other plain closes ih =>
    by_cases backslash : c = '\\'
    -- a backslash at the very end takes the first character of the ending along, and the rest closes nothing
    · subst backslash
      rcases s with _ | ⟨d, s⟩
      · have nothing (inClass : Bool) (raw : List Char) : patternBody? inClass raw [] = none := by cases inClass <;> rfl
        rw [nothing]
        exact unclosed inClass (')' :: '\\' :: raw)
      · exact absurd rfl (other d s rfl)
    · rw [List.cons_append, patternBody?]
      · simpa [plain, closes] using ih
      · exact fun d t same => absurd same backslash

theorem regexEnding (s : List Char) : regex? (s ++ ending) = (regex? s).map (·.before ending) := by
  have noPart : isNamePart ')' = false := by decide +kernel
  rw [regex?, regex?, patternEnding]
  rcases patternBody? false [] s with _ | ⟨pattern, rest⟩
  · rfl
  · simp only [Option.map_some, Option.bind_eq_bind, Option.bind_some, spanEnding noPart]
    split <;> rfl

theorem blockCommentEnding (content s : List Char) :
    blockComment? content (s ++ ending) = (blockComment? content s).map fun parts => (parts.1, parts.2 ++ ending) := by
  fun_induction blockComment? content s with
  | case1 => rfl
  | case2 content c s other ih =>
    rw [List.cons_append, blockComment?]
    · exact ih
    · exact fun t star => absentEnding (by decide) (fun t => other t star) t
  | case3 => rfl

theorem prefixEnding {mark : List Char} (inside : ')' ∉ mark) (s : List Char) : mark.isPrefixOf (s ++ ending) = mark.isPrefixOf s := by
  induction mark generalizing s with
  | nil => simp
  | cons m mark ih =>
    rw [List.mem_cons, not_or] at inside
    rcases s with _ | ⟨c, s⟩
    · simp [ending, List.isPrefixOf_cons_cons, Ne.symm inside.1]
    · rw [List.cons_append, List.isPrefixOf_cons_cons, List.isPrefixOf_cons_cons, ih inside.2]

theorem marksEnding {mark : List Char} (inside : ')' ∉ mark.tail) (c : Char) (s : List Char) :
    marks mark (c :: (s ++ ending)) = marks mark (c :: s) := by
  have begins : mark.isPrefixOf (c :: (s ++ ending)) = mark.isPrefixOf (c :: s) := by
    rcases mark with _ | ⟨m, mark⟩
    · simp
    · have inside : ')' ∉ mark := inside
      rw [List.isPrefixOf_cons_cons, List.isPrefixOf_cons_cons, prefixEnding inside]
  have digit : ((c :: (s ++ ending)).drop 2).head?.any Char.isDigit = ((c :: s).drop 2).head?.any Char.isDigit := by
    rcases s with _ | ⟨d, _ | ⟨e, s⟩⟩ <;> rfl
  rw [marks, marks, begins, digit]

theorem punctuatorFound (s : List Char) : punctuator? s = (punctuators.find? fun entry => marks entry.1 s).map fun entry =>
    ⟨.punctuator entry.2, entry.1, s.drop entry.1.length⟩ := rfl

theorem punctuatorEnding (c : Char) (s : List Char) : punctuator? (c :: (s ++ ending)) = (punctuator? (c :: s)).map (·.before ending) := by
  have inside : ∀ entry ∈ punctuators, ')' ∉ entry.1.tail := by decide +kernel
  have found : (punctuators.find? fun entry => marks entry.1 (c :: (s ++ ending))) = punctuators.find? fun entry => marks entry.1 (c :: s) :=
    List.find?_congr fun entry listed => marksEnding (inside entry listed) c s
  rw [punctuatorFound, punctuatorFound, found, Option.map_map]
  refine Option.map_congr fun entry at' => ?_
  have fits := List.find?_some at'
  simp only [marks, Bool.and_eq_true] at fits
  have within := (List.isPrefixOf_iff_prefix.mp fits.1).length_le
  simp only [Function.comp_apply, Lexeme.before, ← List.cons_append, List.drop_append_of_le_length within]

theorem lexemeEnding (limit offset : Nat) {s : List Char} (more : s ≠ []) :
    lexeme limit offset (s ++ ending) = (lexeme limit offset s).map (·.before ending) := by
  obtain ⟨c, s, rfl⟩ := List.exists_cons_of_ne_nil more
  have digit : (s ++ ending).head?.any Char.isDigit = s.head?.any Char.isDigit := by
    rcases s with _ | ⟨d, s⟩ <;> rfl
  have numeral : numeral? (c :: (s ++ ending)) = (numeral? (c :: s)).map (·.before ending) := numeralStops (.inl rfl) [';'] (c :: s)
  have name : name? limit (c :: (s ++ ending)) = (name? limit (c :: s)).map withEnding := nameEnding limit (c :: s)
  have string (quoted : (c == '"' || c == '\'') = true) :
      stringBody? c limit [] [c] (s ++ ending) = (stringBody? c limit [] [c] s).map (·.before ending) := by
    refine stringEnding (fun here => ?_) limit [] [c] s
    simp only [ending, List.mem_cons, List.not_mem_nil, or_false] at here
    rcases here with rfl | rfl <;> exact absurd quoted (by decide)
  simp only [List.cons_append, lexeme, digit, numeral, name, templateEnding, nameEnding, punctuatorEnding]
  split
  · rename_i quoted
    rw [string quoted]
    cases stringBody? c limit [] [c] s <;> rfl
  split
  · cases templateBody? limit (some []) [c] s <;> rfl
  split
  · cases numeral? (c :: s) <;> rfl
  split
  · cases name? limit s <;> rfl
  split
  · cases name? limit (c :: s) <;> rfl
  · cases punctuator? (c :: s) <;> rfl

end ClassDocs.Script
