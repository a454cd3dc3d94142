import ClassDocs.Proofs.Script.Run
import ClassDocs.Proofs.Script.Scanning

/-! Cursors on known texts: names, strings in single quotes and single marks, with at most one blank in front of each. -/
namespace ClassDocs.Script

/-- No name goes on in the text. -/
def EndsName (s : List Char) : Prop := ∀ c ∈ s.head?, isNamePart c = false ∧ c ≠ '\\'

theorem partNoBackslash {c : Char} (h : isNamePart c = true) : c ≠ '\\' := by
  rintro rfl
  exact absurd h (by decide +kernel)

theorem namePartsTaken {s rest : List Char} (parts : ∀ c ∈ s, isNamePart c = true) (ends : EndsName rest) (fuel : Nat)
    (enough : s.length ≤ fuel) (text raw : List Char) :
    nameChars isNamePart fuel text raw (s ++ rest) = some (s.reverse ++ text, s.reverse ++ raw, rest) := by
  induction s generalizing fuel text raw with
  | nil =>
    rcases fuel with _ | fuel
    · rfl
    · rcases rest with _ | ⟨c, rest⟩
      · rfl
      · obtain ⟨noPart, plain⟩ := ends c rfl
        simp [nameChars, noPart]
  | cons c s ih =>
    obtain ⟨fuel, rfl⟩ : ∃ n, fuel = n + 1 := ⟨fuel - 1, by grind⟩
    have part := parts c List.mem_cons_self
    have taken := ih (fun c' here => parts c' (List.mem_cons_of_mem _ here)) fuel (by simpa using enough) (c :: text) (c :: raw)
    simp [nameChars, partNoBackslash part, part, taken]

theorem nameTaken (n : Identifier) {rest : List Char} (ends : EndsName rest) {limit : Nat} (enough : n.text.length ≤ limit) :
    name? limit (n.text ++ rest) = some (String.ofList n.text, n.text, rest) := by
  obtain ⟨fuel, rfl⟩ : ∃ m, limit = m + 1 := ⟨limit - 1, by grind [Identifier.text]⟩
  have taken := namePartsTaken n.continues ends fuel (by simpa [Identifier.text] using enough) [n.first] [n.first]
  simp [name?, Identifier.text, nameChars, partNoBackslash (startPart n.starts), n.starts, taken]

theorem surrogateNoChar (c : Char) : isSurrogate c.toNat = false := by
  have valid := c.valid
  have code : c.val.toNat = c.toNat := rfl
  simp only [isSurrogate, Bool.and_eq_false_iff, decide_eq_false_iff_not, UInt32.isValidChar, Nat.isValidChar, code] at valid ⊢
  omega

theorem textOfChars (s : List Char) : textOf (s.map Char.toNat) = String.ofList s := by
  have none : (s.map Char.toNat).any isSurrogate = false := by
    rw [List.any_eq_false]
    intro n member
    obtain ⟨c, -, rfl⟩ := List.mem_map.mp member
    simp [surrogateNoChar]
  rw [textOf, if_neg (by simp [none]), List.map_map]
  congr 1
  conv_rhs => rw [← List.map_id s]
  exact List.map_congr_left fun c _ => Char.ofNat_toNat c

/-- The inside of a string in single quotes. -/
def quotesEscaped (s : List Char) : List Char := Text.replaceChar '\'' ['\\', '\''] s

/-- Whether a text may stand between quotes as it is, but for the quotes in it. -/
def spelledOut (s : List Char) : Bool := s.all fun c => c != '\\' && c != '\n' && c != '\r'

theorem stringTaken {s : List Char} (plain : spelledOut s = true) (rest : List Char) (fuel : Nat)
    (enough : (quotesEscaped s).length < fuel) (points : List Nat) (raw : List Char) :
    stringBody? '\'' fuel points raw (quotesEscaped s ++ '\'' :: rest) =
      some ⟨.string (textOf (points.reverse ++ s.map Char.toNat)), raw.reverse ++ (quotesEscaped s ++ ['\'']), rest⟩ := by
  induction s generalizing fuel points raw with
  | nil =>
    obtain ⟨fuel, rfl⟩ : ∃ n, fuel = n + 1 := ⟨fuel - 1, by omega⟩
    simp [quotesEscaped, Text.replaceChar, stringBody?]
  | cons c s ih =>
    obtain ⟨fuel, rfl⟩ : ∃ n, fuel = n + 1 := ⟨fuel - 1, by omega⟩
    rw [spelledOut, List.all_cons, Bool.and_eq_true] at plain
    obtain ⟨first, others⟩ := plain
    by_cases quote : c = '\''
    · subst quote
      have escaped : quotesEscaped ('\'' :: s) = '\\' :: '\'' :: quotesEscaped s := rfl
      have taken := ih others fuel (by simp [escaped] at enough; omega) (39 :: points) ('\'' :: '\\' :: raw)
      simp [escaped, stringBody?, escape?, isLineBreak, taken, show ('\''.toNat) = 39 from rfl]
    · have kept : quotesEscaped (c :: s) = c :: quotesEscaped s := by simp [quotesEscaped, Text.replaceChar, quote]
      have taken := ih others fuel (by simp [kept] at enough; omega) (c.toNat :: points) (c :: raw)
      simp only [Bool.and_eq_true, bne_iff_ne] at first
      simp [kept, stringBody?, quote, first, taken]

/-- A token stands at the very beginning of the text. -/
structure Opens (limit : Nat) (s : List Char) (l : Lexeme) : Prop where
  bare : ∀ fuel g, g.rest = s → Gap.pass fuel g = .ok g
  read : ∀ offset, lexeme limit offset s = .ok l

/-- The first characters of tokens that no gap begins with. -/
def isSolid (c : Char) : Bool := !(isLineBreak c || isSpace c || c == '/' || c == '<' || c == '-')

theorem passSolid {c : Char} (solid : isSolid c = true) (s : List Char) (fuel : Nat) (g : Gap) (h : g.rest = c :: s) :
    Gap.pass fuel g = .ok g := by
  simp only [isSolid, Bool.not_eq_true', Bool.or_eq_false_iff, beq_eq_false_iff_ne] at solid
  obtain ⟨⟨⟨⟨noBreak, noSpace⟩, noSlash⟩, noAngle⟩, noMinus⟩ := solid
  rcases fuel with _ | fuel
  · rfl
  · simp [Gap.pass, h, noBreak, noSpace, noSlash, noAngle, noMinus]

/-- The cursor is on the first token of the text, which is all there is from here on. -/
structure Cursor.On (limit : Nat) (s : List Char) (c : Cursor) : Prop where
  opens : Opens limit s ⟨c.token, c.raw, c.rest⟩
  settled : c.pending = []
  fits : s.length < limit

theorem Cursor.On.is {limit : Nat} {s : List Char} {c : Cursor} {l : Lexeme} (on : c.On limit s) (opens : Opens limit s l) :
    c.token = l.token ∧ c.raw = l.raw ∧ c.rest = l.rest := by
  cases (on.opens.read 0).symm.trans (opens.read 0)
  exact ⟨rfl, rfl, rfl⟩

theorem behindOn {limit : Nat} {gap : Gap} {s : List Char} {l : Lexeme} (opens : Opens limit s l) (fits : s.length < limit)
    (between : gap.rest = s ∨ gap.rest = ' ' :: s) : ∃ d, Cursor.behind limit gap [] = .ok d ∧ d.On limit s := by
  have passed : ∃ passed, Gap.pass limit gap = .ok passed ∧ passed.rest = s := by
    rcases between with same | blank
    · exact ⟨_, opens.bare _ _ same, same⟩
    · obtain ⟨fuel, rfl⟩ : ∃ n, limit = n + 1 := ⟨limit - 1, by omega⟩
      refine ⟨{ gap with offset := gap.offset + ' '.utf8Size, rest := s }, ?_, rfl⟩
      rw [Gap.pass]
      simp [blank, isLineBreak, isSpace, opens.bare]
  obtain ⟨gap, passed, rest⟩ := passed
  refine ⟨⟨l.token, gap.offset, l.raw, l.rest, gap.fresh, gap.remarks.token gap.offset (Cursor.opensValue l.token), []⟩,
    ?_, ⟨opens, rfl, fits⟩⟩
  rw [Cursor.behind, passed]
  change (lexeme limit gap.offset gap.rest).bind _ = _
  rw [rest, opens.read]
  rfl

theorem nextOn {limit : Nat} {c : Cursor} {s t : List Char} {l : Lexeme} (on : c.On limit t) (opens : Opens limit s l)
    (fits : s.length < limit) (between : c.rest = s ∨ c.rest = ' ' :: s) : ∃ d, c.next limit = .ok d ∧ d.On limit s := by
  rw [Cursor.next, on.settled]
  exact behindOn opens fits between

theorem finishOpens (limit : Nat) : Opens limit [] ⟨.finish, [], []⟩ := by
  refine ⟨fun fuel g h => ?_, fun _ => rfl⟩
  rcases fuel with _ | fuel
  · rfl
  · simp [Gap.pass, h]

theorem markOpens {mark : Char} (single : mark ∈ [',', ':', ';', '(', ')', '[', ']', '\x7b', '\x7d']) (limit : Nat) (s : List Char) :
    Opens limit (mark :: s) ⟨.punctuator (String.singleton mark), [mark], s⟩ := by
  simp only [List.mem_cons, List.not_mem_nil, or_false] at single
  rcases single with rfl | rfl | rfl | rfl | rfl | rfl | rfl | rfl | rfl <;>
    exact ⟨passSolid (by decide) s, fun _ => rfl⟩

theorem stringOpens {s : List Char} (plain : spelledOut s = true) {limit : Nat} (enough : (quotesEscaped s).length < limit)
    (rest : List Char) : Opens limit ('\'' :: (quotesEscaped s ++ '\'' :: rest))
      ⟨.string (String.ofList s), '\'' :: (quotesEscaped s ++ ['\'']), rest⟩ := by
  refine ⟨passSolid (by decide) _, fun offset => ?_⟩
  have taken := stringTaken plain rest limit enough [] ['\'']
  simp [lexeme, taken, textOfChars]

/- The byte order mark and the zero width space separate tokens, although they are not blank. -/
theorem spaceBlank {c : Char} (h : isLineBreak c = true ∨ isSpace c = true) :
    Text.isBlank c = true ∨ c.val = 0xFEFF ∨ c.val = 0x200B := by
  have code : c.val.toNat = c.toNat := rfl
  simp only [isLineBreak, isSpace, Text.isBlank, Bool.or_eq_true, Bool.and_eq_true, decide_eq_true_eq, beq_iff_eq,
    UInt32.le_iff_toNat_le, ← UInt32.toNat_inj, Char.ext_iff, code, UInt32.toNat_ofNat] at h ⊢
  simp only [Char.reduceVal, UInt32.reduceToNat] at h
  omega

theorem outsideRanges {ranges : Array (Nat × Nat)} {c : Char}
    (h : (ranges.toList.all fun range => Nat.blt c.toNat range.1 || Nat.blt range.2 c.toNat) = true) :
    Text.inRanges ranges c = false := by
  rw [Text.inRanges, ← Array.any_toList, List.any_eq_false]
  intro range here inside
  have apart := List.all_eq_true.mp h range here
  simp only [Bool.or_eq_true, Bool.and_eq_true, Nat.blt_eq, decide_eq_true_eq] at apart inside
  omega

theorem startSolid {c : Char} (h : isNameStart c = true) : isSolid c = true := by
  by_contra gap
  simp only [isSolid, Bool.not_eq_true', Bool.not_eq_false, Bool.or_eq_true, beq_iff_eq] at gap
  rcases gap with ((space | rfl) | rfl) | rfl
  · rcases spaceBlank space with blank | order | zero
    · exact Bool.false_ne_true ((blankNoPart blank).symm.trans (startPart h))
    · obtain rfl : c = '\uFEFF' := Char.ext order
      rw [isNameStart, if_neg (by decide), outsideRanges (by decide +kernel)] at h
      contradiction
    · obtain rfl : c = '\u200B' := Char.ext zero
      rw [isNameStart, if_neg (by decide), outsideRanges (by decide +kernel)] at h
      contradiction
  all_goals exact absurd h (by decide +kernel)

theorem nameOpens (n : Identifier) {rest : List Char} (ends : EndsName rest) {limit : Nat} (enough : n.text.length ≤ limit) :
    Opens limit (n.text ++ rest) ⟨.name (String.ofList n.text) false, n.text, rest⟩ := by
  refine ⟨passSolid (startSolid n.starts) _, fun offset => ?_⟩
  have digit := startNoDigit n.starts
  have unescaped : '\\' ∉ n.first :: n.rest := fun here => partNoBackslash (n.textParts _ here) rfl
  have double : n.first ≠ '"' := fun same => absurd (same ▸ n.starts) (by decide +kernel)
  have single : n.first ≠ '\'' := fun same => absurd (same ▸ n.starts) (by decide +kernel)
  have back : n.first ≠ '\x60' := fun same => absurd (same ▸ n.starts) (by decide +kernel)
  have point : n.first ≠ '.' := fun same => absurd (same ▸ n.starts) (by decide +kernel)
  have hash : n.first ≠ '#' := fun same => absurd (same ▸ n.starts) (by decide +kernel)
  have taken := nameTaken n ends enough
  rw [Identifier.text, List.cons_append] at taken ⊢
  simp only [List.mem_cons, not_or] at unescaped
  simp [lexeme, double, single, back, point, hash, digit, n.starts, taken, unescaped]

theorem numeralOpens {s : List Char} {x : Float} (first : s.head?.any Char.isDigit = true) (read : numeral? s = some ⟨.number x, s, []⟩)
    (limit : Nat) (rest : List Char) : Opens limit (s ++ ':' :: rest) ⟨.number x, s, ':' :: rest⟩ := by
  rcases s with _ | ⟨c, s⟩
  · contradiction
  · have taken := numeralStops (d := ':') (.inr rfl) rest (c :: s)
    rw [read, List.cons_append] at taken
    have digit : c.isDigit = true := first
    have listed := digitListed digit
    have apart : ∀ n ∈ List.range' 48 10, isSolid (Char.ofNat n) = true ∧ Char.ofNat n ≠ '"' ∧ Char.ofNat n ≠ '\'' ∧
      Char.ofNat n ≠ '\x60' := by decide +kernel
    obtain ⟨solid, double, single, back⟩ := Char.ofNat_toNat c ▸ apart c.toNat listed
    refine ⟨passSolid solid _, fun offset => ?_⟩
    simp [lexeme, double, single, back, digit, taken, Lexeme.before]

end ClassDocs.Script
