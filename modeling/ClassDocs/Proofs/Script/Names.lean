import ClassDocs.Script.Character
import ClassDocs.Text.Blank

/-! Names in a script. No character of a name is blank, and none starts with a digit. -/
namespace ClassDocs.Script

def blankCodes : List Nat :=
  [0x09, 0x0A, 0x0B, 0x0C, 0x0D, 0x20, 0x85, 0xA0, 0x1680, 0x2000, 0x2001, 0x2002, 0x2003, 0x2004, 0x2005, 0x2006, 0x2007,
    0x2008, 0x2009, 0x200A, 0x2028, 0x2029, 0x202F, 0x205F, 0x3000]

theorem blankListed {c : Char} (h : Text.isBlank c = true) : c.toNat ∈ blankCodes := by
  have code : c.val.toNat = c.toNat := rfl
  simp only [Text.isBlank, Bool.or_eq_true, Bool.and_eq_true, decide_eq_true_eq, beq_iff_eq, UInt32.le_iff_toNat_le,
    ← UInt32.toNat_inj, code, UInt32.toNat_ofNat] at h
  simp only [blankCodes, List.mem_cons, List.not_mem_nil, or_false]
  omega

/- Ranges are compared as a whole; point by point there would be too much to evaluate. -/
def blanksOutside (ranges : Array (Nat × Nat)) : Bool :=
  ranges.toList.all fun range => blankCodes.all fun n => Nat.blt n range.1 || Nat.blt range.2 n

theorem blankOutside {ranges : Array (Nat × Nat)} {c : Char} (outside : blanksOutside ranges = true)
    (listed : c.toNat ∈ blankCodes) : Text.inRanges ranges c = false := by
  rw [Text.inRanges, ← Array.any_toList, List.any_eq_false]
  intro range here inside
  have apart := List.all_eq_true.mp (List.all_eq_true.mp outside range here) c.toNat listed
  simp only [Bool.or_eq_true, Bool.and_eq_true, Nat.blt_eq, decide_eq_true_eq] at apart inside
  omega

theorem blankNoPart {c : Char} (h : Text.isBlank c = true) : isNamePart c = false := by
  have listed := blankListed h
  unfold isNamePart
  split
  · rename_i ascii
    have apart : ∀ n ∈ blankCodes, n < 0x80 →
        ((Char.ofNat n).isAlphanum || Char.ofNat n == '$' || Char.ofNat n == '_') = false := by decide +kernel
    rw [← Char.ofNat_toNat c]
    exact apart c.toNat listed (UInt32.lt_iff_toNat_lt.mp ascii)
  · have apart : ∀ n ∈ blankCodes, ((Char.ofNat n).val == 0x200C || (Char.ofNat n).val == 0x200D) = false := by decide +kernel
    have joiners := apart c.toNat listed
    rw [Char.ofNat_toNat] at joiners
    rw [joiners, blankOutside (by decide +kernel) listed, blankOutside (by decide +kernel) listed]
    rfl

theorem digitListed {c : Char} (h : c.isDigit = true) : c.toNat ∈ List.range' 48 10 := by
  simp only [Char.isDigit, Bool.and_eq_true, decide_eq_true_eq, UInt32.le_iff_toNat_le] at h
  exact List.mem_range'_1.mpr ⟨h.1, Nat.lt_succ_of_le h.2⟩

theorem startPart {c : Char} (h : isNameStart c = true) : isNamePart c = true := by
  unfold isNameStart at h
  unfold isNamePart
  split at h
  · rename_i ascii
    rw [if_pos ascii, Char.isAlphanum]
    simp only [Bool.or_eq_true] at h ⊢
    exact h.imp_left fun letter => letter.imp_left .inl
  · rename_i ascii
    rw [if_neg ascii, h, Bool.or_true, Bool.true_or]

theorem startNoDigit {c : Char} (h : isNameStart c = true) : c.isDigit = false := by
  have digits : ∀ n ∈ List.range' 48 10, isNameStart (Char.ofNat n) = false := by decide +kernel
  refine Bool.eq_false_iff.mpr fun digit => ?_
  rw [← Char.ofNat_toNat c, digits _ (digitListed digit)] at h
  contradiction

structure Identifier where
  first : Char
  rest : List Char
  starts : isNameStart first = true
  continues : ∀ c ∈ rest, isNamePart c = true

def Identifier.text (n : Identifier) : List Char := n.first :: n.rest

theorem Identifier.textParts (n : Identifier) : ∀ c ∈ n.text, isNamePart c = true := by
  intro c hc
  rcases List.mem_cons.mp hc with rfl | later
  · exact startPart n.starts
  · exact n.continues c later

end ClassDocs.Script
