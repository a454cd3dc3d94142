import ClassDocs.Text.Case

/-! Lower case is final. No letter that lowering writes is lowered once more, so that a lowered text
stays as it is. -/
namespace ClassDocs.Text

abbrev Run := Nat × Nat × Nat × Int

/-- The code point is one that the run maps. -/
def Covers (run : Run) (n : Nat) : Prop := run.1 ≤ n ∧ n ≤ run.2.1 ∧ (n - run.1) % run.2.2.1 = 0

instance (run : Run) (n : Nat) : Decidable (Covers run n) := inferInstanceAs (Decidable (_ ∧ _ ∧ _))

def image (run : Run) (n : Nat) : Nat := ((n : Int) + run.2.2.2).toNat

/-- The code points that lowering changes; a sequence stands for one of them. -/
def loweredRuns : List Run := lowerRuns.toList ++ lowerSequences.toList.map fun entry => (entry.1, entry.1, 1, 0)

/-- The run covers none of the code points from `low` to `high`, or only such as are an odd distance
from `low` when `alternate` is true. -/
def apart (low high : Nat) (alternate : Bool) (run : Run) : Bool :=
  Nat.blt high run.1 || Nat.blt run.2.1 low || (alternate && Nat.beq run.2.2.1 2 && Nat.beq ((low + run.1) % 2) 1)

/- Runs are compared as a whole; point by point there would be too much to evaluate. -/
def imagesKept (run : Run) : Bool :=
  0 ≤ run.1 + run.2.2.2 &&
    loweredRuns.all (apart (image run run.1) (image run run.2.1) (Nat.beq run.2.2.1 2 || Nat.beq run.1 run.2.1))

theorem lowerRunsKeepImages : lowerRuns.toList.all imagesKept = true := by decide +kernel

theorem uncoveredApart {low high n : Nat} {alternate : Bool} {run : Run} (h : apart low high alternate run = true)
    (above : low ≤ n) (below : n ≤ high) (even : alternate = true → (n - low) % 2 = 0) : ¬Covers run n := by
  rintro ⟨first, last, step⟩
  simp only [apart, Bool.or_eq_true, Bool.and_eq_true, Nat.blt_eq, Nat.beq_eq] at h
  rcases h with (before | after) | ⟨⟨alternates, two⟩, odd⟩
  · omega
  · omega
  · rw [two] at step
    have := even alternates
    omega

theorem imageUncovered {run other : Run} {n : Nat} (listed : run ∈ lowerRuns.toList) (covered : Covers run n)
    (lowered : other ∈ loweredRuns) : ¬Covers other (image run n) := by
  obtain ⟨natural, kept⟩ := Bool.and_eq_true_iff.mp (List.all_eq_true.mp lowerRunsKeepImages run listed)
  have natural : 0 ≤ (run.1 : Int) + run.2.2.2 := of_decide_eq_true natural
  obtain ⟨first, last, step⟩ := covered
  refine uncoveredApart (List.all_eq_true.mp kept other lowered) ?_ ?_ fun alternates => ?_
  · unfold image
    omega
  · unfold image
    omega
  · rw [Bool.or_eq_true, Nat.beq_eq, Nat.beq_eq] at alternates
    unfold image
    rcases alternates with two | single
    · rw [two] at step
      omega
    · omega

/-- Lowering leaves the letter as it is. -/
structure Settled (c : Char) : Prop where
  noSigma : c ≠ 'Σ'
  stays : lowerChar c = [c]

theorem shiftedUncovered {n : Nat} (uncovered : ∀ run ∈ lowerRuns.toList, ¬Covers run n) : shifted? lowerRuns n = none := by
  rw [shifted?, Option.map_eq_none_iff, Array.find?_eq_none]
  intro run listed
  simpa [Covers, and_assoc] using uncovered run (Array.mem_toList_iff.mpr listed)

theorem shiftedImage {n k : Nat} (h : shifted? lowerRuns n = some k) :
    ∃ run ∈ lowerRuns.toList, Covers run n ∧ k = image run n := by
  obtain ⟨run, found, rfl⟩ := Option.map_eq_some_iff.mp h
  refine ⟨run, Array.mem_toList_iff.mpr (Array.mem_of_find?_eq_some found), ?_, rfl⟩
  simpa [Covers, and_assoc] using Array.find?_some found

theorem sigmaCovered : ∃ run ∈ lowerRuns.toList, Covers run 'Σ'.toNat := by decide +kernel

theorem settledUncovered {c : Char} (uncovered : ∀ run ∈ loweredRuns, ¬Covers run c.toNat) : Settled c := by
  have plain := shiftedUncovered fun run listed => uncovered run (List.mem_append_left _ listed)
  refine ⟨?_, ?_⟩
  · rintro rfl
    obtain ⟨run, listed, covered⟩ := sigmaCovered
    exact uncovered run (List.mem_append_left _ listed) covered
  · have single : (lowerSequences.find? fun entry => entry.1 == c.toNat) = none := by
      rw [Array.find?_eq_none]
      intro entry listed same
      refine uncovered (entry.1, entry.1, 1, 0) (List.mem_append_right _ ?_) ?_
      · exact List.mem_map.mpr ⟨entry, Array.mem_toList_iff.mpr listed, rfl⟩
      · simp_all [Covers]
    rw [lowerChar, mapped, plain, single]

theorem settledLetters {s : List Char} (letters : (s.all fun c => 'a'.toNat ≤ c.toNat && c.toNat ≤ 'z'.toNat) = true) :
    ∀ c ∈ s, Settled c := by
  intro c hc
  obtain ⟨above, below⟩ := Bool.and_eq_true_iff.mp (List.all_eq_true.mp letters c hc)
  have uncovered : loweredRuns.all (apart 'a'.toNat 'z'.toNat false) = true := by decide +kernel
  refine settledUncovered fun run lowered => ?_
  exact uncoveredApart (List.all_eq_true.mp uncovered run lowered) (of_decide_eq_true above) (of_decide_eq_true below)
    fun alternates => by contradiction

theorem settledImage {n k : Nat} (h : shifted? lowerRuns n = some k) : Settled (Char.ofNat k) := by
  obtain ⟨run, listed, covered, rfl⟩ := shiftedImage h
  by_cases valid : (image run n).isValidChar
  · have same : (Char.ofNat (image run n)).toNat = image run n := by
      rw [Char.ofNat, dif_pos valid]
      rfl
    refine settledUncovered fun other lowered => ?_
    rw [same]
    exact imageUncovered listed covered lowered
  · rw [Char.ofNat, dif_neg valid]
    exact settledUncovered (by decide +kernel)

theorem settledLowered {c d : Char} (noSigma : c ≠ 'Σ') (h : d ∈ lowerChar c) : Settled d := by
  unfold lowerChar mapped at h
  split at h
  · rename_i k shifted
    cases List.mem_singleton.mp h
    exact settledImage shifted
  · rename_i plain
    split at h
    · rename_i source images entry
      have listed := Array.mem_of_find?_eq_some entry
      simp only [lowerSequences, List.mem_toArray, List.mem_singleton, Prod.mk.injEq] at listed
      simp only [listed.2, List.map_cons, List.map_nil, List.mem_cons, List.not_mem_nil, or_false] at h
      rcases h with rfl | rfl <;> exact settledUncovered (by decide +kernel)
    · rename_i single
      cases List.mem_singleton.mp h
      exact ⟨noSigma, by rw [lowerChar, mapped, plain, single]⟩

theorem settledText (before s : List Char) : ∀ c ∈ lowerFrom before s, Settled c := by
  induction s generalizing before with
  | nil => simp [lowerFrom]
  | cons c cs ih =>
    intro d hd
    rw [lowerFrom] at hd
    split at hd
    · rcases List.mem_cons.mp hd with rfl | later
      · split <;> exact settledUncovered (by decide +kernel)
      · exact ih _ d later
    · rename_i noSigma
      rcases List.mem_append.mp hd with here | later
      · exact settledLowered noSigma here
      · exact ih _ d later

theorem lowerFromSettled {s : List Char} (settled : ∀ c ∈ s, Settled c) (before : List Char) : lowerFrom before s = s := by
  induction s generalizing before with
  | nil => rfl
  | cons c cs ih =>
    obtain ⟨noSigma, stays⟩ := settled c List.mem_cons_self
    rw [lowerFrom, if_neg noSigma, stays, ih fun d hd => settled d (List.mem_cons_of_mem _ hd)]
    rfl

theorem lowerSettled {s : String} (settled : ∀ c ∈ s.toList, Settled c) : lower s = s := by
  rw [lower, lowerFromSettled settled, String.ofList_toList]

theorem settledLower (s : String) : ∀ c ∈ (lower s).toList, Settled c := by
  rw [lower, String.toList_ofList]
  exact settledText [] s.toList

theorem lowerLowered (s : String) : lower (lower s) = lower s := lowerSettled (settledLower s)

end ClassDocs.Text
