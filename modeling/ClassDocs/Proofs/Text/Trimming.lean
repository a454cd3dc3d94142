import Mathlib.Data.List.TakeWhile
import ClassDocs.Text.Blank

/-! What trimming takes off the ends of a text, and where a text is cut. -/
namespace ClassDocs.Text
variable {s blanks back : List Char} {c : Char}

/-- The characters that are not blank. -/
def solid (s : List Char) : List Char := s.filter (!isBlank ·)

@[simp] theorem solidAppend (s t : List Char) : solid (s ++ t) = solid s ++ solid t := List.filter_append s t

theorem solidCons (h : isBlank c = false) (s : List Char) : solid (c :: s) = c :: solid s :=
  List.filter_cons_of_pos (by simp [h])

theorem solidBlank (blank : ∀ c ∈ s, isBlank c = true) : solid s = [] :=
  List.filter_eq_nil_iff.mpr fun c hc => by simp [blank c hc]

theorem trimStartCut (s : List Char) : ∃ blanks, s = blanks ++ trimStart s ∧ ∀ c ∈ blanks, isBlank c = true :=
  ⟨s.takeWhile isBlank, List.takeWhile_append_dropWhile.symm, fun _ => List.mem_takeWhile_imp⟩

theorem trimEndReverse (s : List Char) : trimEnd s = (trimStart s.reverse).reverse := rfl

theorem trimEndCut (s : List Char) : ∃ blanks, s = trimEnd s ++ blanks ∧ ∀ c ∈ blanks, isBlank c = true := by
  obtain ⟨blanks, cut, blank⟩ := trimStartCut s.reverse
  refine ⟨blanks.reverse, ?_, fun c hc => blank c (List.mem_reverse.mp hc)⟩
  rw [trimEndReverse, ← List.reverse_append, ← cut, List.reverse_reverse]

theorem solidTrimStart (s : List Char) : solid (trimStart s) = solid s := by
  obtain ⟨blanks, cut, blank⟩ := trimStartCut s
  calc solid (trimStart s) = solid (blanks ++ trimStart s) := by rw [solidAppend, solidBlank blank, List.nil_append]
    _ = solid s := by rw [← cut]

theorem solidTrimEnd (s : List Char) : solid (trimEnd s) = solid s := by
  obtain ⟨blanks, cut, blank⟩ := trimEndCut s
  calc solid (trimEnd s) = solid (trimEnd s ++ blanks) := by rw [solidAppend, solidBlank blank, List.append_nil]
    _ = solid s := by rw [← cut]

@[simp] theorem solidTrim (s : List Char) : solid (trim s) = solid s := by
  rw [trim, solidTrimEnd, solidTrimStart]

theorem trimStartBlank (blank : ∀ c ∈ blanks, isBlank c = true) (s : List Char) : trimStart (blanks ++ s) = trimStart s :=
  List.dropWhile_append_of_pos blank

theorem trimEndBlank (blank : ∀ c ∈ blanks, isBlank c = true) (s : List Char) : trimEnd (s ++ blanks) = trimEnd s := by
  rw [trimEndReverse, List.reverse_append, trimStartBlank fun c hc => blank c (List.mem_reverse.mp hc)]
  rfl

theorem trimStartSolid (h : isBlank c = false) (s : List Char) : trimStart (c :: s) = c :: s :=
  List.dropWhile_cons_of_neg (by simp [h])

theorem trimStartWhole (within : ∀ c ∈ s, isBlank c = false) : trimStart s = s := by
  cases s with
  | nil => rfl
  | cons c rest => exact trimStartSolid (within c List.mem_cons_self) rest

theorem trimEndWhole (within : ∀ c ∈ s, isBlank c = false) : trimEnd s = s := by
  rw [trimEndReverse, trimStartWhole fun c hc => within c (List.mem_reverse.mp hc), List.reverse_reverse]

/- Only what is behind a character decides whether it stays at the end. -/
theorem trimEndCons (c : Char) (s : List Char) : trimEnd (c :: s) = if (trimEnd s).isEmpty then trimEnd [c] else c :: trimEnd s := by
  rw [trimEndReverse, List.reverse_cons, trimStart, List.dropWhile_append, trimEnd, List.isEmpty_reverse]
  split
  · rfl
  · rw [List.reverse_append]
    rfl

theorem trimEndSolid (h : isBlank c = false) (s : List Char) : trimEnd (c :: s) = c :: trimEnd s := by
  rw [trimEndCons]
  split
  · rename_i nothing
    rw [List.isEmpty_iff.mp nothing]
    exact trimEndWhole (by simpa using h)
  · rfl

theorem trimEndTwice (s : List Char) : trimEnd (trimEnd s) = trimEnd s := by
  obtain ⟨blanks, cut, blank⟩ := trimEndCut s
  calc trimEnd (trimEnd s) = trimEnd (trimEnd s ++ blanks) := (trimEndBlank blank _).symm
    _ = trimEnd s := by rw [← cut]

theorem trimTwice (s : List Char) : trim (trim s) = trim s := by
  have kept : trimStart (trim s) = trim s := by
    unfold trim
    cases start : trimStart s with
    | nil => rfl
    | cons c rest =>
      have solid : isBlank c = false := by
        have head := List.head?_dropWhile_not isBlank s
        rw [show s.dropWhile isBlank = c :: rest from start] at head
        simpa using head
      rw [trimEndSolid solid, trimStartSolid solid]
  rw [trim, kept, trim, trimEndTwice]

theorem trimBlank (blank : ∀ c ∈ blanks, isBlank c = true) (s : List Char) : trim (s ++ blanks) = trim s := by
  rw [trim, trim, trimStart, trimStart, List.dropWhile_append]
  split
  · rename_i nothing
    rw [List.isEmpty_iff.mp nothing, List.dropWhile_eq_nil_iff.mpr blank]
  · exact trimEndBlank blank _

theorem trimWhole (within : ∀ c ∈ s, isBlank c = false) : trim s = s := by
  rw [trim, trimStartWhole within, trimEndWhole within]

theorem trimBetween (front : ∀ c ∈ blanks, isBlank c = true) (behind : ∀ c ∈ back, isBlank c = true)
    (within : ∀ c ∈ s, isBlank c = false) : trim (blanks ++ s ++ back) = s := by
  rw [trimBlank behind, trim, trimStartBlank front]
  exact trimWhole within

theorem contentText (s : List Char) : ((content? s).getD "").toList = trim s := by
  simp only [content?]
  split
  · rename_i nothing
    exact (List.isEmpty_iff.mp nothing).symm
  · exact String.toList_ofList

theorem contentTrimmed (trimmed : trim s = s) (given : s ≠ []) : content? s = some (String.ofList s) := by
  simp [content?, trimmed, given]

theorem contentBlank (blank : ∀ c ∈ blanks, isBlank c = true) (s : List Char) : content? (blanks ++ s) = content? s := by
  rw [content?, trim, trimStartBlank blank]
  rfl

theorem cutAt {c : Char} {before after : List Char} (absent : c ∉ before) :
    cut? (· == c) (before ++ c :: after) = some (before, after) := by
  induction before with
  | nil => simp only [List.nil_append, cut?, beq_self_eq_true, if_true]
  | cons d before ih =>
    rw [List.mem_cons, not_or] at absent
    obtain ⟨other, absent⟩ := absent
    have differs : (d == c) = false := beq_eq_false_iff_ne.mpr (Ne.symm other)
    simp only [List.cons_append, cut?, differs, Bool.false_eq_true, if_false, ih absent, Option.map_some]

theorem cutNowhere {c : Char} {s : List Char} (absent : c ∉ s) : cut? (· == c) s = none :=
  cutNothing.mpr (List.all_eq_true.mpr fun d hd => by
    rw [Bool.not_eq_true', beq_eq_false_iff_ne]
    rintro rfl
    exact absent hd)

section Pieces
variable {p : Char → Bool} {piece : List Char}

theorem piecesWhole (within : ∀ c ∈ piece, p c = false) : pieces p piece = [piece] := by
  induction piece with
  | nil => rfl
  | cons c rest ih =>
    rw [pieces, if_neg (by simp [within c List.mem_cons_self]), ih fun d hd => within d (List.mem_cons_of_mem c hd)]

theorem piecesFirst (within : ∀ c ∈ piece, p c = false) (cuts : p c = true) (rest : List Char) :
    pieces p (piece ++ c :: rest) = piece :: pieces p rest := by
  induction piece with
  | nil => rw [List.nil_append, pieces, if_pos cuts]
  | cons d piece ih =>
    rw [List.cons_append, pieces, if_neg (by simp [within d List.mem_cons_self]), ih fun e he => within e (List.mem_cons_of_mem d he)]

end Pieces
end ClassDocs.Text
