import Mathlib.Data.List.Basic
import ClassDocs.Script.Character

/-! The bytes of a script: how many a text takes, and that each line feed among them is a character of its own. -/
namespace ClassDocs.Script

theorem byteLengthAdd (n : Nat) (s : List Char) : s.foldl (fun n c => n + c.utf8Size) n = n + byteLength s := by
  induction s generalizing n with
  | nil => rfl
  | cons c s ih => rw [byteLength, List.foldl_cons, List.foldl_cons, ih, ih (0 + c.utf8Size), Nat.zero_add, Nat.add_assoc]

@[simp] theorem byteLengthNil : byteLength [] = 0 := rfl

@[simp] theorem byteLengthCons (c : Char) (s : List Char) : byteLength (c :: s) = c.utf8Size + byteLength s := by
  rw [byteLength, List.foldl_cons, byteLengthAdd, Nat.zero_add]

@[simp] theorem byteLengthAppend (s t : List Char) : byteLength (s ++ t) = byteLength s + byteLength t := by
  rw [byteLength, List.foldl_append, byteLengthAdd, byteLengthAdd, Nat.zero_add]

theorem byteLengthPositive {s : List Char} (some : s ≠ []) : 0 < byteLength s := by
  obtain ⟨c, s, rfl⟩ := List.exists_cons_of_ne_nil some
  have := c.utf8Size_pos
  simp
  omega

theorem bytesOfChars (s : String) : s.toUTF8.data.toList = s.toList.flatMap String.utf8EncodeChar := by
  have bytes : s.toByteArray = s.toList.utf8Encode := by rw [← String.toByteArray_ofList, String.ofList_toList]
  rw [String.toUTF8, bytes, List.utf8Encode, List.data_toByteArray]

theorem lengthOfBytes (s : List Char) : (s.flatMap String.utf8EncodeChar).length = byteLength s := by
  induction s with
  | nil => rfl
  | cons c s ih => rw [List.flatMap_cons, List.length_append, ih, String.length_utf8EncodeChar, byteLengthCons]

theorem sizeOfChars (s : String) : s.utf8ByteSize = byteLength s.toList := by
  rw [← lengthOfBytes, ← bytesOfChars]
  rfl

theorem lengthWithin (s : List Char) : s.length ≤ byteLength s := by
  induction s with
  | nil => exact Nat.le_refl _
  | cons c s ih =>
    have takes := c.utf8Size_pos
    rw [List.length_cons, byteLengthCons]
    omega

/- The bytes of a character that takes several are 128 or more. -/
theorem noFeedByte {c : Char} (other : c ≠ '\n') : ∀ byte ∈ String.utf8EncodeChar c, byte ≠ 10 := by
  have single : c.val.toNat ≠ 10 := fun same => other (Char.ext (UInt32.toNat_inj.mp same))
  have kept {n : Nat} (byte : n < 256) (value : n ≠ 10) : UInt8.ofNat n ≠ 10 := by
    intro same
    have cut : n % 256 = 10 := by simpa using congrArg UInt8.toNat same
    omega
  unfold String.utf8EncodeChar
  dsimp only
  split_ifs <;> simp only [List.forall_mem_cons, List.not_mem_nil, false_imp_iff, implies_true, and_true]
  · exact kept (by omega) single
  · exact ⟨kept (by omega) (by omega), kept (by omega) (by omega)⟩
  · exact ⟨kept (by omega) (by omega), kept (by omega) (by omega), kept (by omega) (by omega)⟩
  · exact ⟨kept (by omega) (by omega), kept (by omega) (by omega), kept (by omega) (by omega), kept (by omega) (by omega)⟩

theorem feedBytes (c : Char) : (String.utf8EncodeChar c).count 10 = [c].count '\n' := by
  by_cases feed : c = '\n'
  · rw [feed]
    rfl
  · rw [List.count_eq_zero.mpr fun member => noFeedByte feed 10 member rfl, List.count_eq_zero.mpr (by simpa using Ne.symm feed)]

theorem feedsOfBytes (s : List Char) : (s.flatMap String.utf8EncodeChar).count 10 = s.count '\n' := by
  induction s with
  | nil => rfl
  | cons c s ih => rw [List.flatMap_cons, List.count_append, ih, feedBytes, ← List.count_append, List.singleton_append]

end ClassDocs.Script
