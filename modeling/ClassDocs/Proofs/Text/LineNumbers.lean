import ClassDocs.Text.Lines
import ClassDocs.Proofs.Script.Bytes

/-! Line numbers. The line that a search in the table of line starts comes to is the one that counting line feeds comes to. -/
namespace ClassDocs.Text.LineTable
open Script (byteLength bytesOfChars lengthOfBytes sizeOfChars lengthWithin feedsOfBytes)
variable {starts : Array UInt32} {bytes : List UInt8} {source : String} {offset : Nat}

/-- The line feeds strictly in front of a byte offset. -/
def feedsBefore (source : String) (offset : Nat) : Nat := (source.toUTF8.data.toList.take offset).count 10

theorem feedsPassed (source : String) (offset : Nat) : feedsBefore source offset ≤ offset :=
  Nat.le_trans List.count_le_length (List.length_take_le _ _)

/- Counted in bytes or in characters, there are as many line feeds in front of a character. -/
theorem feedsOfFront {front behind : List Char} (text : source.toList = front ++ behind) :
    feedsBefore source (byteLength front) = front.count '\n' := by
  rw [feedsBefore, bytesOfChars, text, List.flatMap_append, ← lengthOfBytes, List.take_left, feedsOfBytes]

/-- A text of nothing but line feeds. -/
def feeds (n : Nat) : String := String.ofList (List.replicate n '\n')

theorem onlyFeeds (all : feedsBefore source source.utf8ByteSize = source.utf8ByteSize) : source = feeds source.utf8ByteSize := by
  have count : source.toList.count '\n' = source.utf8ByteSize := by
    rw [← feedsOfFront (List.append_nil _).symm, ← sizeOfChars, all]
  have most := List.count_le_length (a := '\n') (l := source.toList)
  have within : source.toList.length ≤ source.utf8ByteSize := sizeOfChars source ▸ lengthWithin source.toList
  have length : source.toList.length = source.utf8ByteSize := by omega
  have each : ∀ c ∈ source.toList, c = '\n' := fun c member => (List.count_eq_length.mp (count.trans length.symm) c member).symm
  rw [feeds, ← List.eq_replicate_iff.mpr ⟨length, each⟩, String.ofList_toList]

/- A line begins behind each line feed, and its start is the very offset: none of them needs more than 32 bits. -/
theorem startsKept (short : offset + bytes.length < UInt32.size) :
    (startsFrom offset bytes).map UInt32.toNat = (bytes.idxsOf 10 offset).map (· + 1) := by
  induction bytes generalizing offset with
  | nil => rfl
  | cons b bs ih =>
    rw [List.length_cons] at short
    have rest : (startsFrom (offset + 1) bs).map UInt32.toNat = (bs.idxsOf 10 (offset + 1)).map (· + 1) := ih (by omega)
    have kept : (UInt32.ofNat (offset + 1)).toNat = offset + 1 := UInt32.toNat_ofNat_of_lt' (by omega)
    rw [startsFrom, List.idxsOf_cons]
    split
    · rw [List.map_cons, List.map_cons, kept, rest]
    · exact rest

theorem tableKept (short : source.utf8ByteSize < UInt32.size) :
    (ofSource source).starts.toList.map UInt32.toNat = 0 :: (source.toUTF8.data.toList.idxsOf 10).map (· + 1) := by
  have size : source.toUTF8.data.toList.length = source.utf8ByteSize := Array.length_toList
  rw [ofSource, List.map_cons, startsKept (by omega)]
  rfl

theorem tableRising (short : source.utf8ByteSize < UInt32.size) : (ofSource source).starts.toList.Pairwise (· < ·) := by
  have numbers : ((ofSource source).starts.toList.map UInt32.toNat).Pairwise (· < ·) := by
    rw [tableKept short, List.pairwise_cons, List.pairwise_map]
    refine ⟨fun start behind => ?_, List.pairwise_idxsOf.imp Nat.succ_lt_succ⟩
    obtain ⟨feed, -, rfl⟩ := List.mem_map.mp behind
    exact Nat.succ_pos feed
  exact (List.pairwise_map.mp numbers).imp UInt32.lt_iff_toNat_lt.mpr

theorem countFront {α : Type} {p : α → Bool} {front back : List α} (all : ∀ a ∈ front, p a = true) (none : ∀ a ∈ back, ¬p a = true) :
    (front ++ back).countP p = front.length := by
  rw [List.countP_append, List.countP_eq_length.mpr all, List.countP_eq_zero.mpr none, Nat.add_zero]

/- The lines that begin up to an offset: the first, and one for each line feed in front of the offset. -/
theorem startsUpTo (bytes : List UInt8) (offset : Nat) :
    (0 :: (bytes.idxsOf 10).map (· + 1)).countP (· ≤ offset) = 1 + (bytes.take offset).count 10 := by
  have cut := List.length_take_le offset bytes
  have front : ∀ i ∈ (bytes.take offset).idxsOf 10, decide (i + 1 ≤ offset) = true := by
    intro i feed
    have inside := List.lt_add_of_mem_idxsOf i feed
    simp only [decide_eq_true_eq]
    omega
  have behind : ∀ i ∈ (bytes.drop offset).idxsOf 10 (0 + (bytes.take offset).length), ¬decide (i + 1 ≤ offset) = true := by
    intro i feed
    have later := List.ge_of_mem_idxsOf i feed
    have inside := List.lt_add_of_mem_idxsOf i feed
    simp only [List.length_drop, List.length_take, decide_eq_true_eq] at later inside ⊢
    omega
  have feeds : bytes.idxsOf 10 = (bytes.take offset).idxsOf 10 ++ (bytes.drop offset).idxsOf 10 (0 + (bytes.take offset).length) := by
    rw [← List.idxsOf_append, List.take_append_drop]
  calc (0 :: (bytes.idxsOf 10).map (· + 1)).countP (· ≤ offset)
      = (bytes.idxsOf 10).countP (fun i => decide (i + 1 ≤ offset)) + 1 := by
        rw [List.countP_cons_of_pos (by simp), List.countP_map, Function.comp_def]
    _ = 1 + (bytes.take offset).count 10 := by rw [feeds, countFront front behind, List.length_idxsOf, Nat.add_comm]

/-- What a search comes to, given how many starts are at most the offset. -/
def Slot.Counts (count : Nat) : Slot → Prop
  | .found index => count = index + 1
  | .missed index => count = index

theorem Slot.Counts.line {count : Nat} {slot : Slot} (counts : slot.Counts count) : slot.line = count - 1 := by
  cases slot with
  | found index => rw [show count = index + 1 from counts, Slot.line, Nat.add_sub_cancel]
  | missed index => rw [show count = index from counts, Slot.line]

/- In a table in rising order the starts in front of an index are smaller and those behind it greater. -/
theorem aroundStart (rising : starts.toList.Pairwise (· < ·)) {mid : Nat} (inside : mid < starts.size) :
    (∀ s ∈ starts.toList.take mid, s < starts.getD mid 0) ∧ (∀ s ∈ starts.toList.drop (mid + 1), starts.getD mid 0 < s) ∧
      starts.toList.take (mid + 1) = starts.toList.take mid ++ [starts.getD mid 0] ∧
      starts.toList.drop mid = starts.getD mid 0 :: starts.toList.drop (mid + 1) := by
  have start : starts.getD mid 0 = starts.toList[mid] := by simp [inside]
  rw [start, ← List.take_succ_eq_append_getElem inside, ← List.drop_eq_getElem_cons inside]
  rw [← List.take_append_drop mid starts.toList, List.drop_eq_getElem_cons inside, List.pairwise_append, List.pairwise_cons] at rising
  obtain ⟨-, ⟨behind, -⟩, front⟩ := rising
  exact ⟨fun s earlier => front s earlier _ List.mem_cons_self, behind, rfl, rfl⟩

theorem countedUpTo {offset : UInt32} {n : Nat} (inside : n ≤ starts.size) (front : ∀ s ∈ starts.toList.take n, s ≤ offset)
    (behind : ∀ s ∈ starts.toList.drop n, offset < s) : starts.toList.countP (· ≤ offset) = n := by
  have counted := countFront (p := (· ≤ offset)) (fun s early => decide_eq_true (front s early)) fun s late => by simpa using behind s late
  rwa [List.take_append_drop, List.length_take_of_le (by simpa using inside)] at counted

/- The starts in front of `lo` are smaller than the offset and those from `hi` on are greater, until the two meet or the offset itself
is a start. -/
theorem searchCounts {offset : UInt32} (rising : starts.toList.Pairwise (· < ·)) {lo hi : Nat} (order : lo ≤ hi) (inside : hi ≤ starts.size)
    (smaller : ∀ s ∈ starts.toList.take lo, s < offset) (greater : ∀ s ∈ starts.toList.drop hi, offset < s) :
    (search starts offset lo hi).Counts (starts.toList.countP (· ≤ offset)) := by
  fun_induction search starts offset lo hi with
  | case1 lo hi more mid start same =>
    -- The offset begins a line, and the starts that count are those up to its own.
    obtain ⟨before, behind, front, -⟩ := aroundStart rising (by omega : mid < starts.size)
    refine countedUpTo (by omega) (fun s early => ?_) (same ▸ behind)
    rw [front, List.mem_append, List.mem_singleton] at early
    rcases early with early | rfl
    · exact UInt32.le_of_lt (same ▸ before s early)
    · exact UInt32.le_of_eq same
  | case2 lo hi more mid start other less ih =>
    obtain ⟨before, -, front, -⟩ := aroundStart rising (by omega : mid < starts.size)
    refine ih (by omega) inside (fun s early => ?_) greater
    rw [front, List.mem_append, List.mem_singleton] at early
    rcases early with early | rfl
    · exact UInt32.lt_trans (before s early) less
    · exact less
  | case3 lo hi more mid start other notLess ih =>
    obtain ⟨-, behind, -, rest⟩ := aroundStart rising (by omega : mid < starts.size)
    have past : offset < start := UInt32.lt_of_le_of_ne (UInt32.not_lt.mp notLess) (Ne.symm other)
    refine ih (by omega) (by omega) smaller fun s late => ?_
    rw [rest, List.mem_cons] at late
    rcases late with rfl | late
    · exact past
    · exact UInt32.lt_trans past (behind s late)
  | case4 lo hi met =>
    obtain rfl : hi = lo := by omega
    exact countedUpTo inside (fun s early => UInt32.le_of_lt (smaller s early)) greater

/- Searching for an offset and counting: with `k` line feeds in front of the offset, its line has the index `k`. -/
theorem lineFound (short : source.utf8ByteSize < UInt32.size) (inside : offset ≤ source.utf8ByteSize) :
    (ofSource source).line offset = UInt32.ofNat (feedsBefore source offset) + 1 := by
  have kept : (UInt32.ofNat offset).toNat = offset := UInt32.toNat_ofNat_of_lt' (by omega)
  have upTo : (ofSource source).starts.toList.countP (· ≤ UInt32.ofNat offset) = 1 + feedsBefore source offset := by
    calc (ofSource source).starts.toList.countP (· ≤ UInt32.ofNat offset)
        = ((ofSource source).starts.toList.map UInt32.toNat).countP (· ≤ offset) := by
          rw [List.countP_map]
          refine List.countP_congr fun start _ => ?_
          simp only [Function.comp_apply, decide_eq_true_eq, UInt32.le_iff_toNat_le, kept]
      _ = 1 + feedsBefore source offset := by rw [tableKept short, startsUpTo, feedsBefore]
  have counts : (search (ofSource source).starts (UInt32.ofNat offset) 0 (ofSource source).starts.size).Counts
      ((ofSource source).starts.toList.countP (· ≤ UInt32.ofNat offset)) :=
    searchCounts (tableRising short) (Nat.zero_le _) (Nat.le_refl _) (by simp) (by rw [← Array.length_toList, List.drop_length]; simp)
  rw [line, counts.line, upTo, Nat.add_sub_cancel_left]

/-- The offsets whose line has a number of 32 bits: those of the bytes of a source, and its end. Left out is the end of 2 ^ 32 - 1 line
feeds with nothing else, where line 2 ^ 32 begins. -/
def Numbered (source : String) (offset : Nat) : Prop :=
  offset < source.utf8ByteSize ∨ offset = source.utf8ByteSize ∧ source ≠ feeds (UInt32.size - 1)

theorem Numbered.inside (numbered : Numbered source offset) : offset ≤ source.utf8ByteSize := by
  rcases numbered with before | ⟨rfl, -⟩
  · exact Nat.le_of_lt before
  · exact Nat.le_refl _

theorem Numbered.earlier {earlier : Nat} (numbered : Numbered source offset) (before : earlier ≤ offset) : Numbered source earlier := by
  rcases Nat.lt_or_eq_of_le before with before | rfl
  · exact .inl (Nat.lt_of_lt_of_le before numbered.inside)
  · exact numbered

theorem Numbered.fits (numbered : Numbered source offset) (short : source.utf8ByteSize < UInt32.size) :
    feedsBefore source offset + 1 < UInt32.size := by
  have passed := feedsPassed source offset
  rcases numbered with before | ⟨rfl, other⟩
  · omega
  · -- So many lines take a source of nothing but line feeds that is as long as a source can be.
    by_contra full
    have all : feedsBefore source source.utf8ByteSize = source.utf8ByteSize := by omega
    have size : source.utf8ByteSize = UInt32.size - 1 := by omega
    exact other (size ▸ onlyFeeds all)

theorem numberKept (short : source.utf8ByteSize < UInt32.size) (numbered : Numbered source offset) :
    ((ofSource source).line offset).toNat = 1 + feedsBefore source offset := by
  have fits := numbered.fits short
  have index : (UInt32.ofNat (feedsBefore source offset)).toNat = feedsBefore source offset := UInt32.toNat_ofNat_of_lt' (by omega)
  rw [lineFound short numbered.inside, UInt32.toNat_add, index, UInt32.toNat_one, Nat.mod_eq_of_lt fits, Nat.add_comm]

/-- A line with letters of two bytes, an empty line and a comment. -/
def sizesText : String := "größe\n\n/** a */\n"

end ClassDocs.Text.LineTable
