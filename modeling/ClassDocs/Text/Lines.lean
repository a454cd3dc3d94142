/-! Lines of a text, and the table that finds the line of a byte offset. -/
namespace ClassDocs.Text

/-- The lines of a text. A line feed ends a line, together with one carriage return before it;
a line feed at the very end opens no further line. -/
def lines : List Char → List (List Char)
  | [] => []
  | '\n' :: cs => [] :: lines cs
  | '\r' :: '\n' :: cs => [] :: lines cs
  | c :: cs =>
    match lines cs with
    | [] => [[c]]
    | line :: rest => (c :: line) :: rest

theorem linesFeed (cs : List Char) : lines ('\n' :: cs) = [] :: lines cs := by
  simp [lines]

theorem linesNoFeed {s line : List Char} (h : line ∈ lines s) : '\n' ∉ line := by
  fun_induction lines s generalizing line with
  | case1 => simp at h
  | case2 cs ih =>
    cases List.mem_cons.1 h with
    | inl hl => simp [hl]
    | inr hl => exact ih hl
  | case3 cs ih =>
    cases List.mem_cons.1 h with
    | inl hl => simp [hl]
    | inr hl => exact ih hl
  | case4 c cs hf _ _ _ =>
    have hl : line = [c] := by simpa using h
    simp only [hl, List.mem_singleton]
    exact fun he => hf he.symm
  | case5 c cs hf _ first rest hr ih =>
    cases List.mem_cons.1 h with
    | inl hl =>
      subst hl
      simp only [List.mem_cons, not_or]
      exact ⟨fun he => hf he.symm, ih (by simp [hr])⟩
    | inr hl => exact ih (by simp [hr, hl])

/-- Byte offsets at which the lines of a source begin, in rising order; the first is 0. An offset has 32 bits. -/
structure LineTable where
  starts : Array UInt32

namespace LineTable

def startsFrom (offset : Nat) : List UInt8 → List UInt32
  | [] => []
  | b :: bs =>
    if b == 10 then UInt32.ofNat (offset + 1) :: startsFrom (offset + 1) bs else startsFrom (offset + 1) bs

def ofSource (source : String) : LineTable :=
  ⟨(0 :: startsFrom 0 source.toUTF8.data.toList).toArray⟩

/-- Where a table has an offset: at an index, or nowhere, and then it belongs in front of the index. -/
inductive Slot where
  | found (index : Nat)
  | missed (index : Nat)

/-- Looks for an offset from the index `lo` up to `hi`, which close in on its place by halving. -/
def search (starts : Array UInt32) (offset : UInt32) (lo hi : Nat) : Slot :=
  if lo < hi then
    let mid := (lo + hi) / 2
    let start := starts.getD mid 0
    if start = offset then .found mid
    else if start < offset then search starts offset (mid + 1) hi
    else search starts offset lo mid
  else .missed lo
termination_by hi - lo

/-- The index of the line that an offset is on. An offset that begins no line is on the one that begins before it. -/
def Slot.line : Slot → Nat
  | .found index => index
  | .missed index => index - 1

/-- The line of a byte offset. Lines count from 1. -/
def line (table : LineTable) (offset : Nat) : UInt32 :=
  UInt32.ofNat (search table.starts (UInt32.ofNat offset) 0 table.starts.size).line + 1

end LineTable
end ClassDocs.Text
