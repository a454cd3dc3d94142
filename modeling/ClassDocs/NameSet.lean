/-! Sets of names in the order in which the names were first added. -/
namespace ClassDocs

/-- A search through names ends because every visited name is taken off the list. -/
theorem Names.eraseShorter {names : List String} {name : String} (h : name ∈ names) :
    (names.erase name).length < names.length := by
  rw [List.length_erase_of_mem h]
  have := List.length_pos_of_mem h
  omega

structure NameSet where
  names : List String
  distinct : names.Nodup

namespace NameSet

def empty : NameSet := ⟨[], .nil⟩

instance : Inhabited NameSet := ⟨empty⟩

def contains (s : NameSet) (name : String) : Bool := s.names.contains name

theorem containsIff {s : NameSet} {name : String} : s.contains name = true ↔ name ∈ s.names := by
  simp [contains]

def add (s : NameSet) (name : String) : NameSet :=
  if known : name ∈ s.names then s
  else ⟨s.names ++ [name], by
    rw [List.nodup_append]
    exact ⟨s.distinct, by simp, fun a ha b hb h => known (by
      simp only [List.mem_singleton] at hb
      rw [← hb, ← h]; exact ha)⟩⟩

theorem memAdd {s : NameSet} {name n : String} : n ∈ (s.add name).names ↔ n ∈ s.names ∨ n = name := by
  unfold add
  split
  · constructor
    · exact Or.inl
    · rintro (h | rfl) <;> assumption
  · simp

def addAll (s : NameSet) (names : List String) : NameSet := names.foldl add s

theorem memAddAll {s : NameSet} {names : List String} {n : String} :
    n ∈ (s.addAll names).names ↔ n ∈ s.names ∨ n ∈ names := by
  induction names generalizing s with
  | nil => simp [addAll]
  | cons name rest ih =>
    have h : s.addAll (name :: rest) = (s.add name).addAll rest := rfl
    rw [h, ih, memAdd, List.mem_cons, or_assoc]

def ofList (names : List String) : NameSet := empty.addAll names

theorem memOfList {names : List String} {n : String} : n ∈ (ofList names).names ↔ n ∈ names := by
  simp [ofList, memAddAll, empty]

def filter (s : NameSet) (p : String → Bool) : NameSet :=
  ⟨s.names.filter p, s.distinct.sublist List.filter_sublist⟩

end NameSet
end ClassDocs
