import ClassDocs.Registry.Overrides

/-! Chains of overrides. The search for the end of a chain finds it exactly when there is one: a
chain without an end comes back to a class that it has visited. -/
namespace ClassDocs
namespace Registry

/-- Going from override to target, the class `name` leads to a class that overrides none. -/
inductive LeadsTo (r : Registry) : String → String → Prop where
  | here {name} (last : r.overrideTarget? name = none) : LeadsTo r name name
  | next {name target last} (overrides : r.overrideTarget? name = some target)
      (rest : LeadsTo r target last) : LeadsTo r name last

inductive LeadsIn (r : Registry) : Nat → String → String → Prop where
  | here {name} (last : r.overrideTarget? name = none) : LeadsIn r 0 name name
  | next {steps name target last} (overrides : r.overrideTarget? name = some target)
      (rest : LeadsIn r steps target last) : LeadsIn r (steps + 1) name last

variable {r : Registry} {name last : String}

theorem leadsToNothing (h : r.LeadsTo name last) : r.overrideTarget? last = none := by
  induction h with
  | here last => exact last
  | next _ _ ih => exact ih

theorem leadsToItself (h : r.LeadsTo name last) (none : r.overrideTarget? name = none) : last = name := by
  cases h with
  | here => rfl
  | next overrides => rw [none] at overrides; contradiction

theorem leadsToCongr {r' : Registry} (same : ∀ name, r'.overrideTarget? name = r.overrideTarget? name) :
    r'.LeadsTo name last ↔ r.LeadsTo name last := by
  constructor <;> intro h <;> induction h with
  | here last => exact .here (by simpa [same] using last)
  | next overrides _ ih => exact .next (by simpa [same] using overrides) ih

theorem leadsToCounted (h : r.LeadsTo name last) : ∃ steps, r.LeadsIn steps name last := by
  induction h with
  | here last => exact ⟨0, .here last⟩
  | next overrides _ ih =>
    obtain ⟨steps, rest⟩ := ih
    exact ⟨steps + 1, .next overrides rest⟩

theorem leadsInUnique {steps others : Nat} {other : String} (h : r.LeadsIn steps name last)
    (h' : r.LeadsIn others name other) : others = steps ∧ other = last := by
  induction h generalizing others other with
  | here last =>
    cases h' with
    | here => exact ⟨rfl, rfl⟩
    | next overrides => rw [last] at overrides; contradiction
  | next overrides _ ih =>
    cases h' with
    | here last => rw [last] at overrides; contradiction
    | next overrides' rest =>
      cases Option.some.inj (overrides.symm.trans overrides')
      obtain ⟨rfl, rfl⟩ := ih rest
      exact ⟨rfl, rfl⟩

theorem leadsToUnique {other : String} (h : r.LeadsTo name last) (h' : r.LeadsTo name other) : other = last := by
  obtain ⟨_, h⟩ := leadsToCounted h
  obtain ⟨_, h'⟩ := leadsToCounted h'
  exact (leadsInUnique h h').2

theorem chainEndSound {unvisited : List String} (h : r.chainEnd? unvisited name = some last) : r.LeadsTo name last := by
  induction unvisited, name using chainEnd?.induct r with
  | case1 unvisited name none =>
    rw [chainEnd?, none] at h
    cases Option.some.inj h
    exact .here none
  | case2 unvisited name target overrides unseen ih =>
    rw [chainEnd?, overrides] at h
    exact .next overrides (ih (by simpa [unseen] using h))
  | case3 unvisited name target overrides seen =>
    rw [chainEnd?, overrides] at h
    simp [seen] at h

/- A chain with an end never comes back to a class, for the classes on it differ in their distance
from the end. -/
theorem chainEndComplete {steps : Nat} (h : r.LeadsIn steps name last) (unvisited : List String)
    (unseen : ∀ other count, count ≤ steps → r.LeadsIn count other last → (r.overrideTarget? other).isSome →
      other ∈ unvisited) : r.chainEnd? unvisited name = some last := by
  induction h generalizing unvisited with
  | here last => rw [chainEnd?, last]
  | @next steps name target last overrides rest ih =>
    have here : name ∈ unvisited := unseen name (steps + 1) (Nat.le_refl _) (.next overrides rest) (by simp [overrides])
    have later := ih (unvisited.erase name) fun other count bound leads isOverride => by
      have different : other ≠ name := by
        rintro rfl
        have := (leadsInUnique (.next overrides rest) leads).1
        omega
      exact (List.mem_erase_of_ne different).mpr (unseen other count (by omega) leads isOverride)
    rw [chainEnd?, overrides]
    simpa [here] using later

theorem memKeysOfOverride (h : (r.overrideTarget? name).isSome) : name ∈ r.keys := by
  obtain ⟨target, h⟩ := Option.isSome_iff_exists.mp h
  obtain ⟨e, found, -⟩ := Option.bind_eq_some_iff.mp h
  exact OrderedMap.memKeysOfGet found

theorem chainEndIff : r.chainEnd? r.keys name = some last ↔ r.LeadsTo name last := by
  refine ⟨chainEndSound, fun h => ?_⟩
  obtain ⟨steps, h⟩ := leadsToCounted h
  exact chainEndComplete h r.keys fun _ _ _ _ isOverride => memKeysOfOverride isOverride

theorem overrideEndIff :
    r.overrideEnd? name = some last ↔ (r.overrideTarget? name).isSome ∧ r.LeadsTo name last := by
  rw [overrideEnd?, ← chainEndIff]
  cases r.overrideTarget? name <;> simp

end Registry
end ClassDocs
