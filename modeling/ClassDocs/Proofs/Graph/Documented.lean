import ClassDocs.Graph.Inheritance

/-! Documentation above a class. The search climbs from one overridden member to the next until one is
documented, and finds it exactly when there is one: no class comes twice on such a way. -/
namespace ClassDocs

namespace ClassGraph
variable {g : ClassGraph} {kind : Kind} {name : String}

/-- The member above a class that a member of that kind and name overrides. -/
def overridden? (g : ClassGraph) (className : String) (kind : Kind) (name : String) : Option Found :=
  (g.get? className).bind fun c => g.findInHierarchy (·.isFor kind name) (g.names.erase className) c.bases

/- Above a class, past so many members without documentation. -/
inductive DocumentedAbove (g : ClassGraph) (kind : Kind) (name : String) : Nat → String → Found → Prop where
  | here {className found} (overridden : g.overridden? className kind name = some found)
      (documented : found.member.hasDoc = true) : DocumentedAbove g kind name 0 className found
  | further {steps className passed found} (overridden : g.overridden? className kind name = some passed)
      (undocumented : passed.member.hasDoc = false) (rest : DocumentedAbove g kind name steps passed.className found) :
      DocumentedAbove g kind name (steps + 1) className found

theorem documentedAboveUnique {steps others : Nat} {className : String} {found other : Found}
    (h : g.DocumentedAbove kind name steps className found) (h' : g.DocumentedAbove kind name others className other) :
    others = steps := by
  induction h generalizing others with
  | here overridden documented =>
    cases h' with
    | here => rfl
    | further overridden' undocumented =>
      cases Option.some.inj (overridden.symm.trans overridden')
      rw [documented] at undocumented
      contradiction
  | further overridden undocumented _ ih =>
    cases h' with
    | here overridden' documented =>
      cases Option.some.inj (overridden.symm.trans overridden')
      rw [documented] at undocumented
      contradiction
    | further overridden' _ rest =>
      cases Option.some.inj (overridden.symm.trans overridden')
      rw [ih rest]

theorem documentedAtEnd {steps : Nat} {className : String} {found : Found}
    (h : g.DocumentedAbove kind name steps className found) : found.member.hasDoc = true := by
  induction h with
  | here _ documented => exact documented
  | further _ _ _ ih => exact ih

theorem findDocumentedStep (g : ClassGraph) (kind : Kind) (name : String) (unsearched : List String) (className : String) :
    g.findDocumentedFrom kind name unsearched className = if className ∈ unsearched then
      match g.overridden? className kind name with
      | none => none
      | some found =>
        if found.member.hasDoc then some found
        else g.findDocumentedFrom kind name (unsearched.erase className) found.className
    else none := by
  rw [findDocumentedFrom, overridden?]
  cases g.get? className <;> rfl

theorem documentedFromSound {unsearched : List String} {className : String} {found : Found}
    (h : g.findDocumentedFrom kind name unsearched className = some found) :
    ∃ steps, g.DocumentedAbove kind name steps className found := by
  rw [findDocumentedStep] at h
  split at h
  · split at h
    · contradiction
    · rename_i passed overridden
      split at h
      · rename_i documented
        cases h
        exact ⟨0, .here overridden documented⟩
      · rename_i undocumented
        obtain ⟨steps, rest⟩ := documentedFromSound h
        exact ⟨steps + 1, .further overridden (Bool.eq_false_iff.mpr undocumented) rest⟩
  · contradiction
termination_by unsearched.length
decreasing_by exact Names.eraseShorter (by assumption)

/- Classes on one way up differ in their distance from the documentation, so none comes twice. -/
theorem documentedFromComplete {steps : Nat} {className : String} {found : Found}
    (h : g.DocumentedAbove kind name steps className found) (unsearched : List String)
    (unseen : ∀ other count, count ≤ steps → g.DocumentedAbove kind name count other found → other ∈ unsearched) :
    g.findDocumentedFrom kind name unsearched className = some found := by
  induction h generalizing unsearched with
  | @here className found overridden documented =>
    have unseenHere := unseen className 0 (Nat.le_refl 0) (.here overridden documented)
    rw [findDocumentedStep, if_pos unseenHere, overridden]
    exact if_pos documented
  | @further steps className passed found overridden undocumented rest ih =>
    have unseenHere := unseen className (steps + 1) (Nat.le_refl _) (.further overridden undocumented rest)
    have later := ih (unsearched.erase className) fun other count bound above => by
      have different : other ≠ className := by
        rintro rfl
        have := documentedAboveUnique (.further overridden undocumented rest) above
        omega
      exact (List.mem_erase_of_ne different).mpr (unseen other count (by omega) above)
    rw [findDocumentedStep, if_pos unseenHere, overridden]
    exact (if_neg (Bool.eq_false_iff.mp undocumented)).trans later

theorem memNamesOfAbove {steps : Nat} {className : String} {found : Found}
    (h : g.DocumentedAbove kind name steps className found) : className ∈ g.names := by
  have overrides : ∃ passed, g.overridden? className kind name = some passed := by
    cases h with
    | here overridden => exact ⟨_, overridden⟩
    | further overridden => exact ⟨_, overridden⟩
  obtain ⟨passed, overridden⟩ := overrides
  obtain ⟨c, known, -⟩ := Option.bind_eq_some_iff.mp overridden
  exact OrderedMap.memKeysOfGet known

theorem findDocumentedSome {className : String} {found : Found} : g.findDocumented className kind name = some found ↔
    ∃ steps, g.DocumentedAbove kind name steps className found :=
  ⟨documentedFromSound, fun ⟨_, above⟩ => documentedFromComplete above g.names fun _ _ _ => memNamesOfAbove⟩

theorem findDocumentedIff {className : String} :
    (∃ found, g.findDocumented className kind name = some found) ↔
      ∃ steps found, g.DocumentedAbove kind name steps className found := by
  simp only [findDocumentedSome]
  exact exists_comm

/- The search as it goes on without a look at what has been searched. -/
theorem findDocumentedOverridden (g : ClassGraph) (className : String) (kind : Kind) (name : String) :
    g.findDocumented className kind name = (g.overridden? className kind name).bind fun passed =>
      if passed.member.hasDoc then some passed else g.findDocumented passed.className kind name := by
  refine Option.ext fun found => ?_
  rw [findDocumentedSome, Option.bind_eq_some_iff]
  constructor
  · rintro ⟨steps, above⟩
    cases above with
    | here overridden documented => exact ⟨found, overridden, if_pos documented⟩
    | further overridden undocumented rest =>
      exact ⟨_, overridden, by rw [undocumented]; exact findDocumentedSome.mpr ⟨_, rest⟩⟩
  · rintro ⟨passed, overridden, further⟩
    split at further
    · rename_i documented
      cases further
      exact ⟨0, .here overridden documented⟩
    · rename_i undocumented
      obtain ⟨steps, rest⟩ := findDocumentedSome.mp further
      exact ⟨steps + 1, .further overridden (Bool.eq_false_iff.mpr undocumented) rest⟩

theorem foundInHierarchy {fits : Declaration → Bool} {unvisited waiting : List String} {found : Found}
    (h : g.findInHierarchy fits unvisited waiting = some found) :
    ∃ c ∈ g.records, c.name = found.className ∧ found.member ∈ c.members ∧ fits found.member = true := by
  fun_induction findInHierarchy g fits unvisited waiting with
  | case1 => contradiction
  | case2 _ _ _ _ _ ih => exact ih h
  | case3 _ name _ _ c known m first =>
    cases h
    exact ⟨c, OrderedMap.memValues.mpr ⟨name, known⟩, rfl, List.mem_of_find?_eq_some first, List.find?_some first⟩
  | case4 _ _ _ _ _ _ _ ih => exact ih h
  | case5 _ _ _ _ ih => exact ih h

theorem overriddenFound {className : String} {found : Found} (h : g.overridden? className kind name = some found) :
    ∃ c ∈ g.records, c.name = found.className ∧ found.member ∈ c.members ∧ found.member.isFor kind name = true := by
  obtain ⟨c, -, found⟩ := Option.bind_eq_some_iff.mp h
  exact foundInHierarchy found

theorem nothingFurther {className : String} {passed : Found} (nothing : g.findDocumented className kind name = none)
    (overridden : g.overridden? className kind name = some passed) :
    passed.member.hasDoc = false ∧ g.findDocumented passed.className kind name = none := by
  rw [findDocumentedOverridden, overridden, Option.bind_some] at nothing
  split at nothing
  · contradiction
  · rename_i undocumented
    exact ⟨Bool.eq_false_iff.mpr undocumented, nothing⟩

end ClassGraph
end ClassDocs
