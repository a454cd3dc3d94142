import ClassDocs.Run
import ClassDocs.Proofs.Registry.Outline

/-! What the steps on the class graph leave alone: which classes and members there are, what they
refer to and whether they ask to be left out. -/
namespace ClassDocs

structure ClassOutline where
  name : String
  marked : Bool
  classInfo : ClassInfo
  members : List Outline

def ClassRecord.outline (c : ClassRecord) : ClassOutline :=
  ⟨c.name, c.info.ignore, c.info.classInfo, c.members.map Declaration.outline⟩

theorem memOutline {c : ClassRecord} {o : Outline} : o ∈ c.outline.members ↔ ∃ m ∈ c.members, m.outline = o := List.mem_map

theorem memVisible {e : ClassEntry} {o : Outline} : o ∈ e.visible.outline.members ↔ o ∈ e.outlines ∧ o.ignored = false := by
  rw [memOutline, ClassEntry.outlines, List.mem_map]
  simp only [ClassEntry.visible, List.mem_filter, Bool.not_eq_true']
  constructor
  · rintro ⟨m, ⟨hm, shown⟩, rfl⟩
    exact ⟨⟨m, hm, rfl⟩, shown⟩
  · rintro ⟨⟨m, hm, rfl⟩, shown⟩
    exact ⟨m, ⟨hm, shown⟩, rfl⟩

namespace ClassGraph

structure SameOutline (g g' : ClassGraph) : Prop where
  classes : g'.classes.map ClassRecord.outline = g.classes.map ClassRecord.outline
  stubs : g'.stubs = g.stubs
  patterns : g'.patterns = g.patterns

theorem sameOutline (g : ClassGraph) : g.SameOutline g := ⟨rfl, rfl, rfl⟩

theorem sameOutlineTrans {g g' g'' : ClassGraph} (h : g.SameOutline g') (h' : g'.SameOutline g'') : g.SameOutline g'' :=
  ⟨h'.classes.trans h.classes, h'.stubs.trans h.stubs, h'.patterns.trans h.patterns⟩

theorem sameOutlineMap {f : ClassRecord → ClassRecord} (keeps : ∀ c, (f c).outline = c.outline) (g : ClassGraph) :
    g.SameOutline (g.mapClasses f) := by
  refine ⟨?_, rfl, rfl⟩
  have same : ClassRecord.outline ∘ f = ClassRecord.outline := funext keeps
  rw [mapClasses, OrderedMap.mapMap, same]

theorem outlineMembers {c : ClassRecord} {f : Declaration → Declaration} (keeps : ∀ m, (f m).outline = m.outline) :
    ClassRecord.outline { c with members := c.members.map f } = c.outline := by
  simp [ClassRecord.outline, List.map_map, Function.comp_def, keeps]

theorem outlineInheritMember (g : ClassGraph) (c : ClassRecord) (m : Declaration) :
    (g.inheritMember c m).outline = m.outline := by
  unfold inheritMember
  split <;> rfl

theorem sameOutlineInherit (g : ClassGraph) : g.SameOutline g.inheritDocs.value :=
  sameOutlineMap (fun c => outlineMembers fun m => outlineInheritMember g c m) g

theorem sameOutlineHistory (g : ClassGraph) (releases : List Release) : g.SameOutline (g.withHistory releases) := by
  unfold withHistory
  split
  · exact sameOutline g
  · refine sameOutlineMap (fun c => ?_) g
    simp [ClassRecord.outline, ClassRecord.withHistory, Metadata.withHistory, Declaration.outline]

end ClassGraph

theorem Metadata.returnsOnly (m : Metadata) (owner : String) :
    ∃ returns chainable, m.withReturns owner = { m with returns, chainable } := by
  unfold withReturns
  split
  · exact ⟨_, _, rfl⟩
  · split
    · exact ⟨_, _, rfl⟩
    · split
      · exact ⟨_, _, rfl⟩
      · split
        · exact ⟨_, _, rfl⟩
        · exact ⟨_, _, rfl⟩
      · exact ⟨_, _, rfl⟩

namespace ClassGraph

theorem sameOutlineReturns (g : ClassGraph) : g.SameOutline g.withReturns := by
  refine sameOutlineMap (fun c => outlineMembers fun m => ?_) g
  split
  · obtain ⟨returns, chainable, filled⟩ := m.info.returnsOnly c.name
    rw [filled]
    rfl
  · rfl

variable {settings : Settings} {releases : List Release} {g g' : ClassGraph}

theorem sameOutlineStep {step : GraphStep} (h : (step.apply settings releases g).value = .ok g') : g.SameOutline g' := by
  cases step with
  | cycles =>
    rw [GraphStep.apply, Reported.valueBind, Reported.valuePure] at h
    cases passed : (g.checkCycles settings.checkMixinCycles).value with
    | ok =>
      rw [passed] at h
      cases h
      exact sameOutline g
    | error failure =>
      rw [passed] at h
      contradiction
  | inheritance =>
    cases h
    exact sameOutlineInherit g
  | history =>
    cases h
    exact sameOutlineHistory g releases
  | returns =>
    cases h
    exact sameOutlineReturns g
  | lint =>
    cases h
    exact sameOutline g

theorem sameOutlineComplete {steps : List GraphStep} (h : (g.complete settings releases steps).value = .ok g') :
    g.SameOutline g' := by
  induction steps generalizing g with
  | nil =>
    cases h
    exact sameOutline _
  | cons step rest ih =>
    rw [complete, Reported.valueBind] at h
    split at h
    · rename_i g₁ applied
      exact sameOutlineTrans (sameOutlineStep applied) (ih h)
    · contradiction

theorem sameNames (h : g.SameOutline g') : g'.names = g.names := by
  have keys := congrArg OrderedMap.keys h.classes
  rwa [OrderedMap.keysMap, OrderedMap.keysMap] at keys

theorem sameClass (h : g.SameOutline g') {key : String} {c' : ClassRecord} (found : g'.get? key = some c') :
    ∃ c, g.get? key = some c ∧ c'.outline = c.outline := by
  have both := congrArg (·.get? key) h.classes
  simp only [OrderedMap.getMap] at both
  rw [get?] at found
  rw [found] at both
  obtain ⟨c, known, same⟩ := Option.map_eq_some_iff.mp both.symm
  exact ⟨c, known, same.symm⟩

theorem sameOutlineSymm (h : g.SameOutline g') : g'.SameOutline g := ⟨h.classes.symm, h.stubs.symm, h.patterns.symm⟩

end ClassGraph
end ClassDocs
