import ClassDocs.Graph
import ClassDocs.Proofs.Overrides.Folding

/-! The graph as it is built. Its classes are those of the draft that are shown, and every name
that they refer to is one of them or becomes a stub. -/
namespace ClassDocs

theorem patternStemNone {name : String} : patternStem? name = none ↔ name.toList.getLast? ≠ some '*' := by
  unfold patternStem?
  rw [← List.head?_reverse]
  split
  · rename_i rest found
    simp [found]
  · rename_i other
    refine ⟨fun _ last => ?_, fun _ => rfl⟩
    obtain ⟨rest, found⟩ := List.head?_eq_some_iff.mp last
    exact other rest found

namespace ClassGraph

section OfClasses
variable {classes : List ClassRecord} {externals : List String}

theorem getOfClasses (distinct : (classes.map ClassRecord.name).Nodup) {key : String} {c : ClassRecord} :
    (ofClasses classes externals).get? key = some c ↔ c ∈ classes ∧ c.name = key := by
  have entries : (ofClasses classes externals).classes.entries = classes.map fun c => (c.name, c) := by
    refine OrderedMap.entriesOfList ?_
    rwa [List.map_map]
  rw [get?, OrderedMap.getIffMem, entries]
  simp only [List.mem_map, Prod.mk.injEq]
  constructor
  · rintro ⟨other, hc, rfl, rfl⟩
    exact ⟨hc, rfl⟩
  · rintro ⟨hc, rfl⟩
    exact ⟨c, hc, rfl, rfl⟩

theorem memStubsOfClasses {name : String} :
    name ∈ (ofClasses classes externals).stubs.names ↔ name ∉ (ofClasses classes externals).names ∧
      ((name ∈ externals ∧ patternStem? name = none) ∨ ∃ c ∈ (ofClasses classes externals).records, name ∈ c.bases) := by
  have contains : (OrderedMap.ofList (classes.map fun c => (c.name, c))).contains name = true ↔
      name ∈ (ofClasses classes externals).names := OrderedMap.containsIff
  have unknown : (!(OrderedMap.ofList (classes.map fun c => (c.name, c))).contains name) = true ↔
      name ∉ (ofClasses classes externals).names := by
    rw [Bool.not_eq_true', ← Bool.not_eq_true, contains]
  simp only [ofClasses, NameSet.filter, List.mem_filter, NameSet.memAddAll, NameSet.memOfList, List.mem_flatMap, unknown,
    Bool.not_eq_true', Option.isSome_eq_false_iff, Option.isNone_iff_eq_none]
  constructor
  · rintro ⟨configured | ⟨dangling, -⟩, fresh⟩
    · exact ⟨fresh, Or.inl configured⟩
    · exact ⟨fresh, Or.inr dangling⟩
  · rintro ⟨fresh, configured | dangling⟩
    · exact ⟨Or.inl configured, fresh⟩
    · exact ⟨Or.inr ⟨dangling, fresh⟩, fresh⟩

end OfClasses

theorem memRecords {g : ClassGraph} {c : ClassRecord} : c ∈ g.records ↔ ∃ key, g.get? key = some c := OrderedMap.memValues

theorem getRecord {g : ClassGraph} (named : g.classes.All fun key c => c.name = key) {c : ClassRecord} (h : c ∈ g.records) :
    g.get? c.name = some c := by
  obtain ⟨key, found⟩ := memRecords.mp h
  rwa [named key c found]

theorem namesOfRecords {g : ClassGraph} (named : g.classes.All fun key c => c.name = key) :
    g.records.map ClassRecord.name = g.names := by
  rw [records, names, OrderedMap.values, OrderedMap.keys, List.map_map]
  exact List.map_congr_left fun entry h => named entry.1 entry.2 (OrderedMap.getIffMem.mpr h)

def Closed (g : ClassGraph) : Prop := ∀ c ∈ g.records, ∀ base ∈ c.bases, base ∈ g.names ∨ base ∈ g.stubs.names

theorem closedOfClasses (classes : List ClassRecord) (externals : List String) : (ofClasses classes externals).Closed := by
  intro c hc base hb
  by_cases known : base ∈ (ofClasses classes externals).names
  · exact Or.inl known
  · exact Or.inr (memStubsOfClasses.mpr ⟨known, Or.inr ⟨c, hc, hb⟩⟩)

section Lookup
variable {g : ClassGraph} {name : String}

theorem lookupDocumented {c : ClassRecord} (found : g.get? name = some c) : g.lookup? name = some (.documented c) := by
  rw [lookup?, found]

theorem lookupStub (unknown : name ∉ g.names) (stub : name ∈ g.stubs.names) : g.lookup? name = some (.external name) := by
  have missing : g.get? name = none := OrderedMap.getNone.mpr unknown
  rw [lookup?, missing]
  simp [NameSet.containsIff.mpr stub]

end Lookup
end ClassGraph

namespace Draft
variable {d : Draft} (named : d.registry.Named) {dropGlobal : Bool}
include named

theorem getToGraph {key : String} {c : ClassRecord} :
    (d.toGraph dropGlobal).value.get? key = some c ↔ ∃ e, d.registry.get? key = some e ∧ e.record.ignored = false ∧
      (key = globalName → dropGlobal = false) ∧ e.visible = c := by
  have distinct : ((((d.registry.values.filter (!·.record.ignored)).filter fun e => !(e.isGlobal && dropGlobal)).map
      ClassEntry.visible).map ClassRecord.name).Nodup := by
    rw [List.map_map]
    have keys : d.registry.values.map (ClassRecord.name ∘ ClassEntry.visible) = d.registry.keys := by
      rw [OrderedMap.values, OrderedMap.keys, List.map_map]
      exact List.map_congr_left fun entry h => named entry.1 entry.2 (OrderedMap.getIffMem.mpr h)
    have sub := (List.filter_sublist (p := fun e => !(e.isGlobal && dropGlobal))
      (l := d.registry.values.filter (!·.record.ignored))).trans List.filter_sublist
    exact List.Nodup.sublist (sub.map _) (keys ▸ d.registry.distinct)
  rw [toGraph, ClassGraph.getOfClasses distinct]
  simp only [List.mem_map, List.mem_filter, OrderedMap.memValues]
  constructor
  · rintro ⟨⟨e, ⟨⟨⟨k, found⟩, shown⟩, kept⟩, rfl⟩, same⟩
    have name : k = key := (named k e found).symm.trans same
    subst name
    refine ⟨e, found, by simpa using shown, ?_, rfl⟩
    rintro rfl
    simpa [ClassEntry.isGlobal, named _ e found] using kept
  · rintro ⟨e, found, shown, kept, rfl⟩
    refine ⟨⟨e, ⟨⟨⟨key, found⟩, by simp [shown]⟩, ?_⟩, rfl⟩, named key e found⟩
    by_cases isGlobal : key = globalName
    · simp [kept isGlobal]
    · simp [ClassEntry.isGlobal, named key e found, isGlobal]

end Draft
end ClassDocs
