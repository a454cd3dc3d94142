import ClassDocs.Proofs.Graph.Building

/-! The global class left out. The same is reported with the class and without it, the other classes are the same, and of the names
of classes documented elsewhere those are missing that the global class alone refers to. -/
namespace ClassDocs

theorem OrderedMap.filterKey {α : Type} (m : OrderedMap α) (key : String) :
    m.entries.filter (fun entry => entry.1 == key) = (m.get? key).toList.map fun value => (key, value) := by
  obtain ⟨entries, distinct⟩ := m
  simp only [get?]
  induction entries with
  | nil => rfl
  | cons entry rest ih =>
    obtain ⟨fresh, distinct⟩ := List.nodup_cons.mp distinct
    by_cases same : entry.1 = key
    · have others : rest.filter (fun entry => entry.1 == key) = [] :=
        List.filter_eq_nil_iff.mpr fun other listed => by
          have apart : other.1 ≠ key := fun again => fresh (List.mem_map.mpr ⟨other, listed, again.trans same.symm⟩)
          simpa using apart
      simp [same, others, Prod.ext_iff]
    · simpa [same] using ih distinct

namespace Draft

/-- One warning for each member of the global class that is shown, in the order of the members. -/
def globalWarnings (d : Draft) : List Diagnostic :=
  match d.registry.get? globalName with
  | some e =>
    if e.record.ignored then []
    else (e.members.filter (!·.ignored)).map fun m =>
      .warning .global ("Global " ++ m.kind.name ++ ": " ++ m.name) m.location?
  | none => []

/-- The classes that are not ignored, each with its members that are not. -/
def shownClasses (d : Draft) : List (String × ClassRecord) :=
  (d.registry.entries.filter fun entry => !entry.2.record.ignored).map fun (name, e) =>
    (name, { name, files := e.record.files, info := e.record.info, members := e.members.filter (!·.ignored) })

/-- The name itself is listed as external, not just a pattern that fits it. -/
def Lists (d : Draft) (name : String) : Prop := name ∈ d.externals.names ∧ patternStem? name = none

/-- No list and no other class has the name. -/
def OnlyOfGlobal (d : Draft) (name : String) : Prop :=
  ¬d.Lists name ∧ (∃ c, (globalName, c) ∈ d.shownClasses ∧ name ∈ c.bases) ∧
    ∀ c ∈ (d.toGraph true).value.records, name ∉ c.bases

section
variable {d : Draft} (named : d.registry.Named)
include named

theorem classesToGraph (dropGlobal : Bool) : (d.toGraph dropGlobal).value.classes.entries =
    d.shownClasses.filter fun entry => !(entry.1 == globalName && dropGlobal) := by
  have name (entry) (listed : entry ∈ d.registry.entries) : entry.2.record.name = entry.1 :=
    named entry.1 entry.2 (OrderedMap.getIffMem.mpr listed)
  have laid : (((d.registry.values.filter (!·.record.ignored)).filter fun e => !(e.isGlobal && dropGlobal)).map ClassEntry.visible).map
      (fun c => (c.name, c)) = d.shownClasses.filter fun entry => !(entry.1 == globalName && dropGlobal) := by
    simp only [OrderedMap.values, shownClasses, List.filter_map, List.map_map, List.filter_filter]
    refine (congrArg _ (List.filter_congr fun entry listed => ?_)).trans (List.map_congr_left fun entry kept => ?_)
    · simp [ClassEntry.isGlobal, name entry listed]
    · simp [ClassEntry.visible, name entry (List.mem_filter.mp kept).1]
  have distinct : ((d.shownClasses.filter fun entry => !(entry.1 == globalName && dropGlobal)).map Prod.fst).Nodup := by
    refine List.Nodup.sublist (List.filter_sublist.map _) ?_
    rw [shownClasses, List.map_map]
    exact d.registry.distinct.sublist (List.filter_sublist.map _)
  rw [toGraph, ClassGraph.ofClasses, laid]
  exact OrderedMap.entriesOfList distinct

theorem namesToGraph (dropGlobal : Bool) (name : String) : name ∈ (d.toGraph dropGlobal).value.names ↔
    (∃ c, (name, c) ∈ d.shownClasses) ∧ (name = globalName → dropGlobal = false) := by
  simp [Decidable.imp_iff_not_or, ClassGraph.names, OrderedMap.keys, classesToGraph named]

theorem recordsToGraph (dropGlobal : Bool) (c : ClassRecord) : c ∈ (d.toGraph dropGlobal).value.records ↔
    ∃ name, (name, c) ∈ d.shownClasses ∧ (name = globalName → dropGlobal = false) := by
  simp [Decidable.imp_iff_not_or, ClassGraph.records, OrderedMap.values, classesToGraph named]

omit named in
theorem stubsToGraph (dropGlobal : Bool) (name : String) : name ∈ (d.toGraph dropGlobal).value.stubs.names ↔
    name ∉ (d.toGraph dropGlobal).value.names ∧ (d.Lists name ∨ ∃ c ∈ (d.toGraph dropGlobal).value.records, name ∈ c.bases) :=
  ClassGraph.memStubsOfClasses

theorem findingsToGraph (dropGlobal : Bool) : (d.toGraph dropGlobal).findings = d.globalWarnings := by
  have here : d.registry.values.filter ClassEntry.isGlobal = (d.registry.get? globalName).toList := by
    have keyed : d.registry.entries.filter (ClassEntry.isGlobal ∘ Prod.snd) = d.registry.entries.filter (·.1 == globalName) :=
      List.filter_congr fun entry listed => by simp [ClassEntry.isGlobal, named entry.1 entry.2 (OrderedMap.getIffMem.mpr listed)]
    rw [OrderedMap.values, List.filter_map, keyed, OrderedMap.filterKey, List.map_map]
    exact List.map_id _
  have shown : (d.registry.values.filter (!·.record.ignored)).filter ClassEntry.isGlobal =
      (d.registry.get? globalName).toList.filter (!·.record.ignored) := by
    rw [← here, List.filter_filter, List.filter_filter]
    simp only [Bool.and_comm]
  rw [toGraph, shown, globalWarnings]
  cases d.registry.get? globalName with
  | none => rfl
  | some e => cases ignored : e.record.ignored <;> simp [ignored, ClassEntry.globalFindings, ClassEntry.visible]

/-- Whether the global class is left out changes nothing that is reported and no other class. Without it the names of classes
documented elsewhere are the same, except for those that it alone refers to and perhaps its own. -/
theorem globalLeftOut :
    (∀ dropGlobal, (d.toGraph dropGlobal).findings = d.globalWarnings) ∧
      (d.toGraph false).value.classes.entries = d.shownClasses ∧
      (d.toGraph true).value.classes.entries = d.shownClasses.filter (·.1 != globalName) ∧
      (d.toGraph true).value.patterns = (d.toGraph false).value.patterns ∧
      ∀ name, name ∈ (d.toGraph true).value.stubs.names ↔
        (name ∈ (d.toGraph false).value.stubs.names ∧ ¬d.OnlyOfGlobal name) ∨
          (name = globalName ∧ (d.Lists globalName ∨ ∃ c ∈ (d.toGraph true).value.records, globalName ∈ c.bases)) := by
  have kept : (d.toGraph false).value.classes.entries = d.shownClasses := by
    rw [classesToGraph named]
    simp
  have dropped : (d.toGraph true).value.classes.entries = d.shownClasses.filter (·.1 != globalName) := by
    rw [classesToGraph named]
    simp [bne]
  refine ⟨findingsToGraph named, kept, dropped, rfl, fun name => ?_⟩
  have stays {c : ClassRecord} (h : c ∈ (d.toGraph true).value.records) : c ∈ (d.toGraph false).value.records := by
    rw [recordsToGraph named] at h ⊢
    obtain ⟨key, shown, -⟩ := h
    exact ⟨key, shown, fun _ => rfl⟩
  rw [stubsToGraph, stubsToGraph, namesToGraph named, namesToGraph named]
  constructor
  · rintro ⟨absent, wanted⟩
    by_cases isGlobal : name = globalName
    · exact .inr ⟨isGlobal, isGlobal ▸ wanted⟩
    · have unknown : ¬((∃ c, (name, c) ∈ d.shownClasses) ∧ (name = globalName → false = false)) :=
        fun there => absent ⟨there.1, fun same => absurd same isGlobal⟩
      refine .inl ⟨⟨unknown, wanted.imp_right fun ⟨c, hc, base⟩ => ⟨c, stays hc, base⟩⟩, ?_⟩
      rintro ⟨unlisted, -, others⟩
      rcases wanted with listed | ⟨c, hc, base⟩
      · exact unlisted listed
      · exact others c hc base
  · rintro (⟨⟨absent, wanted⟩, notOnly⟩ | ⟨rfl, wanted⟩)
    · refine ⟨fun there => absent ⟨there.1, fun _ => rfl⟩, ?_⟩
      rcases wanted with listed | ⟨c, hc, base⟩
      · exact .inl listed
      · obtain ⟨key, shown, -⟩ := (recordsToGraph named false c).mp hc
        by_cases isGlobal : key = globalName
        -- the global class is not the only one that refers to it, so another class does
        · by_cases listed : d.Lists name
          · exact .inl listed
          · refine .inr (Classical.not_forall_not.mp fun none => notOnly ⟨listed, ⟨c, isGlobal ▸ shown, base⟩, fun c hc base => ?_⟩)
            exact none c ⟨hc, base⟩
        · exact .inr ⟨c, (recordsToGraph named true c).mpr ⟨key, shown, fun same => absurd same isGlobal⟩, base⟩
    · exact ⟨fun there => Bool.noConfusion (there.2 rfl), wanted⟩

end

def toolboxGlobal : ClassEntry where
  record := { kind := .classKind, name := globalName, files := [], info := { classInfo := { parent := some "Toolbox", mixins := ["Observable"] } } }
  members := [
    { kind := .method, name := "helper", owner := some globalName, files := [⟨"util.js", 3⟩] },
    { kind := .method, name := "secret", owner := some globalName, files := [⟨"util.js", 7⟩], ignored := true }]

def toolboxPanel : ClassEntry where
  record := { kind := .classKind, name := "Panel", files := [⟨"panel.js", 1⟩], info := { classInfo := { parent := some "Component", mixins := ["Observable", globalName] } } }

/-- The global class, which extends `Toolbox`, and a class that has it among its mixins. -/
def toolboxDraft : Draft where
  registry := Registry.insertEntry (Registry.insertEntry .empty toolboxGlobal) toolboxPanel
  externals := .ofList ["Patch"]

theorem toolboxLeftOut :
    toolboxDraft.registry.Named ∧
      (∀ dropGlobal, (toolboxDraft.toGraph dropGlobal).findings = [.warning .global "Global method: helper" (some ⟨"util.js", 3⟩)]) ∧
      (toolboxDraft.toGraph false).value.stubs.names = ["Patch", "Toolbox", "Observable", "Component"] ∧
      (toolboxDraft.toGraph true).value.stubs.names = ["Patch", "Component", "Observable", "global"] ∧
      toolboxDraft.OnlyOfGlobal "Toolbox" ∧ ¬toolboxDraft.OnlyOfGlobal "Observable" := by
  have named : toolboxDraft.registry.Named := OrderedMap.allInsert (OrderedMap.allInsert OrderedMap.allEmpty rfl) rfl
  have kept : (toolboxDraft.toGraph false).value.stubs.names = ["Patch", "Toolbox", "Observable", "Component"] := by decide +kernel
  have dropped : (toolboxDraft.toGraph true).value.stubs.names = ["Patch", "Component", "Observable", "global"] := by decide +kernel
  obtain ⟨findings, -, -, -, stubs⟩ := globalLeftOut named
  rw [kept, dropped] at stubs
  refine ⟨named, findings, kept, dropped, ?_, ?_⟩
  · refine Classical.not_not.mp fun other => ?_
    exact absurd ((stubs "Toolbox").mpr (.inl ⟨by decide, other⟩)) (by decide)
  · intro only
    rcases (stubs "Observable").mp (by decide) with ⟨-, other⟩ | ⟨same, -⟩
    · exact other only
    · exact absurd same (by decide)

end Draft
end ClassDocs
