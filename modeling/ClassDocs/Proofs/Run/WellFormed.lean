import ClassDocs.Proofs.Run.Draft

/-! The result of a run is well-formed: owners and marks of members, references of classes. -/
namespace ClassDocs

structure ClassGraph.WellFormed (g : ClassGraph) : Prop where
  named : g.records.map ClassRecord.name = g.names
  distinct : g.names.Nodup
  owned : ∀ c ∈ g.records, ∀ m ∈ c.members, m.owner = some c.name ∧ m.kind ≠ .classKind
  shown : ∀ c ∈ g.records, c.info.ignore = false ∧ ∀ m ∈ c.members, m.ignored = false ∧ m.info.ignore = false
  overridesNothing : ∀ c ∈ g.records, c.info.classInfo.overrideTarget = none
  disjoint : ∀ name ∈ g.stubs.names, name ∉ g.names
  documented : ∀ c ∈ g.records, ∀ base ∈ c.bases, base ∈ g.names →
    ∃ b, g.get? base = some b ∧ g.lookup? base = some (.documented b)
  external : ∀ c ∈ g.records, ∀ base ∈ c.bases, base ∉ g.names → g.lookup? base = some (.external base)
  parent : ∀ c ∈ g.records, c.parent?.isSome → (g.parentOf? c.name).isSome
  mixins : ∀ c ∈ g.records, (g.mixinsOf c.name).map ClassRef.name = c.mixins

/-- The settings, an override or a class of the graph brings the name up. Patterns, which end in a
star, name nothing. -/
def ClassGraph.Mentions (g : ClassGraph) (settings : Settings) (files : List FileResult) (name : String) : Prop :=
  (name ∈ settings.externalClasses.names ∧ name.toList.getLast? ≠ some '*') ∨
    (((aggregate files).value.overrideTarget? name).isSome ∧ name.toList.getLast? ≠ some '*') ∨
    ∃ c ∈ g.records, name ∈ c.bases

namespace ClassGraph
variable {g g' : ClassGraph}

theorem lookupBase (closed : g.Closed) {c : ClassRecord} (hc : c ∈ g.records) {base : String} (hb : base ∈ c.bases) :
    (∃ b, g.get? base = some b ∧ g.lookup? base = some (.documented b)) ∨
      (base ∉ g.names ∧ g.lookup? base = some (.external base)) := by
  by_cases known : base ∈ g.names
  · obtain ⟨b, found⟩ := OrderedMap.memKeys.mp known
    exact Or.inl ⟨b, found, lookupDocumented found⟩
  · exact Or.inr ⟨known, lookupStub known ((closed c hc base hb).resolve_left known)⟩

theorem lookupBaseName (named : g.classes.All fun key c => c.name = key) (closed : g.Closed) {c : ClassRecord}
    (hc : c ∈ g.records) {base : String} (hb : base ∈ c.bases) : ∃ ref, g.lookup? base = some ref ∧ ref.name = base := by
  rcases lookupBase closed hc hb with ⟨b, found, known⟩ | ⟨-, stub⟩
  · exact ⟨.documented b, known, named base b found⟩
  · exact ⟨.external base, stub, rfl⟩

theorem parentOfBase (named : g.classes.All fun key c => c.name = key) (closed : g.Closed) {c : ClassRecord}
    (hc : c ∈ g.records) (given : c.parent?.isSome) : (g.parentOf? c.name).isSome := by
  obtain ⟨parent, h⟩ := Option.isSome_iff_exists.mp given
  have base : parent ∈ c.bases := by simp [ClassRecord.bases, h]
  obtain ⟨ref, known, -⟩ := lookupBaseName named closed hc base
  rw [parentOf?, getRecord named hc]
  simp [h, known]

theorem mixinsOfBases (named : g.classes.All fun key c => c.name = key) (closed : g.Closed) {c : ClassRecord}
    (hc : c ∈ g.records) : (g.mixinsOf c.name).map ClassRef.name = c.mixins := by
  rw [mixinsOf, getRecord named hc]
  have each : ∀ mixin ∈ c.mixins, ∃ ref, g.lookup? mixin = some ref ∧ ref.name = mixin := fun mixin hm =>
    lookupBaseName named closed hc (List.mem_append_right _ hm)
  change (c.mixins.filterMap g.lookup?).map ClassRef.name = c.mixins
  generalize c.mixins = mixins at each
  induction mixins with
  | nil => rfl
  | cons mixin rest ih =>
    obtain ⟨ref, known, name⟩ := each mixin List.mem_cons_self
    rw [List.filterMap_cons, known]
    exact congr (congrArg List.cons name) (ih fun m hm => each m (List.mem_cons_of_mem _ hm))

theorem basesOutline {c c' : ClassRecord} (same : c'.outline = c.outline) : c'.bases = c.bases := by
  have classInfo : c'.info.classInfo = c.info.classInfo := congrArg ClassOutline.classInfo same
  rw [ClassRecord.bases, ClassRecord.bases, ClassRecord.parent?, ClassRecord.parent?, ClassRecord.mixins, ClassRecord.mixins,
    classInfo]

theorem memBases (h : g.SameOutline g') {base : String} :
    (∃ c ∈ g'.records, base ∈ c.bases) ↔ ∃ c ∈ g.records, base ∈ c.bases := by
  have through {g g' : ClassGraph} (h : g.SameOutline g') (refers : ∃ c ∈ g'.records, base ∈ c.bases) :
      ∃ c ∈ g.records, base ∈ c.bases := by
    obtain ⟨c', hc, hb⟩ := refers
    obtain ⟨key, found⟩ := memRecords.mp hc
    obtain ⟨c, known, same⟩ := sameClass h found
    exact ⟨c, memRecords.mpr ⟨key, known⟩, basesOutline same ▸ hb⟩
  exact ⟨through h, through (sameOutlineSymm h)⟩

end ClassGraph

section Run
variable {settings : Settings} {releases : List Release} {files : List FileResult} {sink : Sink} {graph : ClassGraph}

theorem runStubs (result : (run settings releases files sink).2 = .ok graph) {name : String} :
    name ∈ graph.stubs.names ↔ name ∉ graph.names ∧ graph.Mentions settings files name := by
  have h := runOutline result
  rw [ClassGraph.Mentions, h.stubs, ClassGraph.sameNames h, ClassGraph.memBases h]
  change name ∈ (ClassGraph.ofClasses _ _).stubs.names ↔ _
  rw [ClassGraph.memStubsOfClasses, externalsDraft, patternStemNone, or_and_right, or_assoc]
  rfl

theorem runClosed (result : (run settings releases files sink).2 = .ok graph) : graph.Closed := by
  intro c hc base hb
  by_cases known : base ∈ graph.names
  · exact Or.inl known
  · exact Or.inr ((runStubs result).mpr ⟨known, Or.inr (Or.inr ⟨c, hc, hb⟩)⟩)

theorem runNamed (result : (run settings releases files sink).2 = .ok graph) : graph.classes.All fun key c => c.name = key := by
  intro key c found
  obtain ⟨e, entry, -, same⟩ := runClass result found
  exact (congrArg ClassOutline.name same).trans (namedDraft key e entry)

theorem runMember (result : (run settings releases files sink).2 = .ok graph) {key : String} {c : ClassRecord}
    (found : graph.get? key = some c) {m : Declaration} (hm : m ∈ c.members) :
    ∃ e, (draft settings files).value.registry.get? key = some e ∧ m.outline ∈ e.outlines ∧ m.ignored = false := by
  obtain ⟨e, entry, -, same⟩ := runClass result found
  have there : m.outline ∈ e.visible.outline.members := same ▸ memOutline.mpr ⟨m, hm, rfl⟩
  obtain ⟨outline, shown⟩ := memVisible.mp there
  exact ⟨e, entry, outline, shown⟩

theorem runShown (result : (run settings releases files sink).2 = .ok graph) {c : ClassRecord} (hc : c ∈ graph.records) :
    c.info.ignore = false ∧ ∀ m ∈ c.members, m.ignored = false ∧ m.info.ignore = false := by
  obtain ⟨key, found⟩ := ClassGraph.memRecords.mp hc
  constructor
  · obtain ⟨e, entry, shown, same⟩ := runClass result found
    have mark : c.info.ignore = e.record.info.ignore := congrArg ClassOutline.marked same
    rw [mark, ← Bool.not_eq_true]
    exact fun asks => by simp [(draftClass entry).marked.record asks] at shown
  · intro m hm
    obtain ⟨e, entry, outline, shown⟩ := runMember result found hm
    refine ⟨shown, ?_⟩
    rw [← Bool.not_eq_true]
    intro asks
    have ignored : m.ignored = true := (draftClass entry).marked.members m.outline outline asks
    simp [ignored] at shown

theorem runOwned (result : (run settings releases files sink).2 = .ok graph) {c : ClassRecord} (hc : c ∈ graph.records) :
    ∀ m ∈ c.members, m.owner = some c.name ∧ m.kind ≠ .classKind := by
  obtain ⟨key, found⟩ := ClassGraph.memRecords.mp hc
  intro m hm
  obtain ⟨e, entry, outline, -⟩ := runMember result found hm
  rw [runNamed result key c found]
  exact (ClassEntry.ownsIff.mp (draftClass entry).owns).2 m.outline outline

theorem runOverridesNothing (result : (run settings releases files sink).2 = .ok graph) {c : ClassRecord}
    (hc : c ∈ graph.records) : c.info.classInfo.overrideTarget = none := by
  obtain ⟨key, found⟩ := ClassGraph.memRecords.mp hc
  obtain ⟨e, entry, -, same⟩ := runClass result found
  have classInfo : c.info.classInfo = e.record.info.classInfo := congrArg ClassOutline.classInfo same
  rw [classInfo]
  exact (draftClass entry).target

theorem runWellFormed (result : (run settings releases files sink).2 = .ok graph) :
    graph.WellFormed ∧
      ∀ name, name ∈ graph.stubs.names ↔ name ∉ graph.names ∧ graph.Mentions settings files name := by
  have named := runNamed result
  have closed := runClosed result
  refine ⟨?_, fun name => runStubs result⟩
  refine {
    named := ClassGraph.namesOfRecords named
    distinct := graph.classes.distinct
    owned := fun c hc => runOwned result hc
    shown := fun c hc => runShown result hc
    overridesNothing := fun c hc => runOverridesNothing result hc
    disjoint := fun name stub => ((runStubs result).mp stub).1
    documented := fun c hc base hb known => ?_
    external := fun c hc base hb unknown => ?_
    parent := fun c hc => ClassGraph.parentOfBase named closed hc
    mixins := fun c hc => ClassGraph.mixinsOfBases named closed hc }
  · rcases ClassGraph.lookupBase closed hc hb with documented | ⟨unknown, -⟩
    · exact documented
    · exact absurd known unknown
  · rcases ClassGraph.lookupBase closed hc hb with ⟨b, found, -⟩ | ⟨-, stub⟩
    · exact absurd (OrderedMap.memKeysOfGet found) unknown
    · exact stub

theorem sampleWellFormed : ∃ graph, (run {} [] sampleFiles {}).2 = .ok graph ∧ graph.WellFormed ∧
    ("Component" ∈ graph.stubs.names ↔ "Component" ∉ graph.names ∧ graph.Mentions {} sampleFiles "Component") := by
  obtain ⟨graph, result⟩ := (runPasses {} [] sampleFiles {}).mpr (by cbv)
  obtain ⟨wellFormed, stubs⟩ := runWellFormed result
  exact ⟨graph, result, wellFormed, stubs "Component"⟩

end Run
end ClassDocs
