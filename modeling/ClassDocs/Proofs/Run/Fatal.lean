import ClassDocs.Proofs.Graph.Cycles
import ClassDocs.Proofs.Run.Draft
import ClassDocs.Proofs.Run.Findings

/-! Fatal findings. Only a cycle of inheritance is fatal, and it is all that can end a run. -/
namespace ClassDocs

/-- Nothing among the findings is fatal. -/
def Calm (ds : List Diagnostic) : Prop := ∀ d ∈ ds, d.level ≠ .fatal

namespace Sink

theorem acceptsFatal (s : Sink) {d : Diagnostic} (fatal : d.level = .fatal) : s.accepts d = true := by
  simp [accepts, fatal]

theorem hasFatalReportAll (s : Sink) (ds : List Diagnostic) :
    (s.reportAll ds).hasFatal = true ↔ s.hasFatal = true ∨ ¬Calm ds := by
  have calm : ¬Calm ds ↔ ∃ d ∈ ds, d.level = .fatal := by simp [Calm]
  rw [calm]
  simp only [hasFatal, reportAllEntries, List.any_append, Bool.or_eq_true, List.any_eq_true, List.mem_filter, beq_iff_eq]
  refine or_congr_right ⟨?_, ?_⟩
  · rintro ⟨d, ⟨hd, -⟩, fatal⟩
    exact ⟨d, hd, fatal⟩
  · rintro ⟨d, hd, fatal⟩
    exact ⟨d, ⟨hd, s.acceptsFatal fatal⟩, fatal⟩

end Sink

section Calm
variable {ds es : List Diagnostic}

theorem calmNil : Calm [] := nofun

theorem calmAppend (h : Calm ds) (h' : Calm es) : Calm (ds ++ es) := by
  intro d hd
  rcases List.mem_append.mp hd with first | second
  · exact h d first
  · exact h' d second

theorem calmWarns {cs : List Category} (h : Warns cs ds) : Calm ds := by
  intro d hd
  rw [(h d hd).1]
  nofun

end Calm

section Run
variable (settings : Settings) (releases : List Release)

theorem calmComplete {steps : List GraphStep} (safe : .cycles ∉ steps) (g : ClassGraph) :
    Calm (g.complete settings releases steps).findings := by
  induction steps generalizing g with
  | nil => exact calmNil
  | cons step rest ih =>
    obtain ⟨other, safe⟩ := not_or.mp (mt List.mem_cons.mpr safe)
    have later {g' : ClassGraph} (value : (step.apply settings releases g).value = .ok g')
        (calm : Calm (step.apply settings releases g).findings) :
        Calm (g.complete settings releases (step :: rest)).findings := by
      rw [ClassGraph.complete]
      refine calmAppend calm ?_
      simp only [value]
      exact ih safe g'
    cases step with
    | cycles => exact absurd rfl other
    | inheritance => exact later rfl (calmAppend (calmWarns g.warnsInherit) calmNil)
    | history => exact later rfl calmNil
    | returns => exact later rfl calmNil
    | lint => exact later rfl (calmWarns g.warnsLint)

/-- The step hands on the very graph that it was given, unless that has a cycle. -/
structure CyclesChecked (g : ClassGraph) (checked : Reported (Except Failure ClassGraph)) : Prop where
  fails : (∃ failure, checked.value = .error failure) ↔ g.Cyclic settings.checkMixinCycles
  passed : ∀ g', checked.value = .ok g' → g' = g ∧ checked.findings = []
  failed : ∀ failure, checked.value = .error failure → ∃ className chain, failure = .circularDependency className chain ∧
    g.IsCycle settings.checkMixinCycles chain ∧ ∃ d, d.level = .fatal ∧ d.category = .cycle ∧ d.message = failure.message ∧
      ∀ sink : Sink, (sink.reportAll checked.findings).entries = sink.entries ++ [d]

theorem applyCycles (g : ClassGraph) :
    (¬g.Cyclic settings.checkMixinCycles → GraphStep.cycles.apply settings releases g = ⟨.ok g, []⟩) ∧
    (g.Cyclic settings.checkMixinCycles → ∃ className chain location, g.IsCycle settings.checkMixinCycles chain ∧
      GraphStep.cycles.apply settings releases g = ⟨.error (.circularDependency className chain),
        [.located .fatal .cycle (Failure.circularDependency className chain).message location]⟩) := by
  obtain ⟨passes, fails⟩ := g.checkCyclesVerdict settings.checkMixinCycles
  refine ⟨fun acyclic => ?_, fun cyclic => ?_⟩
  · rw [GraphStep.apply, passes acyclic]
    rfl
  · obtain ⟨className, chain, location, isCycle, verdict⟩ := fails cyclic
    refine ⟨className, chain, location, isCycle, ?_⟩
    rw [GraphStep.apply, verdict]
    rfl

theorem cyclesChecked (g : ClassGraph) : CyclesChecked settings g (GraphStep.cycles.apply settings releases g) := by
  obtain ⟨passes, fails⟩ := applyCycles settings releases g
  by_cases cyclic : g.Cyclic settings.checkMixinCycles
  · obtain ⟨className, chain, location, isCycle, applied⟩ := fails cyclic
    rw [applied]
    refine ⟨⟨fun _ => cyclic, fun _ => ⟨_, rfl⟩⟩, nofun, ?_⟩
    rintro failure ⟨⟩
    refine ⟨className, chain, rfl, isCycle, .located .fatal .cycle _ location, rfl, rfl, rfl, fun sink => ?_⟩
    rw [Sink.reportAllEntries, List.filter_singleton, sink.acceptsFatal rfl]
    rfl
  · rw [passes cyclic]
    refine ⟨⟨nofun, fun has => absurd has cyclic⟩, ?_, nofun⟩
    rintro g' ⟨⟩
    exact ⟨rfl, rfl⟩

theorem completeFails {g : ClassGraph} {className : String} {chain : List String}
    (found : g.firstCycle? settings.checkMixinCycles [] g.names = some (className, chain)) :
    (g.complete settings releases GraphStep.all).value = .error (.circularDependency className chain) := by
  have failed : (g.checkCycles settings.checkMixinCycles).value = .error (.circularDependency className chain) := by
    rw [ClassGraph.checkCycles, found]
  rw [GraphStep.all, ClassGraph.complete, Reported.valueBind, GraphStep.apply, Reported.valueBind, failed]
  rfl

/-- The steps on a graph stop at a cycle, with a fatal finding, or go through without one. -/
theorem completeStops (g : ClassGraph) :
    (∃ className chain, (g.complete settings releases GraphStep.all).value = .error (.circularDependency className chain) ∧
      ¬Calm (g.complete settings releases GraphStep.all).findings) ∨
    ((∃ g', (g.complete settings releases GraphStep.all).value = .ok g') ∧
      Calm (g.complete settings releases GraphStep.all).findings) := by
  obtain ⟨passes, fails⟩ := applyCycles settings releases g
  rw [GraphStep.all, ClassGraph.complete]
  by_cases cyclic : g.Cyclic settings.checkMixinCycles
  · obtain ⟨className, chain, location, -, applied⟩ := fails cyclic
    rw [applied]
    exact Or.inl ⟨className, chain, rfl, fun calm => calm _ (List.mem_append_left _ List.mem_cons_self) rfl⟩
  · rw [passes cyclic]
    exact Or.inr ⟨completes (by decide) g, calmAppend calmNil (calmComplete settings releases (by decide) g)⟩

theorem documentFatal (files : List FileResult) :
    (¬Calm (document settings releases files).findings ↔ ∃ failure, (document settings releases files).value = .error failure) ∧
    ∀ failure, (document settings releases files).value = .error failure →
      ∃ className chain, failure = .circularDependency className chain := by
  have before := calmWarns (warnsDraft settings files)
  have built := calmWarns ((draft settings files).value.warnsToGraph settings.dropGlobalClass)
  have all : Calm (document settings releases files).findings ↔ Calm ((((draft settings files).value.toGraph
      settings.dropGlobalClass).value).complete settings releases GraphStep.all).findings := by
    refine ⟨fun calm d hd => ?_, fun calm => calmAppend before (calmAppend built calm)⟩
    exact calm d (List.mem_append_right _ (List.mem_append_right _ hd))
  rw [all, document]
  simp only [Reported.valueBind]
  rcases completeStops settings releases ((draft settings files).value.toGraph settings.dropGlobalClass).value with
    ⟨className, chain, failed, fatal⟩ | ⟨⟨graph, passed⟩, calm⟩
  · rw [failed]
    refine ⟨⟨fun _ => ⟨_, rfl⟩, fun _ => fatal⟩, ?_⟩
    rintro failure ⟨⟩
    exact ⟨className, chain, rfl⟩
  · rw [passed]
    refine ⟨⟨fun fatal => absurd calm fatal, ?_⟩, ?_⟩
    · rintro ⟨failure, failed⟩
      cases failed
    · intro failure failed
      cases failed

/-- The check for cycles is exact, and nothing else in a run is fatal or makes it fail. -/
theorem fatalOnlyByCycle :
    (∀ g, CyclesChecked settings g (GraphStep.cycles.apply settings releases g)) ∧
    ∀ files sink, sink.hasFatal = false →
      ((run settings releases files sink).1.hasFatal = true ↔
        ∃ failure, (run settings releases files sink).2 = .error failure) ∧
      ∀ failure, (run settings releases files sink).2 = .error failure →
        ∃ className chain, failure = .circularDependency className chain := by
  refine ⟨cyclesChecked settings releases, fun files sink clean => ?_⟩
  obtain ⟨fatal, cycles⟩ := documentFatal settings releases files
  rw [run]
  generalize document settings releases files = result at fatal cycles
  have reported := (sink.hasFatalReportAll result.findings).trans (or_iff_right (Bool.eq_false_iff.mp clean))
  exact ⟨reported.trans fatal, cycles⟩

def circularFiles : List FileResult :=
  [⟨"panel.js", [
    { kind := .classKind, name := "Panel", files := [⟨"panel.js", 1⟩], info := { classInfo := { parent := some "Window" } } },
    { kind := .classKind, name := "Window", files := [⟨"panel.js", 9⟩],
      info := { classInfo := { parent := some "Base", mixins := ["Dock"] } } }]⟩,
   ⟨"dock.js", [
    { kind := .classKind, name := "Dock", files := [⟨"dock.js", 1⟩], info := { classInfo := { parent := some "Window" } } }]⟩]

theorem sampleCircular : (run {} [] circularFiles {}).1.hasFatal = true ∧
    (run {} [] circularFiles {}).2 = .error (.circularDependency "Panel" ["Window", "Dock", "Window"]) := by
  have found : (((draft {} circularFiles).value.toGraph false).value.firstCycle? true []
      ((draft {} circularFiles).value.toGraph false).value.names) = some ("Panel", ["Window", "Dock", "Window"]) := by cbv
  have result : (run {} [] circularFiles {}).2 = .error (.circularDependency "Panel" ["Window", "Dock", "Window"]) :=
    completeFails {} [] found
  have fatal := ((fatalOnlyByCycle {} []).2 circularFiles {} rfl).1
  exact ⟨fatal.mpr ⟨_, result⟩, result⟩

end Run
end ClassDocs
