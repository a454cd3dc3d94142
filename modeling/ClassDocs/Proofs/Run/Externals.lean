import ClassDocs.Proofs.Graph.Externals
import ClassDocs.Proofs.Graph.Completion
import ClassDocs.Proofs.Overrides.Related
import ClassDocs.Proofs.Run.Draft

/-! A run with more external classes. Nothing but the look-up of types tells them from unknown ones: the run fails as before
or comes to the same classes, and only some warnings of unknown types are gone. -/
namespace ClassDocs

/- The listed names are added to the external ones. -/
def Listed (entries : List String) (names names' : NameSet) : Prop :=
  ∀ name, name ∈ names'.names ↔ name ∈ names.names ∨ name ∈ entries

namespace Draft
variable {entries : List String} {d d' : Draft}

/- The same classes, and the listed names among the external ones. -/
def Widened (entries : List String) : Draft → Draft → Prop := Draft.Related (fun e e' => e' = e) (Listed entries)

theorem widenedIff : d.Widened entries d' ↔ d'.registry = d.registry ∧ Listed entries d.externals d'.externals :=
  ⟨fun h => ⟨OrderedMap.relatedSame.mp h.registry, h.externals⟩, fun h => ⟨OrderedMap.relatedSame.mpr h.1, h.2⟩⟩

theorem widenedFoldable : Foldable (fun e e' => e' = e) (Listed entries) where
  agree := by
    rintro e _ rfl
    exact ⟨rfl, rfl⟩
  made := fun _ => rfl
  folded := by
    rintro e _ source _ rfl rfl -
    rfl
  added := fun names names' name h n => by rw [NameSet.memAdd, NameSet.memAdd, h, or_right_comm]

theorem widenedApply (h : d.Widened entries d') (settings settings' : Settings) (mode : settings'.eventMode = settings.eventMode)
    (step : Refinement) : Reported.Related (Widened entries) (step.apply settings d) (step.apply settings' d') := by
  obtain ⟨same, listed⟩ := widenedIff.mp h
  cases step with
  | ignoring => exact Reported.relatedPure (widenedIff.mpr ⟨by rw [same], listed⟩)
  | accessors => exact Reported.relatedPure (widenedIff.mpr ⟨by rw [same], listed⟩)
  | events => exact Reported.relatedPure (widenedIff.mpr ⟨by rw [same, mode], listed⟩)
  | enums =>
    simp only [Refinement.apply, same]
    exact Reported.relatedNext fun _ => Reported.relatedPure (widenedIff.mpr ⟨rfl, listed⟩)
  | overrides => exact relatedFoldOverrides widenedFoldable h (by rw [same])

theorem widenedToGraph (h : d.Widened entries d') (dropGlobal : Bool) :
    Reported.Related (ClassGraph.Widened entries) (d.toGraph dropGlobal) (d'.toGraph dropGlobal) := by
  obtain ⟨same, listed⟩ := widenedIff.mp h
  rw [toGraph, toGraph, same]
  exact ⟨ClassGraph.widenedOfClasses _ listed, rfl⟩

end Draft

namespace ClassGraph
variable {entries : List String} {g g' : ClassGraph}

theorem widenedComplete (h : g.Widened entries g') {settings settings' : Settings}
    (mixins : settings'.checkMixinCycles = settings.checkMixinCycles) (releases : List Release) :
    (∃ failure, (g.complete settings releases GraphStep.all).value = .error failure ∧
      g'.complete settings' releases GraphStep.all = g.complete settings releases GraphStep.all) ∨
    ∃ e e' shared, e.Widened entries e' ∧ Warns [.inheritDoc] shared ∧
      g.complete settings releases GraphStep.all = ⟨.ok e, shared ++ e.lint⟩ ∧
      g'.complete settings' releases GraphStep.all = ⟨.ok e', shared ++ e'.lint⟩ := by
  have checked := checkCyclesWidened h settings.checkMixinCycles
  have inherited := inheritWidened h
  obtain ⟨fails, passes⟩ := completeCases settings releases g
  obtain ⟨fails', passes'⟩ := completeCases settings' releases g'
  rw [mixins, checked] at fails' passes'
  cases verdict : (g.checkCycles settings.checkMixinCycles).value with
  | error failure =>
    rw [fails failure verdict, fails' failure verdict]
    exact Or.inl ⟨failure, rfl, rfl⟩
  | ok =>
    rw [passes verdict, passes' verdict, inherited.findings]
    exact Or.inr ⟨_, _, _, returnsWidened (historyWidened inherited.value releases), g.warnsInherit, rfl, rfl⟩

end ClassGraph

theorem documentParts (settings : Settings) (releases : List Release) (files : List FileResult) :
    let built := (draft settings files).value.toGraph settings.dropGlobalClass
    let completed := built.value.complete settings releases GraphStep.all
    (document settings releases files).value = completed.value ∧
      (document settings releases files).findings = (draft settings files).findings ++ (built.findings ++ completed.findings) := by
  simp only [document, Reported.valueBind, Reported.findingsBind, and_self]

section Run
variable {settings : Settings} {wider : NameSet} (contained : ∀ name ∈ settings.externalClasses.names, name ∈ wider.names)
include contained

theorem widenedDraft (files : List FileResult) : Reported.Related (Draft.Widened wider.names) (draft settings files)
    (draft { settings with externalClasses := wider } files) := by
  refine Reported.relatedNext fun registry => ?_
  have start : Draft.Widened wider.names ⟨registry, settings.externalClasses⟩ ⟨registry, wider⟩ :=
    Draft.widenedIff.mpr ⟨rfl, fun name => (or_iff_right_of_imp (contained name)).symm⟩
  exact Reported.relatedItems start fun _ _ step h =>
    Draft.widenedApply h settings { settings with externalClasses := wider } rfl step

/-- With more external classes a run fails just as before, or ends with the same classes and all the stubs from before. Its
findings are those from before, less the warnings of types that are resolved now; the types resolved now are those that a new
external class covers. -/
theorem silencedRun (releases : List Release) (files : List FileResult) (sink : Sink) :
    (∃ failure, (run settings releases files sink).2 = .error failure ∧
      run { settings with externalClasses := wider } releases files sink = run settings releases files sink) ∨
    ∃ g g' found found', run settings releases files sink = (sink.reportAll found, .ok g) ∧
      run { settings with externalClasses := wider } releases files sink = (sink.reportAll found', .ok g') ∧
      g.Widened wider.names g' ∧ Silenced (g.NewlyResolved g') g.unknownTypes found found' := by
  have drafted := widenedDraft contained files
  have built := Draft.widenedToGraph drafted.value settings.dropGlobalClass
  have before := warnsDraft settings files
  have global := (draft settings files).value.warnsToGraph settings.dropGlobalClass
  have parts (settings : Settings) := documentParts settings releases files
  have mixins : ({ settings with externalClasses := wider } : Settings).checkMixinCycles = settings.checkMixinCycles := rfl
  rcases ClassGraph.widenedComplete built.value mixins releases with
    ⟨failure, failed, same⟩ | ⟨g, g', shared, widened, inherited, completed, completed'⟩
  · refine Or.inl ⟨failure, ?_, ?_⟩
    · rw [run, (parts settings).1, failed]
    · rw [run, run, (parts settings).1, (parts settings).2, (parts _).1, (parts _).2, drafted.findings, built.findings, same]
  · have silenced := silencedBehind before (by decide)
      (silencedBehind global (by decide) (silencedBehind inherited (by decide) (ClassGraph.silencedLint widened)))
    refine Or.inr ⟨g, g', _, _, ?_, ?_, widened, silenced⟩
    · rw [run, (parts settings).1, (parts settings).2, completed]
    · rw [run, (parts _).1, (parts _).2, drafted.findings, built.findings, completed']

end Run

def typedFiles : List FileResult :=
  [⟨"grid.js", [
    { kind := .classKind, name := "Grid", files := [⟨"grid.js", 1⟩], info := { doc := some "A grid." } },
    { kind := .method, name := "load", files := [⟨"grid.js", 4⟩],
      info := { doc := some "Loads it.", params := [{ name := "from", typeName := some "Ext.Store|Row", doc := some "Where from." }] } }]⟩]

theorem sampleSilenced : (∀ name ∈ (NameSet.ofList ["Row"]).names, name ∈ (NameSet.ofList ["Ext.*", "Row"]).names) ∧
    ∃ g g' found found', run { externalClasses := .ofList ["Row"] } [] typedFiles {} = (Sink.reportAll {} found, .ok g) ∧
      run { externalClasses := .ofList ["Ext.*", "Row"] } [] typedFiles {} = (Sink.reportAll {} found', .ok g') ∧
      (g'.lookup? "Ext.Store").isSome = true ∧ Silenced (g.NewlyResolved g') g.unknownTypes found found' := by
  have contained : ∀ name ∈ (NameSet.ofList ["Row"]).names, name ∈ (NameSet.ofList ["Ext.*", "Row"]).names := by decide
  refine ⟨contained, ?_⟩
  obtain ⟨graph, passed⟩ := (runPasses { externalClasses := .ofList ["Row"] } [] typedFiles {}).mpr (by cbv)
  rcases @silencedRun { externalClasses := .ofList ["Row"] } _ contained [] typedFiles {} with
    ⟨failure, failed, -⟩ | ⟨g, g', found, found', before, after, widened, silenced⟩
  · rw [passed] at failed
    contradiction
  · have covered : ∃ entry ∈ (NameSet.ofList ["Ext.*", "Row"]).names, matchesExternal entry "Ext.Store" = true :=
      ⟨"Ext.*", by decide, by decide⟩
    exact ⟨g, g', found, found', before, after, (widened.resolves "Ext.Store").mpr (Or.inr covered), silenced⟩

end ClassDocs
