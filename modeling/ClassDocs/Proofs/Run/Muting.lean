import ClassDocs.Proofs.Graph.Completion
import ClassDocs.Proofs.Run.Fatal

/-! Muting. A run reports stage by stage, and no stage looks at what the sink holds: with an open sink and with a muting
one it takes the same course, and the muting sink ends up with the same findings less the muted ones. -/
namespace ClassDocs

namespace Reported
variable {α β : Type}

/-- Hands the findings to the sink that is passed along. -/
def into (r : Reported α) : StateM Sink α := fun s => (r.value, s.reportAll r.findings)

theorem intoPure (a : α) : (pure a : Reported α).into = pure a := rfl

theorem intoBind (r : Reported α) (f : α → Reported β) : (r >>= f).into = r.into >>= fun a => (f a).into := by
  funext s
  exact congrArg (Prod.mk _) (List.foldl_append ..)

theorem intoFoldlM (f : β → α → Reported β) (init : β) (items : List α) :
    (items.foldlM f init).into = items.foldlM (fun b a => (f b a).into) init := by
  induction items generalizing init with
  | nil => rfl
  | cons a rest ih =>
    rw [List.foldlM_cons, intoBind, List.foldlM_cons]
    exact congrArg _ (funext ih)

end Reported

/-- What is found, to an open sink and to one that mutes. -/
structure Thinned (muted : List String) (before found : List Diagnostic) (s quiet : Sink) : Prop where
  all : s = ⟨[], before ++ found⟩
  kept : quiet = ⟨muted, before ++ found.filter fun d => d.level = .fatal ∨ d.category.name ∉ muted⟩

section Thinned
variable {muted : List String} {before found : List Diagnostic} {s quiet : Sink}

theorem thinnedReport (h : Thinned muted before found s quiet) (d : Diagnostic) :
    Thinned muted before (found ++ [d]) (s.report d) (quiet.report d) := by
  obtain ⟨rfl, rfl⟩ := h
  have heard : (Sink.mk [] (before ++ found)).accepts d = true := by simp [Sink.accepts]
  constructor
  · rw [Sink.report, if_pos heard, List.append_assoc]
  · rw [Sink.report, List.filter_append, List.filter_singleton]
    by_cases kept : d.level = .fatal ∨ d.category.name ∉ muted
    · have accepted : d.level == .fatal || !muted.contains d.category.name := by simpa using kept
      rw [Sink.accepts, if_pos accepted, decide_eq_true kept, List.append_assoc]
      rfl
    · have dropped : ¬(d.level == .fatal || !muted.contains d.category.name) = true := by simpa using kept
      rw [Sink.accepts, if_neg dropped, decide_eq_false kept]
      simp only [cond_false, List.append_nil]

theorem thinnedReportAll (h : Thinned muted before found s quiet) (ds : List Diagnostic) :
    Thinned muted before (found ++ ds) (s.reportAll ds) (quiet.reportAll ds) := by
  induction ds generalizing found s quiet with
  | nil => rwa [List.append_nil]
  | cons d rest ih =>
    have later := ih (thinnedReport h d)
    rwa [List.append_assoc] at later

end Thinned

/-- With an open sink and with a muting one the stage comes to the same, and finds the same. -/
def InStep {α : Type} (stage : StateM Sink α) : Prop :=
  ∀ muted before found s quiet, Thinned muted before found s quiet →
    ∃ more, (stage quiet).1 = (stage s).1 ∧ Thinned muted before (found ++ more) (stage s).2 (stage quiet).2

section InStep
variable {α β : Type}

theorem inStepInto (r : Reported α) : InStep r.into :=
  fun _ _ _ _ _ h => ⟨r.findings, rfl, thinnedReportAll h r.findings⟩

theorem inStepPure (a : α) : InStep (pure a) := inStepInto (pure a)

theorem inStepBind {stage : StateM Sink α} {next : α → StateM Sink β} (first : InStep stage) (later : ∀ a, InStep (next a)) :
    InStep (stage >>= next) := by
  intro muted before found s quiet h
  obtain ⟨more, same, h⟩ := first muted before found s quiet h
  obtain ⟨last, result, h⟩ := later (stage s).1 _ _ _ _ _ h
  rw [List.append_assoc] at h
  refine ⟨more ++ last, ?_⟩
  change (next (stage quiet).1 (stage quiet).2).1 = (next (stage s).1 (stage s).2).1 ∧
    Thinned muted before (found ++ (more ++ last)) (next (stage s).1 (stage s).2).2 (next (stage quiet).1 (stage quiet).2).2
  rw [same]
  exact ⟨result, h⟩

theorem inStepFoldlM {f : β → α → StateM Sink β} (each : ∀ b a, InStep (f b a)) (init : β) (items : List α) :
    InStep (items.foldlM f init) := by
  induction items generalizing init with
  | nil => exact inStepPure init
  | cons a rest ih =>
    rw [List.foldlM_cons]
    exact inStepBind (each init a) ih

end InStep

section Run
variable (settings : Settings) (releases : List Release)

/-- The steps on a graph, each with the sink in hand. -/
def ClassGraph.completeInto : List GraphStep → ClassGraph → StateM Sink (Except Failure ClassGraph)
  | [], g => pure (.ok g)
  | step :: rest, g => do
    match ← (step.apply settings releases g).into with
    | .ok g => completeInto rest g
    | .error failure => pure (.error failure)

/-- A run that reports what it finds as soon as it is found. -/
def runInto (files : List FileResult) : StateM Sink (Except Failure ClassGraph) := do
  let a ← files.foldlM (fun a f => f.records.foldlM (fun a d => (a.add d).into) { a with current := none }) ({} : Aggregation)
  let registry := a.classifyOrphans.createGlobalClass.registry
  let d ← Refinement.all.foldlM (fun d step => (step.apply settings d).into) ⟨registry, settings.externalClasses⟩
  let g ← (d.toGraph settings.dropGlobalClass).into
  g.completeInto settings releases GraphStep.all

theorem completeIntoSame (steps : List GraphStep) (g : ClassGraph) :
    (g.complete settings releases steps).into = g.completeInto settings releases steps := by
  induction steps generalizing g with
  | nil => rfl
  | cons step rest ih =>
    rw [ClassGraph.complete, ClassGraph.completeInto, Reported.intoBind]
    refine congrArg _ (funext fun applied => ?_)
    cases applied with
    | ok g => exact ih g
    | error failure => rfl

/- Collected findings reach the sink just as if they were reported on the way. -/
theorem runIntoSame (files : List FileResult) (sink : Sink) :
    run settings releases files sink = (runInto settings releases files sink).swap := by
  have aggregated : (aggregate files).into = files.foldlM (fun a f => f.records.foldlM (fun a d => (a.add d).into)
      { a with current := none }) ({} : Aggregation) >>= fun a => pure a.classifyOrphans.createGlobalClass.registry := by
    rw [aggregate, Reported.intoBind, Reported.intoFoldlM]
    simp only [Aggregation.addFile, Reported.intoFoldlM, Reported.intoPure]
  have staged : (document settings releases files).into = runInto settings releases files := by
    rw [document, draft, Reported.intoBind, Reported.intoBind, aggregated]
    simp only [Draft.refine, Reported.intoFoldlM, Reported.intoBind, completeIntoSame, bind_assoc, pure_bind]
    rfl
  rw [← congrFun staged sink, run, Reported.into, Prod.swap_prod_mk]

theorem inStepComplete (steps : List GraphStep) (g : ClassGraph) : InStep (g.completeInto settings releases steps) := by
  induction steps generalizing g with
  | nil => exact inStepPure _
  | cons step rest ih =>
    refine inStepBind (inStepInto _) fun applied => ?_
    cases applied with
    | ok g => exact ih g
    | error failure => exact inStepPure _

theorem inStepRun (files : List FileResult) : InStep (runInto settings releases files) := by
  refine inStepBind (inStepFoldlM (fun a f => inStepFoldlM (fun a d => inStepInto _) _ f.records) _ files) fun a => ?_
  refine inStepBind (inStepFoldlM (fun d step => inStepInto _) _ Refinement.all) fun d => ?_
  exact inStepBind (inStepInto _) (inStepComplete settings releases GraphStep.all)

theorem completeTold {g : ClassGraph} {failure : Failure} (failed : (g.complete settings releases GraphStep.all).value = .error failure) :
    ∃ d ∈ (g.complete settings releases GraphStep.all).findings,
      d.level = .fatal ∧ d.category = .cycle ∧ d.message = failure.message := by
  obtain ⟨fails, passes⟩ := ClassGraph.completeCases settings releases g
  cases verdict : (g.checkCycles settings.checkMixinCycles).value with
  | ok =>
    rw [passes verdict] at failed
    contradiction
  | error cause =>
    obtain ⟨location, checked⟩ := ClassGraph.checkFailed verdict
    rw [fails cause verdict, checked] at failed ⊢
    cases failed
    exact ⟨_, List.mem_singleton_self _, rfl, rfl, rfl⟩

/- A run that fails has told why, whatever is muted. -/
theorem runTold {files : List FileResult} {sink : Sink} {failure : Failure}
    (failed : (run settings releases files sink).2 = .error failure) :
    ∃ d ∈ (run settings releases files sink).1.entries, d.level = .fatal ∧ d.category = .cycle ∧ d.message = failure.message := by
  simp only [run, document, Reported.valueBind, Reported.findingsBind, Sink.reportAllEntries] at failed ⊢
  obtain ⟨d, hd, fatal, rest⟩ := completeTold settings releases failed
  have all := List.mem_append_right (draft settings files).findings (List.mem_append_right
    ((draft settings files).value.toGraph settings.dropGlobalClass).findings hd)
  exact ⟨d, List.mem_append_right _ (List.mem_filter.mpr ⟨all, Sink.acceptsFatal _ fatal⟩), fatal, rest⟩

/-- Muting takes from the findings of a run what is of a muted category and not fatal, and nothing else, and leaves the result
as it is. -/
theorem mutedRun (files : List FileResult) (muted : List String) (before : List Diagnostic) :
    ∃ found, (run settings releases files ⟨[], before⟩).1 = ⟨[], before ++ found⟩ ∧
      (run settings releases files ⟨muted, before⟩).1 =
        ⟨muted, before ++ found.filter fun d => d.level = .fatal ∨ d.category.name ∉ muted⟩ ∧
      (run settings releases files ⟨muted, before⟩).2 = (run settings releases files ⟨[], before⟩).2 ∧
      ∀ failure, (run settings releases files ⟨muted, before⟩).2 = .error failure →
        ∃ d ∈ (run settings releases files ⟨muted, before⟩).1.entries,
          d.level = .fatal ∧ d.category = .cycle ∧ d.message = failure.message := by
  have start : Thinned muted before [] ⟨[], before⟩ ⟨muted, before⟩ :=
    ⟨by rw [List.append_nil], by rw [List.filter_nil, List.append_nil]⟩
  obtain ⟨found, result, ended⟩ := inStepRun settings releases files _ _ _ _ _ start
  rw [List.nil_append] at ended
  have told := runIntoSame settings releases files
  refine ⟨found, ?_, ?_, ?_, fun failure => runTold settings releases⟩
  · rw [told, Prod.fst_swap, ended.all]
  · rw [told, Prod.fst_swap, ended.kept]
  · rw [told, told, Prod.snd_swap, Prod.snd_swap, result]

theorem sampleMuted : ∃ found, (run {} [] circularFiles {}).1 = ⟨[], found⟩ ∧
    ∃ d ∈ found.filter (fun d => d.level = .fatal ∨ d.category.name ∉ ["cycle", "no_doc"]), d.category = .cycle := by
  obtain ⟨found, all, kept, result, told⟩ := mutedRun {} [] circularFiles ["cycle", "no_doc"] []
  have circular : (((draft {} circularFiles).value.toGraph false).value.firstCycle? true []
      ((draft {} circularFiles).value.toGraph false).value.names) = some ("Panel", ["Window", "Dock", "Window"]) := by cbv
  obtain ⟨d, hd, -, cycle, -⟩ := told _ (completeFails {} [] circular)
  rw [kept] at hd
  exact ⟨found, all, d, hd, cycle⟩

end Run
end ClassDocs
