import ClassDocs.Proofs.Aggregation.Placement
import ClassDocs.Proofs.Graph.Building
import ClassDocs.Proofs.Graph.Outline

/-! The draft of a run. Its classes are the aggregated ones, each refined by itself, and then folded;
the result shows their outlines. -/
namespace ClassDocs
open Registry

def lowersEvents (settings : Settings) (files : List FileResult) : Bool :=
  eventConventionApplies settings.eventMode (aggregate files).value

def refinedRegistry (settings : Settings) (files : List FileResult) : Registry :=
  (aggregate files).value.map (ClassEntry.refined (lowersEvents settings files))

theorem refineValue (settings : Settings) (d : Draft) :
    (d.refine settings Refinement.all).value = (Draft.foldOverrides
      ⟨d.registry.map (ClassEntry.refined (eventConventionApplies settings.eventMode d.registry)), d.externals⟩).value := by
  have applies : eventConventionApplies settings.eventMode (withAccessors (markIgnored d.registry)) =
      eventConventionApplies settings.eventMode d.registry := by
    rw [withAccessors, eventConventionRecords fun e => by rw [ClassEntry.recordAccessors], markIgnored]
    exact eventConventionRecords fun _ => rfl
  have refined : (withEnums (withEventConvention settings.eventMode (withAccessors (markIgnored d.registry)))).value =
      d.registry.map (ClassEntry.refined (eventConventionApplies settings.eventMode d.registry)) := by
    rw [withEventConvention, applies, markIgnored, withAccessors, withEnums]
    split
    · rename_i lowers
      simp only [OrderedMap.mapMap, lowers]
      rfl
    · rename_i lowers
      simp only [OrderedMap.mapMap, Bool.not_eq_true] at lowers ⊢
      rw [lowers]
      rfl
  rw [← refined]
  simp only [Draft.refine, Reported.valueFoldlM, Refinement.all, List.foldl_cons, List.foldl_nil, Refinement.apply,
    Reported.valuePure, Reported.valueBind]

section Draft
variable (settings : Settings) (files : List FileResult)

theorem draftValue : (draft settings files).value =
    (Draft.foldOverrides ⟨refinedRegistry settings files, settings.externalClasses⟩).value :=
  refineValue settings ⟨(aggregate files).value, settings.externalClasses⟩

theorem ownsRefinedRegistry : (refinedRegistry settings files).All ClassEntry.Owns :=
  OrderedMap.allMap (aggregateOwns files) fun _ _ owns => ClassEntry.ownsRefined owns

theorem markedRefinedRegistry : (refinedRegistry settings files).All fun _ e => e.Marked :=
  OrderedMap.allMap (aggregateOwns files) fun _ _ owns => ClassEntry.markedRefined owns

theorem namedRefinedRegistry : (refinedRegistry settings files).Named :=
  fun key e found => (ownsRefinedRegistry settings files key e found).named

theorem overrideTargetRefined (name : String) :
    (refinedRegistry settings files).overrideTarget? name = (aggregate files).value.overrideTarget? name := by
  rw [overrideTarget?, overrideTarget?, refinedRegistry, OrderedMap.getMap]
  cases found : (aggregate files).value.get? name with
  | none => rfl
  | some e =>
    have owns := aggregateOwns files name e found
    exact (ClassEntry.refinedTo _ (owns.named ▸ owns)).overrideTarget

theorem leadsToRefined {name last : String} :
    (refinedRegistry settings files).LeadsTo name last ↔ (aggregate files).value.LeadsTo name last :=
  leadsToCongr (overrideTargetRefined settings files)

theorem externalsDraft {name : String} : name ∈ (draft settings files).value.externals.names ↔
    name ∈ settings.externalClasses.names ∨ ((aggregate files).value.overrideTarget? name).isSome := by
  rw [draftValue, Draft.externalsFoldOverrides (namedRefinedRegistry settings files), overrideTargetRefined]

end Draft

/-- The class before it takes in overrides, empty if only overrides speak of it. -/
def refinedEntry (settings : Settings) (files : List FileResult) (className : String) : ClassEntry :=
  ((refinedRegistry settings files).get? className).getD ⟨.emptyClass className, []⟩

theorem refinedEntryCases {settings : Settings} {files : List FileResult} {className : String} {P : ClassEntry → Prop}
    (made : P ⟨.emptyClass className, []⟩)
    (refined : ∀ e, (refinedRegistry settings files).get? className = some e → P e) : P (refinedEntry settings files className) := by
  rw [refinedEntry]
  cases known : (refinedRegistry settings files).get? className with
  | none => exact made
  | some e => exact refined e known

structure DraftClass (settings : Settings) (files : List FileResult) (className : String) (e : ClassEntry) : Prop where
  overridesNothing : (aggregate files).value.overrideTarget? className = none
  took : (refinedEntry settings files className).Took ((refinedRegistry settings files).sourcesOf className) e
  owns : e.Owns className
  marked : e.Marked
  target : e.record.info.classInfo.overrideTarget = none

variable {settings : Settings} {files : List FileResult}

theorem draftClass {className : String} {e : ClassEntry} (found : (draft settings files).value.registry.get? className = some e) :
    DraftClass settings files className e := by
  rw [draftValue] at found
  obtain ⟨last, took⟩ := Draft.foldOverridesTook (namedRefinedRegistry settings files) found
  have owns : (refinedEntry settings files className).Owns className :=
    refinedEntryCases (ClassEntry.ownsNothing (.emptyClass className)) (ownsRefinedRegistry settings files className)
  have marked : (refinedEntry settings files className).Marked :=
    refinedEntryCases (P := ClassEntry.Marked) ⟨nofun, by simp [ClassEntry.outlines]⟩
      (markedRefinedRegistry settings files className)
  have target := Draft.overridesNothing (namedRefinedRegistry settings files) found
  refine ⟨(overrideTargetRefined settings files className).symm.trans last, took, ?_, ?_, target⟩
  · refine ClassEntry.ownsTook took owns fun source hs => ?_
    obtain ⟨name, known, -⟩ := memSourcesOf.mp hs
    exact (ownsRefinedRegistry settings files name source known).members
  · refine ClassEntry.markedTook took marked fun source hs => ?_
    obtain ⟨name, known, -⟩ := memSourcesOf.mp hs
    exact markedRefinedRegistry settings files name source known

theorem namedDraft : (draft settings files).value.registry.Named := fun _ _ found => (draftClass found).owns.named

theorem completes {releases : List Release} {steps : List GraphStep} (safe : .cycles ∉ steps) (g : ClassGraph) :
    ∃ g', (g.complete settings releases steps).value = .ok g' := by
  induction steps generalizing g with
  | nil => exact ⟨g, rfl⟩
  | cons step rest ih =>
    obtain ⟨other, safe⟩ := not_or.mp (mt List.mem_cons.mpr safe)
    have applies : ∃ g₁, (step.apply settings releases g).value = .ok g₁ := by
      cases step with
      | cycles => exact absurd rfl other
      | _ => exact ⟨_, rfl⟩
    obtain ⟨g₁, applied⟩ := applies
    obtain ⟨g', completed⟩ := ih safe g₁
    refine ⟨g', ?_⟩
    rw [ClassGraph.complete, Reported.valueBind, applied]
    exact completed

theorem runPasses (settings : Settings) (releases : List Release) (files : List FileResult) (sink : Sink) :
    (∃ graph, (run settings releases files sink).2 = .ok graph) ↔
      (((draft settings files).value.toGraph settings.dropGlobalClass).value.checkCycles settings.checkMixinCycles).value
        = .ok () := by
  simp only [run, document, Reported.valueBind]
  generalize ((draft settings files).value.toGraph settings.dropGlobalClass).value = g
  rw [GraphStep.all, ClassGraph.complete, Reported.valueBind, GraphStep.apply, Reported.valueBind, Reported.valuePure]
  cases passed : (g.checkCycles settings.checkMixinCycles).value with
  | error failure => simp [Except.map]
  | ok => exact ⟨fun _ => rfl, fun _ => completes (by decide) g⟩

section Result
variable {releases : List Release} {sink : Sink} {graph : ClassGraph}
  (result : (run settings releases files sink).2 = .ok graph)
include result

theorem runOutline : ((draft settings files).value.toGraph settings.dropGlobalClass).value.SameOutline graph := by
  simp only [run, document, Reported.valueBind] at result
  exact ClassGraph.sameOutlineComplete result

theorem runClass {key : String} {c : ClassRecord} (found : graph.get? key = some c) :
    ∃ e, (draft settings files).value.registry.get? key = some e ∧ e.record.ignored = false ∧
      c.outline = e.visible.outline := by
  obtain ⟨c₀, known, same⟩ := ClassGraph.sameClass (runOutline result) found
  obtain ⟨e, entry, shown, -, rfl⟩ := (Draft.getToGraph namedDraft).mp known
  exact ⟨e, entry, shown, same⟩

theorem runClassOf {key : String} {e : ClassEntry} (entry : (draft settings files).value.registry.get? key = some e)
    (shown : e.record.ignored = false) (kept : key = globalName → settings.dropGlobalClass = false) :
    ∃ c, graph.get? key = some c ∧ c.outline = e.visible.outline := by
  have known := (Draft.getToGraph namedDraft).mpr ⟨e, entry, shown, kept, rfl⟩
  obtain ⟨c, found, same⟩ := ClassGraph.sameClass (ClassGraph.sameOutlineSymm (runOutline result)) known
  exact ⟨c, found, same.symm⟩

end Result
end ClassDocs
