import Mathlib.Data.List.Permutation
import ClassDocs.Run
import ClassDocs.Proofs.Overrides.Folding
import ClassDocs.Proofs.Registry.Enumerations
import ClassDocs.Proofs.Text.Lowering

/-! Refinements done twice. What a refinement leaves behind is what it would make of it again: marks
are set, accessors are there, events have their names, every value of an enumeration has its
property, and no override is left. -/
namespace ClassDocs

namespace ClassEntry

theorem markIgnoredTwice (e : ClassEntry) : e.markIgnored.markIgnored = e.markIgnored := by
  simp [markIgnored, Bool.or_assoc]

theorem addMissingAdds (members : List Declaration) (d : Declaration) :
    (addMissing members d).any (·.isFor d.kind d.name) = true := by
  unfold addMissing
  split
  · assumption
  · simp [Declaration.isFor]

theorem foldAddMissingAdds (members : List Declaration) {wanted : List Declaration} {d : Declaration} (h : d ∈ wanted) :
    (wanted.foldl addMissing members).any (·.isFor d.kind d.name) = true := by
  induction wanted generalizing members with
  | nil => contradiction
  | cons first rest ih =>
    rcases List.mem_cons.mp h with rfl | later
    · obtain ⟨added, fold, -⟩ := foldAddMissing (addMissing members d) rest
      rw [List.foldl_cons, fold, List.any_append, addMissingAdds, Bool.true_or]
    · exact ih (addMissing members first) later

theorem foldAddMissingKnown {members wanted : List Declaration}
    (known : ∀ d ∈ wanted, members.any (·.isFor d.kind d.name) = true) : wanted.foldl addMissing members = members := by
  induction wanted with
  | nil => rfl
  | cons d rest ih =>
    have same : addMissing members d = members := by rw [addMissing, if_pos (known d List.mem_cons_self)]
    rw [List.foldl_cons, same, ih fun x hx => known x (List.mem_cons_of_mem _ hx)]

theorem accessorsNoCfg {cfg d : Declaration} {className : String} (h : d ∈ cfg.accessors className) : d.isAccessor = false := by
  simp only [Declaration.accessors, List.cons_append, List.nil_append, List.mem_cons] at h
  rcases h with rfl | rfl | event
  · rfl
  · rfl
  · split at event
    · cases List.mem_singleton.mp event
      rfl
    · contradiction

theorem withAccessorsTwice (e : ClassEntry) : e.withAccessors.withAccessors = e.withAccessors := by
  by_cases ignored : e.record.ignored = true
  · simp only [withAccessors, ignored, if_true]
  · obtain ⟨added, fold, source⟩ := foldAddMissing e.members ((e.members.filter (·.isAccessor)).flatMap (·.accessors e.name))
    have once : e.withAccessors = { e with members := e.members ++ added } := by
      rw [withAccessors, if_neg ignored]
      exact congrArg (ClassEntry.mk e.record) fold
    have noCfg : added.filter (·.isAccessor) = [] := by
      rw [List.filter_eq_nil_iff]
      intro d hd
      obtain ⟨cfg, -, made⟩ := List.mem_flatMap.mp (source d hd)
      rw [accessorsNoCfg made]
      nofun
    rw [once, withAccessors, if_neg ignored]
    simp only [List.filter_append, noCfg, List.append_nil]
    refine congrArg (ClassEntry.mk e.record) (foldAddMissingKnown fun d hd => ?_)
    rw [← fold]
    exact foldAddMissingAdds e.members hd

theorem conventionalEventTwice (d : Declaration) : d.conventionalEvent.conventionalEvent = d.conventionalEvent := by
  have present : (if d.info.params.any (·.name == optionsParam.name) then d.info.params
      else d.info.params ++ [optionsParam]).any (·.name == optionsParam.name) = true := by
    split
    · assumption
    · simp
  simp only [Declaration.conventionalEvent, Text.lowerLowered, present, if_true]

theorem withEventConventionTwice (e : ClassEntry) :
    e.withEventConvention.withEventConvention = e.withEventConvention := by
  by_cases ignored : e.record.ignored = true
  · simp only [withEventConvention, ignored, if_true]
  · simp only [withEventConvention, ignored, Bool.false_eq_true, if_false, List.map_map]
    refine congrArg (ClassEntry.mk e.record) (List.map_congr_left fun m _ => ?_)
    by_cases event : m.isEvent = true
    · have still : m.conventionalEvent.isEvent = true := event
      simp only [Function.comp, event, still, if_true, conventionalEventTwice]
    · simp only [Function.comp, event, Bool.false_eq_true, if_false]

end ClassEntry

namespace Registry

theorem withEventConventionTwice (mode : EventMode) (r : Registry) :
    withEventConvention mode (r.withEventConvention mode) = r.withEventConvention mode := by
  by_cases applies : r.eventConventionApplies mode = true
  · have still : eventConventionApplies mode (r.map ClassEntry.withEventConvention) = true := by
      rwa [eventConventionRecords fun e => by rw [ClassEntry.recordEvents]]
    simp only [withEventConvention, applies, still, if_true]
    exact OrderedMap.mapTwice ClassEntry.withEventConventionTwice r
  · simp only [withEventConvention, applies, Bool.false_eq_true, if_false]

theorem withEnumsTwice (r : Registry) : (withEnums r.withEnums.value).value = r.withEnums.value := by
  simp only [withEnums, OrderedMap.mapMap]
  exact congrArg r.map (funext ClassEntry.withEnumTwice)

end Registry

theorem Draft.foldOverridesTwice {d : Draft} (named : d.registry.Named) :
    d.foldOverrides.value.foldOverrides.value = d.foldOverrides.value := by
  conv => lhs; rw [foldOverrides, noOverridesLeft named]
  rfl

/-- Every refinement is done once for all: a second time it finds nothing left to do. -/
theorem refinementTwice (settings : Settings) (step : Refinement) {d : Draft} (named : d.registry.Named) :
    (step.apply settings (step.apply settings d).value).value = (step.apply settings d).value := by
  cases step with
  | ignoring => exact congrArg (Draft.mk · d.externals) (OrderedMap.mapTwice ClassEntry.markIgnoredTwice d.registry)
  | accessors => exact congrArg (Draft.mk · d.externals) (OrderedMap.mapTwice ClassEntry.withAccessorsTwice d.registry)
  | events => exact congrArg (Draft.mk · d.externals) (d.registry.withEventConventionTwice settings.eventMode)
  | enums => exact congrArg (Draft.mk · d.externals) d.registry.withEnumsTwice
  | overrides => exact Draft.foldOverridesTwice named

/- An enumeration with one of its values written out, and an override of it. -/
def alignDraft : Draft where
  registry := Registry.insertEntry (Registry.insertEntry .empty
    ⟨{ kind := .classKind, name := "Align", files := [⟨"align.js", 1⟩],
       info := { classInfo := { enumSpec := some { values := some (.array [.ofString "left", .ofString "right"]) } } } },
     [{ kind := .property, name := "right", owner := some "Align", files := [⟨"align.js", 4⟩] }]⟩)
    ⟨{ kind := .classKind, name := "AlignPatch", files := [⟨"patch.js", 1⟩],
       info := { classInfo := { overrideTarget := some "Align" } } },
     [{ kind := .property, name := "center", owner := some "AlignPatch", files := [⟨"patch.js", 3⟩] }]⟩
  externals := .empty

theorem alignTwice : alignDraft.registry.Named ∧
    (Refinement.enums.apply {} alignDraft).value.registry.members.map Declaration.name = ["right", "left", "center"] ∧
    (Refinement.enums.apply {} (Refinement.enums.apply {} alignDraft).value).value = (Refinement.enums.apply {} alignDraft).value ∧
    (Refinement.overrides.apply {} alignDraft).value.registry.keys = ["Align"] ∧
    (Refinement.overrides.apply {} (Refinement.overrides.apply {} alignDraft).value).value =
      (Refinement.overrides.apply {} alignDraft).value := by
  have named : alignDraft.registry.Named := OrderedMap.allInsert (OrderedMap.allInsert OrderedMap.allEmpty rfl) rfl
  refine ⟨named, ?_, refinementTwice {} .enums named, ?_, refinementTwice {} .overrides named⟩
  · decide
  · cbv

end ClassDocs
