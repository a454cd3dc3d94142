import ClassDocs.Proofs.Aggregation.Records
import ClassDocs.Proofs.Run.WellFormed

/-! Members through a whole run. When nothing asks to be left out, every member that was declared
is in the result, in the class its own class ends up in, and nothing else is there but what the
refinements wrote. -/
namespace ClassDocs
open Registry

def Unmarked (files : List FileResult) : Prop :=
  ∀ f ∈ files, ∀ d ∈ f.records, d.ignored = false ∧ d.info.ignore = false

/-- The name of a member in the result; `lowers` tells whether the event convention applies. -/
def Declaration.shownName (lowers : Bool) (d : Declaration) : String :=
  if lowers && d.kind == .event then Text.lower d.name else d.name

/-- The class of a member, which is the global one for a loose member. -/
def Placement.className (p : Placement) : String := p.destination.getD globalName

structure ClassEntry.Spared (e : ClassEntry) : Prop where
  ignored : e.record.ignored = false
  marked : e.record.info.ignore = false
  members : ∀ o ∈ e.outlines, o.ignored = false ∧ o.marked = false

theorem memPlacedMembers {files : List FileResult} {className : String} {d : Declaration} :
    d ∈ placedMembers files className ↔
      ∃ p ∈ placements files, p.className = className ∧ p.record.ownedBy className = d := by
  have inGlobal : d ∈ (if className = globalName then looseMembers files else []).map (·.ownedBy className) ↔
      ∃ p ∈ placements files, p.destination = none ∧ className = globalName ∧ p.record.ownedBy className = d := by
    split
    · rename_i isGlobal
      simp [looseMembers, isGlobal, and_assoc]
    · rename_i other
      simp [other]
  rw [placedMembers, List.map_append, List.mem_append, inGlobal]
  simp only [List.mem_map, List.mem_filter, Placement.isFor, beq_iff_eq]
  constructor
  · rintro (⟨_, ⟨p, ⟨hp, meant⟩, rfl⟩, rfl⟩ | ⟨p, hp, loose, rfl, rfl⟩)
    · exact ⟨p, hp, by simp [Placement.className, meant], rfl⟩
    · exact ⟨p, hp, by simp [Placement.className, loose], rfl⟩
  · rintro ⟨p, hp, same, rfl⟩
    cases target : p.destination with
    | none => exact Or.inr ⟨p, hp, target, by simpa [Placement.className, target] using same.symm, rfl⟩
    | some other =>
      have meant : other = className := by simpa [Placement.className, target] using same
      exact Or.inl ⟨p.record, ⟨p, ⟨hp, by rw [target, meant]⟩, rfl⟩, rfl⟩

theorem placedRecord {before records : List Declaration} {p : Placement} (hp : p ∈ placementsAfter before records) :
    p.record ∈ records := by
  induction records generalizing before with
  | nil => simp [placementsAfter] at hp
  | cons d rest ih =>
    rcases List.mem_append.mp hp with here | later
    · split at here
      · contradiction
      · cases List.mem_singleton.mp here
        exact List.mem_cons_self
    · exact List.mem_cons_of_mem _ (ih later)

theorem placementUnmarked {files : List FileResult} (unmarked : Unmarked files) {p : Placement} (hp : p ∈ placements files) :
    p.record.ignored = false ∧ p.record.info.ignore = false := by
  obtain ⟨f, hf, placed⟩ := List.mem_flatMap.mp hp
  exact unmarked f hf p.record (placedRecord placed)

theorem aggregateMember {files : List FileResult} {className : String} {e : ClassEntry}
    (found : (aggregate files).value.get? className = some e) {m : Declaration} :
    m ∈ e.members ↔ ∃ p ∈ placements files, p.className = className ∧ p.record.ownedBy className = m := by
  have members : e.members = placedMembers files className := by
    rw [← membersOfAggregate, membersOf, found]
    rfl
  rw [members, memPlacedMembers]

theorem unmarkedLasting : Declaration.Lasting fun d => d.ignored = false ∧ d.info.ignore = false where
  made _ := ⟨rfl, rfl⟩
  reopened old new unmarkedOld unmarkedNew := ⟨unmarkedOld.1, by simp [Declaration.reopen, unmarkedOld.2, unmarkedNew.2]⟩
  described _ _ unmarked := unmarked

theorem aggregateSpared {files : List FileResult} (unmarked : Unmarked files) :
    (aggregate files).value.All fun _ e => e.Spared := by
  intro key e found
  obtain ⟨ignored, marked⟩ := aggregateRecords unmarkedLasting (fun f hf d hd _ => unmarked f hf d hd) key e found
  refine ⟨ignored, marked, fun o ho => ?_⟩
  obtain ⟨m, hm, rfl⟩ := List.mem_map.mp ho
  obtain ⟨p, hp, -, rfl⟩ := (aggregateMember found).mp hm
  exact placementUnmarked unmarked hp

namespace Outline

def renamed (lowers : Bool) (o : Outline) : Outline :=
  { o with name := if lowers && o.kind == .event then Text.lower o.name else o.name }

theorem refinedUnmarked (lowers : Bool) {o : Outline} (shown : o.ignored = false) (unmarked : o.marked = false) :
    o.refined lowers false = o.renamed lowers := by
  cases o
  cases shown
  cases unmarked
  simp [refined, marks, lowered, renamed]

end Outline

section Refined
variable {settings : Settings} {files : List FileResult} (unmarked : Unmarked files)
include unmarked

theorem refinedOutlines {key : String} {e : ClassEntry} (found : (refinedRegistry settings files).get? key = some e) :
    ∃ e₀ added, (aggregate files).value.get? key = some e₀ ∧ e.record.ignored = false ∧ e.record.info.ignore = false ∧
      e.outlines = e₀.outlines.map (·.renamed (lowersEvents settings files)) ++ added ∧ ∀ o ∈ added, o.Generated key := by
  rw [refinedRegistry, OrderedMap.getMap] at found
  obtain ⟨e₀, known, rfl⟩ := Option.map_eq_some_iff.mp found
  have spared := aggregateSpared unmarked key e₀ known
  have owns := aggregateOwns files key e₀ known
  obtain ⟨-, ignored, marked, -, added, outlines, generated⟩ :=
    ClassEntry.refinedTo (lowersEvents settings files) (owns.named ▸ owns)
  refine ⟨e₀, added, known, ?_, marked.trans spared.marked, ?_, owns.named ▸ generated⟩
  · rw [ignored, spared.ignored, spared.marked]
    rfl
  · rw [outlines, spared.ignored, spared.marked]
    congr 1
    refine List.map_congr_left fun o ho => ?_
    exact Outline.refinedUnmarked _ (spared.members o ho).1 (spared.members o ho).2

theorem refinedSpared : (refinedRegistry settings files).All fun _ e => e.Spared := by
  intro key e found
  obtain ⟨e₀, added, known, ignored, marked, outlines, generated⟩ := refinedOutlines unmarked found
  refine ⟨ignored, marked, fun o ho => ?_⟩
  rw [outlines] at ho
  rcases List.mem_append.mp ho with old | new
  · obtain ⟨original, there, rfl⟩ := List.mem_map.mp old
    exact (aggregateSpared unmarked key e₀ known).members original there
  · exact ⟨(generated o new).shown, (generated o new).unmarked⟩

variable (settings) in
theorem refinedKeeps {p : Placement} (hp : p ∈ placements files) :
    ∃ e, (refinedRegistry settings files).get? p.className = some e ∧
      ∃ o ∈ e.outlines, o.kind = p.record.kind ∧ o.name = p.record.shownName (lowersEvents settings files) := by
  have member : p.record.ownedBy p.className ∈ (aggregate files).value.membersOf p.className := by
    rw [membersOfAggregate, memPlacedMembers]
    exact ⟨p, hp, rfl, rfl⟩
  cases known : (aggregate files).value.get? p.className with
  | none => simp [membersOf, known] at member
  | some e₀ =>
    have found : (refinedRegistry settings files).get? p.className = some (e₀.refined (lowersEvents settings files)) := by
      rw [refinedRegistry, OrderedMap.getMap, known]
      rfl
    obtain ⟨e₁, added, known₁, -, -, outlines, -⟩ := refinedOutlines unmarked found
    cases known.symm.trans known₁
    have there : (p.record.ownedBy p.className).outline ∈ e₀.outlines :=
      List.mem_map.mpr ⟨_, (aggregateMember known).mpr ⟨p, hp, rfl, rfl⟩, rfl⟩
    refine ⟨_, found, _, outlines ▸ List.mem_append_left _ (List.mem_map.mpr ⟨_, there, rfl⟩), rfl, rfl⟩

theorem refinedOrigin {key : String} {e : ClassEntry} (found : (refinedRegistry settings files).get? key = some e)
    {o : Outline} (ho : o ∈ e.outlines) (written : o.autogenerated = false) :
    ∃ p ∈ placements files, p.className = key ∧ o.kind = p.record.kind ∧
      o.name = p.record.shownName (lowersEvents settings files) := by
  obtain ⟨e₀, added, known, -, -, outlines, generated⟩ := refinedOutlines unmarked found
  rw [outlines] at ho
  rcases List.mem_append.mp ho with old | new
  · obtain ⟨original, there, rfl⟩ := List.mem_map.mp old
    obtain ⟨m, hm, rfl⟩ := List.mem_map.mp there
    obtain ⟨p, hp, same, rfl⟩ := (aggregateMember known).mp hm
    exact ⟨p, hp, same, rfl, rfl⟩
  · rw [(generated o new).autogenerated] at written
    contradiction

theorem draftSpared {key : String} {e : ClassEntry} (found : (draft settings files).value.registry.get? key = some e) :
    e.Spared := by
  have took := (draftClass found).took
  have start : (refinedEntry settings files key).Spared :=
    refinedEntryCases (P := ClassEntry.Spared) ⟨rfl, rfl, by simp [ClassEntry.outlines]⟩ (refinedSpared unmarked key)
  obtain ⟨added, outlines, origin⟩ := took.outlines
  refine ⟨took.ignored.trans start.ignored, took.marked.trans start.marked, fun o ho => ?_⟩
  rw [outlines] at ho
  rcases List.mem_append.mp ho with old | new
  · exact start.members o old
  · obtain ⟨source, hs, m, hm, -, rfl⟩ := origin o new
    obtain ⟨name, known, -⟩ := memSourcesOf.mp hs
    exact (refinedSpared unmarked name source known).members m.outline (List.mem_map.mpr ⟨m, hm, rfl⟩)

variable (settings) in
theorem draftKeeps {p : Placement} (hp : p ∈ placements files) {last : String}
    (leads : (aggregate files).value.LeadsTo p.className last) :
    ∃ e, (draft settings files).value.registry.get? last = some e ∧
      ∃ o ∈ e.outlines, o.kind = p.record.kind ∧ o.name = p.record.shownName (lowersEvents settings files) := by
  obtain ⟨e₀, known, o, ho, kind, name⟩ := refinedKeeps settings unmarked hp
  have leads := (leadsToRefined settings files).mpr leads
  have named := namedRefinedRegistry settings files
  by_cases isOverride : ((refinedRegistry settings files).overrideTarget? p.className).isSome
  · have source : e₀ ∈ (refinedRegistry settings files).sourcesOf last := memSourcesOf.mpr
      ⟨p.className, known, (refinedSpared unmarked _ e₀ known).ignored, isOverride, leads⟩
    obtain ⟨e, found⟩ := Draft.foldOverridesKeep (d := ⟨refinedRegistry settings files, settings.externalClasses⟩) named
      (leadsToNothing leads) (Or.inr (List.ne_nil_of_mem source))
    rw [← draftValue] at found
    obtain ⟨m, hm, rfl⟩ := List.mem_map.mp ho
    obtain ⟨o, ho, kind', name'⟩ := (draftClass found).took.taken e₀ source m hm
      ((refinedSpared unmarked _ e₀ known).members m.outline (List.mem_map.mpr ⟨m, hm, rfl⟩)).1
    exact ⟨e, found, o, ho, kind'.trans kind, name'.trans name⟩
  · have same : last = p.className := leadsToItself leads (by simpa using isOverride)
    subst same
    obtain ⟨e, found⟩ := Draft.foldOverridesKeep (d := ⟨refinedRegistry settings files, settings.externalClasses⟩) named
      (leadsToNothing leads) (Or.inl (by simp [known]))
    rw [← draftValue] at found
    obtain ⟨added, outlines, -⟩ := (draftClass found).took.outlines
    rw [refinedEntry, known] at outlines
    exact ⟨e, found, o, outlines ▸ List.mem_append_left _ ho, kind, name⟩

theorem draftOrigin {key : String} {e : ClassEntry} (found : (draft settings files).value.registry.get? key = some e)
    {o : Outline} (ho : o ∈ e.outlines) (written : o.autogenerated = false) :
    ∃ p ∈ placements files, o.kind = p.record.kind ∧ o.name = p.record.shownName (lowersEvents settings files) ∧
      (aggregate files).value.LeadsTo p.className key := by
  obtain ⟨overridesNothing, took, -, -, -⟩ := draftClass found
  obtain ⟨added, outlines, origin⟩ := took.outlines
  rw [outlines] at ho
  rcases List.mem_append.mp ho with old | new
  · cases known : (refinedRegistry settings files).get? key with
    | none => simp [refinedEntry, known, ClassEntry.outlines] at old
    | some e₀ =>
      rw [refinedEntry, known] at old
      obtain ⟨p, hp, rfl, kind, name⟩ := refinedOrigin unmarked known old written
      exact ⟨p, hp, kind, name, .here overridesNothing⟩
  · obtain ⟨source, hs, m, hm, -, rfl⟩ := origin o new
    obtain ⟨overriding, known, -, -, leads⟩ := memSourcesOf.mp hs
    obtain ⟨p, hp, rfl, kind, name⟩ := refinedOrigin unmarked known (List.mem_map.mpr ⟨m, hm, rfl⟩) written
    exact ⟨p, hp, kind, name, (leadsToRefined settings files).mp leads⟩

end Refined

section Run
variable {settings : Settings} {releases : List Release} {files : List FileResult} {sink : Sink} {graph : ClassGraph}

/-- No declared member is lost, and none is invented. -/
theorem runMembers (unmarked : Unmarked files) (keepsGlobal : settings.dropGlobalClass = false)
    (result : (run settings releases files sink).2 = .ok graph) :
    (∀ p ∈ placements files, ∀ last, (aggregate files).value.LeadsTo p.className last →
      ∃ c, graph.get? last = some c ∧ ∃ m ∈ c.members,
        m.kind = p.record.kind ∧ m.name = p.record.shownName (lowersEvents settings files)) ∧
    ∀ key c, graph.get? key = some c → ∀ m ∈ c.members, m.info.autogenerated = false →
      ∃ p ∈ placements files, m.kind = p.record.kind ∧ m.name = p.record.shownName (lowersEvents settings files) ∧
        (aggregate files).value.LeadsTo p.className key := by
  constructor
  · intro p hp last leads
    obtain ⟨e, entry, o, ho, kind, name⟩ := draftKeeps settings unmarked hp leads
    have spared := draftSpared unmarked entry
    obtain ⟨c, found, same⟩ := runClassOf result entry spared.ignored fun _ => keepsGlobal
    have there : o ∈ c.outline.members := same ▸ memVisible.mpr ⟨ho, (spared.members o ho).1⟩
    obtain ⟨m, hm, rfl⟩ := memOutline.mp there
    exact ⟨c, found, m, hm, kind, name⟩
  · intro key c found m hm written
    obtain ⟨e, entry, outline, -⟩ := runMember result found hm
    exact draftOrigin unmarked entry outline written

theorem sampleOverride : Unmarked sampleFiles ∧ ∃ graph, (run {} [] sampleFiles {}).2 = .ok graph ∧
    (aggregate sampleFiles).value.LeadsTo "TouchButton" "Button" ∧
    ∃ c, graph.get? "Button" = some c ∧ ∃ m ∈ c.members, m.kind = .event ∧ m.name = "Tap" := by
  have unmarked : Unmarked sampleFiles := by simp [Unmarked, sampleFiles]
  have leads : (aggregate sampleFiles).value.LeadsTo "TouchButton" "Button" := .next (by decide) (.here (by decide))
  have placed : ⟨some "TouchButton", { kind := .event, name := "Tap", files := [⟨"button.js", 16⟩] }⟩ ∈
      placements sampleFiles := by
    simp [placements, sampleFiles, placementsAfter, nearestClass?]
  have keepsCase : lowersEvents {} sampleFiles = false := by decide
  obtain ⟨graph, result⟩ := (runPasses {} [] sampleFiles {}).mpr (by cbv)
  obtain ⟨c, found, m, hm, kind, name⟩ := (runMembers unmarked rfl result).1 _ placed "Button" leads
  rw [keepsCase] at name
  exact ⟨unmarked, graph, result, leads, c, found, m, hm, kind, name⟩

end Run
end ClassDocs
