import ClassDocs.Run
import ClassDocs.Proofs.Overrides.Sparing

/-! Ignored declarations through all refinements. Marking, accessors and the event convention never touch them;
enumerations and overrides do, wherever they have something to add to one. -/
namespace ClassDocs

theorem Registry.takeAllKnown (className : String) (e : ClassEntry) (sources : List ClassEntry) :
    takeAll className (some e) sources = some (sources.foldl ClassEntry.foldOverride e) := by
  induction sources generalizing e with
  | nil => rfl
  | cons source rest ih => exact ih (e.foldOverride source)

theorem Draft.getFolded {d : Draft} (named : d.registry.Named) {className : String} {e : ClassEntry}
    (known : d.registry.get? className = some e) (last : className ∉ d.registry.overrideNames) :
    d.foldOverrides.value.registry.get? className = some ((d.registry.sourcesOf className).foldl ClassEntry.foldOverride e) := by
  rw [(foldOverridesByName named).1, if_neg last, known, Registry.takeAllKnown]

/-- Every class leaves its ignored declarations as they were, or is an override and gone. -/
def Registry.Spares (before after : Registry) : Prop := ∀ className e, before.get? className = some e →
  (∃ e', after.get? className = some e' ∧ e.Spares e') ∨
    (before.overrideTarget? className).isSome = true ∧ after.get? className = none

theorem Registry.sparesMap {r : Registry} {f : ClassEntry → ClassEntry} :
    Registry.Spares r (r.map f) ↔ ∀ className e, r.get? className = some e → e.Spares (f e) := by
  have after {className : String} {e : ClassEntry} (known : r.get? className = some e) :
      (r.map f).get? className = some (f e) := by rw [OrderedMap.getMap, known, Option.map_some]
  constructor
  · intro spares className e known
    rcases spares className e known with ⟨e', there, spared⟩ | ⟨-, gone⟩
    · cases Option.some.inj ((after known).symm.trans there)
      exact spared
    · cases (after known).symm.trans gone
  · exact fun spares className e known => Or.inl ⟨f e, after known, spares className e known⟩

theorem Registry.sparesEvents (r : Registry) (mode : EventMode) : Registry.Spares r (r.withEventConvention mode) := by
  unfold withEventConvention
  split
  · exact sparesMap.mpr fun _ e _ => e.sparesEvents
  · exact fun className e known => Or.inl ⟨e, known, e.sparesSame⟩

/- Only a class that stays can have ignored declarations that overrides come upon. -/
theorem Draft.sparesOverrides {d : Draft} (named : d.registry.Named) :
    Registry.Spares d.registry d.foldOverrides.value.registry ↔ ∀ className e, d.registry.get? className = some e →
      ∀ source ∈ d.registry.sourcesOf className, e.TakesShown source := by
  constructor
  · intro spares className e known source hs
    have last : className ∉ d.registry.overrideNames := fun isOverride => by
      rw [Registry.sourcesOf, Registry.sourcesAmongOverride (Registry.memOverrideNames.mp isOverride)] at hs
      contradiction
    rcases spares className e known with ⟨e', after, spared⟩ | ⟨isOverride, -⟩
    · cases Option.some.inj ((getFolded named known last).symm.trans after)
      exact (e.sparesFolded _).mp spared source hs
    · exact absurd (Registry.memOverrideNames.mpr isOverride) last
  · intro shown className e known
    by_cases isOverride : className ∈ d.registry.overrideNames
    · have gone : d.foldOverrides.value.registry.get? className = none := by
        rw [(foldOverridesByName named).1, if_pos isOverride]
      exact Or.inr ⟨Registry.memOverrideNames.mp isOverride, gone⟩
    · exact Or.inl ⟨_, getFolded named known isOverride, (e.sparesFolded _).mpr (shown className e known)⟩

/-- Where a refinement would meet ignored declarations, it has nothing to add to them. -/
def Refinement.LeavesIgnored (step : Refinement) (r : Registry) : Prop :=
  match step with
  | .ignoring | .accessors | .events => True
  | .enums => ∀ className e, r.get? className = some e → e.ValuesShown
  | .overrides => ∀ className e, r.get? className = some e → ∀ source ∈ r.sourcesOf className, e.TakesShown source

/-- A refinement leaves ignored declarations alone exactly if an enumeration has no value for an ignored property without
a default, and an override nothing for an ignored class or member. -/
theorem sparesIgnored (settings : Settings) (step : Refinement) {d : Draft} (named : d.registry.Named) :
    Registry.Spares d.registry (step.apply settings d).value.registry ↔ step.LeavesIgnored d.registry := by
  cases step with
  | ignoring => exact iff_of_true (Registry.sparesMap.mpr fun _ e _ => e.sparesMark) trivial
  | accessors => exact iff_of_true (Registry.sparesMap.mpr fun _ e _ => e.sparesAccessors) trivial
  | events => exact iff_of_true (d.registry.sparesEvents settings.eventMode) trivial
  | enums =>
    change Registry.Spares d.registry ((d.registry.map ClassEntry.withEnum).map Reported.value) ↔ _
    rw [OrderedMap.mapMap, Registry.sparesMap]
    exact forall₂_congr fun _ e => forall_congr' fun _ => e.sparesEnum
  | overrides => exact Draft.sparesOverrides named

def hiddenDraw : Declaration :=
  { kind := .method, name := "draw", owner := some "Panel", files := [⟨"panel.js", 3⟩], ignored := true }

def hiddenEntry : ClassEntry where
  record := { kind := .classKind, name := "Hidden", files := [⟨"hidden.js", 1⟩], ignored := true }

def panelEntry : ClassEntry where
  record := { kind := .classKind, name := "Panel", files := [⟨"panel.js", 1⟩] }
  members := [hiddenDraw, { kind := .method, name := "move", owner := some "Panel", files := [⟨"panel.js", 7⟩] }]

/- An override of one of the two classes, with one method. -/
def patchEntry (target method : String) : ClassEntry where
  record := { kind := .classKind, name := "Patch", files := [⟨"patch.js", 1⟩],
              info := { classInfo := { overrideTarget := some target } } }
  members := [{ kind := .method, name := method, owner := some "Patch", files := [⟨"patch.js", 3⟩] }]

def patchedDraft (target method : String) : Draft where
  registry := Registry.insertEntry (Registry.insertEntry (Registry.insertEntry .empty hiddenEntry) panelEntry)
    (patchEntry target method)
  externals := .empty

theorem patchedNamed (target method : String) : (patchedDraft target method).registry.Named :=
  OrderedMap.allInsert (OrderedMap.allInsert (OrderedMap.allInsert OrderedMap.allEmpty rfl) rfl) rfl

theorem patchedEntries {target method className : String} {e : ClassEntry}
    (known : (patchedDraft target method).registry.get? className = some e) :
    className = "Patch" ∧ e = patchEntry target method ∨ className = "Panel" ∧ e = panelEntry ∨
      className = "Hidden" ∧ e = hiddenEntry := by
  simp only [patchedDraft, Registry.insertEntry, OrderedMap.getInsert] at known
  split at known
  · cases known
    exact Or.inl ⟨‹_›, rfl⟩
  · split at known
    · cases known
      exact Or.inr (Or.inl ⟨‹_›, rfl⟩)
    · split at known
      · cases known
        exact Or.inr (Or.inr ⟨‹_›, rfl⟩)
      · contradiction

/- The override ends at the class that it names, if that is no override itself. -/
theorem patchedSources (target method : String)
    (last : (patchedDraft target method).registry.overrideTarget? target = none) (className : String) :
    (patchedDraft target method).registry.sourcesOf className =
      if target = className then [patchEntry target method] else [] := by
  have next : (patchedDraft target method).registry.overrideTarget? "Patch" = some target := rfl
  have listed : "Patch" ∈ (patchedDraft target method).registry.keys := List.mem_of_elem_eq_true rfl
  have ending : (patchedDraft target method).registry.overrideEnd? "Patch" = some target := by
    rw [Registry.overrideEnd?, next, Option.bind_some, Registry.chainEnd?, next]
    simp only [listed, if_true]
    rw [Registry.chainEnd?, last]
  have names : (patchedDraft target method).registry.overrideNames = ["Patch"] := rfl
  rw [Registry.sourcesOf, names, Registry.sourcesAmong, List.filterMap_cons, ending]
  by_cases same : target = className
  · rw [if_pos (congrArg some same), if_pos same]
    rfl
  · rw [if_neg (fun h => same (Option.some.inj h)), if_neg same]
    rfl

theorem patchedSpares : (patchedDraft "Panel" "move").registry.Named ∧
    (patchedDraft "Panel" "move").registry.sourcesOf "Panel" = [patchEntry "Panel" "move"] ∧
    Registry.Spares (patchedDraft "Panel" "move").registry
      (Refinement.overrides.apply {} (patchedDraft "Panel" "move")).value.registry := by
  have sources := patchedSources "Panel" "move" rfl
  refine ⟨patchedNamed _ _, sources "Panel", (sparesIgnored {} .overrides (patchedNamed _ _)).mpr ?_⟩
  intro className e known source hs
  rw [sources] at hs
  rcases patchedEntries known with ⟨rfl, rfl⟩ | ⟨rfl, rfl⟩ | ⟨rfl, rfl⟩
  · contradiction
  · cases List.mem_singleton.mp hs
    refine ⟨fun ignored => by contradiction, fun member hm _ m found => ?_⟩
    cases List.mem_singleton.mp hm
    have move : m = { kind := .method, name := "move", owner := some "Panel", files := [⟨"panel.js", 7⟩] } := by
      cbv at found
      exact (Option.some.inj found).symm
    rw [move]
  · contradiction

/- An enumeration whose only value is written out, but ignored. -/
def ignoredValue : Draft where
  registry := Registry.insertEntry .empty
    ⟨{ kind := .classKind, name := "Align", files := [⟨"align.js", 1⟩],
       info := { classInfo := { enumSpec := some { values := some (.array [.ofString "left"]) } } } },
     [{ kind := .property, name := "left", owner := some "Align", files := [⟨"align.js", 4⟩], ignored := true }]⟩
  externals := .empty

theorem notSpared {before after : Registry} {className : String} {e e' : ClassEntry} (known : before.get? className = some e)
    (there : after.get? className = some e') (changed : ¬e.Spares e') : ¬Registry.Spares before after := by
  intro spares
  rcases spares className e known with ⟨kept, same, spared⟩ | ⟨-, gone⟩
  · cases Option.some.inj (there.symm.trans same)
    exact changed spared
  · rw [there] at gone
    contradiction

theorem patchedChanged {target method : String} {e : ClassEntry}
    (known : (patchedDraft target method).registry.get? target = some e)
    (last : (patchedDraft target method).registry.overrideTarget? target = none)
    (meets : ¬e.TakesShown (patchEntry target method)) : ¬Registry.Spares (patchedDraft target method).registry
      (Refinement.overrides.apply {} (patchedDraft target method)).value.registry := by
  have folded := Draft.getFolded (patchedNamed target method) known (by simp [Registry.memOverrideNames, last])
  rw [patchedSources _ _ last, if_pos rfl] at folded
  exact notSpared known folded fun spares => meets ((e.sparesFolded _).mp spares _ List.mem_cons_self)

theorem ignoredChanged :
    ¬Registry.Spares ignoredValue.registry (Refinement.enums.apply {} ignoredValue).value.registry ∧
    ¬Registry.Spares (patchedDraft "Hidden" "move").registry
      (Refinement.overrides.apply {} (patchedDraft "Hidden" "move")).value.registry ∧
    ¬Registry.Spares (patchedDraft "Panel" "draw").registry
      (Refinement.overrides.apply {} (patchedDraft "Panel" "draw")).value.registry := by
  refine ⟨?_, ?_, ?_⟩
  · have align : ignoredValue.registry.get? "Align" = some _ := rfl
    refine notSpared align rfl fun spares => ?_
    have kept := spares.members 0 _ rfl rfl
    have default := congrArg (Option.map fun m => m.info.defaultText) kept
    change some (some "'left'") = some none at default
    contradiction
  · refine patchedChanged (e := hiddenEntry) rfl rfl fun shown => ?_
    have nowhere := (shown.record rfl).1
    contradiction
  · refine patchedChanged (e := panelEntry) rfl rfl fun shown => ?_
    have visible := shown.members _ List.mem_cons_self rfl hiddenDraw (by cbv)
    contradiction

end ClassDocs
