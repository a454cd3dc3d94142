import ClassDocs.Proofs.Registry.Outline
import ClassDocs.Proofs.Overrides.Chains

/-! What folding does. A class takes in, one after another, the overrides that lead to it, and
these are gone; every other class stays as it is. -/
namespace ClassDocs

namespace ClassEntry

/-- The class `e` before and `e'` after it took in the sources. -/
structure Took (e : ClassEntry) (sources : List ClassEntry) (e' : ClassEntry) : Prop where
  name : e'.record.name = e.record.name
  ignored : e'.record.ignored = e.record.ignored
  marked : e'.record.info.ignore = e.record.info.ignore
  classInfo : e'.record.info.classInfo = e.record.info.classInfo
  outlines : ∃ added, e'.outlines = e.outlines ++ added ∧ ∀ o ∈ added, ∃ source ∈ sources, ∃ m ∈ source.members,
    m.ignored = false ∧ o = { m.outline with owner := some e.record.name }
  taken : ∀ source ∈ sources, ∀ m ∈ source.members, m.ignored = false →
    ∃ o ∈ e'.outlines, o.kind = m.kind ∧ o.name = m.name

theorem recordFoldMember (source : String) (e : ClassEntry) (m : Declaration) : (foldMember source e m).record = e.record := by
  unfold foldMember
  split
  · rfl
  · split <;> rfl

theorem outlinesFoldMember (source : String) (e : ClassEntry) (m : Declaration) :
    (foldMember source e m).outlines =
      if m.ignored || e.hasMember m.kind m.name then e.outlines
      else e.outlines ++ [{ m.outline with owner := some e.record.name }] := by
  unfold foldMember
  by_cases ignored : m.ignored = true
  · simp [ignored]
  · by_cases known : e.hasMember m.kind m.name = true
    · rw [if_neg ignored, if_pos known, if_pos (by simp [known])]
      refine Declaration.mapAlterFirst ?_ e.members
      exact fun _ => rfl
    · simp [ignored, known, outlines, push, Declaration.outline, Declaration.definedInOverride, Metadata.appendDoc]

theorem memberOutline {e : ClassEntry} {kind : Kind} {name : String} (h : e.hasMember kind name = true) :
    ∃ o ∈ e.outlines, o.kind = kind ∧ o.name = name := by
  obtain ⟨m, hm, same⟩ := List.any_eq_true.mp h
  exact ⟨m.outline, List.mem_map.mpr ⟨m, hm, rfl⟩, Declaration.isForIff.mp same⟩

theorem foldMembersTook (source : String) (e : ClassEntry) (ms : List Declaration) :
    (ms.foldl (foldMember source) e).record = e.record ∧
    (∃ added, (ms.foldl (foldMember source) e).outlines = e.outlines ++ added ∧
      ∀ o ∈ added, ∃ m ∈ ms, m.ignored = false ∧ o = { m.outline with owner := some e.record.name }) ∧
    ∀ m ∈ ms, m.ignored = false → ∃ o ∈ (ms.foldl (foldMember source) e).outlines, o.kind = m.kind ∧ o.name = m.name := by
  induction ms generalizing e with
  | nil => exact ⟨rfl, ⟨[], by simp⟩, by simp⟩
  | cons m rest ih =>
    obtain ⟨record, ⟨added, outlines, origin⟩, taken⟩ := ih (foldMember source e m)
    rw [recordFoldMember] at record origin
    rw [outlinesFoldMember] at outlines
    refine ⟨record, ?_, ?_⟩
    · split at outlines
      · refine ⟨added, outlines, fun o ho => ?_⟩
        obtain ⟨x, hx, shown, same⟩ := origin o ho
        exact ⟨x, List.mem_cons_of_mem _ hx, shown, same⟩
      · rename_i fresh
        refine ⟨{ m.outline with owner := some e.record.name } :: added, ?_, fun o ho => ?_⟩
        · rw [List.foldl_cons, outlines, List.append_assoc]
          rfl
        · rcases List.mem_cons.mp ho with rfl | later
          · have shown : m.ignored = false := Bool.eq_false_iff.mpr fun ignored => fresh (by simp [ignored])
            exact ⟨m, List.mem_cons_self, shown, rfl⟩
          · obtain ⟨x, hx, shown, same⟩ := origin o later
            exact ⟨x, List.mem_cons_of_mem _ hx, shown, same⟩
    · intro x hx shown
      rcases List.mem_cons.mp hx with rfl | later
      -- a member that is there already answers for the one that is left out
      · by_cases known : e.hasMember x.kind x.name = true
        · obtain ⟨o, ho, same⟩ := memberOutline known
          simp only [shown, known, Bool.or_true, if_true] at outlines
          exact ⟨o, by rw [List.foldl_cons, outlines]; exact List.mem_append_left _ ho, same⟩
        · refine ⟨{ x.outline with owner := some e.record.name }, ?_, rfl, rfl⟩
          rw [List.foldl_cons, outlines]
          simp [shown, known]
      · exact taken x later shown

theorem foldOverrideMembers (e source : ClassEntry) : ∃ doc, e.foldOverride source =
    source.members.foldl (foldMember source.name) { e with record :=
      { e.record with info := { e.record.info with doc }, files := e.record.files ++ source.record.files } } := by
  unfold foldOverride
  split
  · split
    · exact ⟨e.record.info.doc, rfl⟩
    · exact ⟨_, rfl⟩
  · exact ⟨e.record.info.doc, rfl⟩

theorem tookFold (e source : ClassEntry) : e.Took [source] (e.foldOverride source) := by
  obtain ⟨doc, fold⟩ := foldOverrideMembers e source
  obtain ⟨record, ⟨added, outlines, origin⟩, taken⟩ := foldMembersTook source.name { e with record :=
    { e.record with info := { e.record.info with doc }, files := e.record.files ++ source.record.files } } source.members
  rw [← fold] at record outlines taken
  refine ⟨by rw [record], by rw [record], by rw [record], by rw [record], ⟨added, outlines, fun o ho => ?_⟩, ?_⟩
  · exact ⟨source, List.mem_singleton.mpr rfl, origin o ho⟩
  · intro s hs
    cases List.mem_singleton.mp hs
    exact taken

theorem tookNothing (e : ClassEntry) : e.Took [] e := ⟨rfl, rfl, rfl, rfl, ⟨[], by simp⟩, by simp⟩

section Took
variable {key : String} {e e' e'' : ClassEntry} {sources more : List ClassEntry}

theorem tookMore (first : e.Took sources e') (second : e'.Took more e'') : e.Took (sources ++ more) e'' := by
  obtain ⟨added, outlines, origin⟩ := first.outlines
  obtain ⟨added', outlines', origin'⟩ := second.outlines
  refine ⟨second.name.trans first.name, second.ignored.trans first.ignored, second.marked.trans first.marked,
    second.classInfo.trans first.classInfo, ⟨added ++ added', ?_, fun o ho => ?_⟩, fun source hs m hm shown => ?_⟩
  · rw [outlines', outlines, List.append_assoc]
  · rcases List.mem_append.mp ho with old | new
    · obtain ⟨source, hs, rest⟩ := origin o old
      exact ⟨source, List.mem_append_left _ hs, rest⟩
    · obtain ⟨source, hs, rest⟩ := origin' o new
      exact ⟨source, List.mem_append_right _ hs, first.name ▸ rest⟩
  · rcases List.mem_append.mp hs with old | new
    · obtain ⟨o, ho, same⟩ := first.taken source old m hm shown
      exact ⟨o, by rw [outlines']; exact List.mem_append_left _ ho, same⟩
    · exact second.taken source new m hm shown

theorem ownsTook (took : e.Took sources e') (h : e.Owns key)
    (members : ∀ source ∈ sources, ∀ m ∈ source.members, m.kind ≠ .classKind) : e'.Owns key := by
  obtain ⟨added, outlines, origin⟩ := took.outlines
  rw [ownsIff, outlines]
  refine ⟨took.name.trans h.named, fun o ho => ?_⟩
  rcases List.mem_append.mp ho with old | new
  · exact (ownsIff.mp h).2 o old
  · obtain ⟨source, hs, m, hm, -, rfl⟩ := origin o new
    exact ⟨congrArg some h.named, members source hs m hm⟩

theorem markedTook (took : e.Took sources e') (h : e.Marked) (marked : ∀ source ∈ sources, source.Marked) : e'.Marked := by
  obtain ⟨added, outlines, origin⟩ := took.outlines
  refine ⟨fun asks => ?_, fun o ho asks => ?_⟩
  · rw [took.marked] at asks
    rw [took.ignored]
    exact h.record asks
  · rw [outlines] at ho
    rcases List.mem_append.mp ho with old | new
    · exact h.members o old asks
    · obtain ⟨source, hs, m, hm, -, rfl⟩ := origin o new
      exact (marked source hs).members m.outline (List.mem_map.mpr ⟨m, hm, rfl⟩) asks

end Took
end ClassEntry

namespace Registry

abbrev Named (r : Registry) : Prop := r.All fun key e => e.record.name = key

def overrideNames (r : Registry) : List String := r.keys.filter fun name => (r.overrideTarget? name).isSome

theorem memOverrideNames {r : Registry} {name : String} : name ∈ r.overrideNames ↔ (r.overrideTarget? name).isSome := by
  rw [overrideNames, List.mem_filter, and_iff_right_iff_imp]
  exact memKeysOfOverride

theorem overridesByName {r : Registry} (named : r.Named) :
    r.overrides = r.overrideNames.map fun name => (name, r.overrideEnd? name) := by
  have names : ∀ entry ∈ r.entries, entry.2.name = entry.1 := fun entry h => named entry.1 entry.2 (OrderedMap.getIffMem.mpr h)
  have targets : ∀ entry ∈ r.entries, r.overrideTarget? entry.1 = entry.2.record.info.classInfo.overrideTarget := by
    intro entry h
    rw [overrideTarget?, OrderedMap.getIffMem.mpr h]
    rfl
  rw [overrides, overrideNames, OrderedMap.values, OrderedMap.keys, List.filter_map, List.filter_map, List.map_map,
    List.map_map]
  rw [List.filter_congr (q := fun entry => (r.overrideTarget? entry.1).isSome) fun entry h => by
    rw [targets entry h]; rfl]
  refine List.map_congr_left fun entry h => ?_
  simp only [Function.comp, names entry (List.mem_filter.mp h).1]

/-- The overrides among `names` that lead to a class and are not ignored. -/
def sourcesAmong (r : Registry) (names : List String) (className : String) : List ClassEntry :=
  names.filterMap fun name =>
    if r.overrideEnd? name = some className then (r.get? name).filter (!·.record.ignored) else none

def sourcesOf (r : Registry) (className : String) : List ClassEntry := r.sourcesAmong r.overrideNames className

theorem memSourcesOf {r : Registry} {className : String} {source : ClassEntry} :
    source ∈ r.sourcesOf className ↔ ∃ name, r.get? name = some source ∧ source.record.ignored = false ∧
      (r.overrideTarget? name).isSome ∧ r.LeadsTo name className := by
  simp only [sourcesOf, sourcesAmong, List.mem_filterMap, memOverrideNames]
  constructor
  · rintro ⟨name, isOverride, found⟩
    split at found
    · rename_i leads
      obtain ⟨known, shown⟩ := Option.filter_eq_some_iff.mp found
      exact ⟨name, known, by simpa using shown, overrideEndIff.mp leads⟩
    · contradiction
  · rintro ⟨name, known, shown, isOverride, leads⟩
    refine ⟨name, isOverride, ?_⟩
    rw [if_pos (overrideEndIff.mpr ⟨isOverride, leads⟩), known]
    simp [Option.filter, shown]

theorem noOverrideEnd {r : Registry} {name last : String} (isOverride : (r.overrideTarget? last).isSome) :
    r.overrideEnd? name ≠ some last := by
  intro leads
  rw [leadsToNothing (overrideEndIff.mp leads).2] at isOverride
  contradiction

theorem sourcesAmongOverride {r : Registry} {className : String} (isOverride : (r.overrideTarget? className).isSome)
    (names : List String) : r.sourcesAmong names className = [] := by
  simp [sourcesAmong, noOverrideEnd isOverride]

theorem sourcesAmongCons (r : Registry) (name : String) (names : List String) (className : String) :
    r.sourcesAmong (name :: names) className =
      (if r.overrideEnd? name = some className then (r.get? name).filter (!·.record.ignored) else none).toList ++
        r.sourcesAmong names className := by
  rw [sourcesAmong, List.filterMap_cons]
  split
  · rename_i nothing
    rw [nothing]
    rfl
  · rename_i source found
    rw [found]
    rfl

/-- A class, if there is one, after it took in the sources; the first of them makes it. -/
def takeAll (className : String) (e : Option ClassEntry) (sources : List ClassEntry) : Option ClassEntry :=
  sources.foldl (fun e source => some ((e.getD ⟨.emptyClass className, []⟩).foldOverride source)) e

theorem tookAll {className : String} {e : Option ClassEntry} {sources : List ClassEntry} {e' : ClassEntry}
    (h : takeAll className e sources = some e') : (e.getD ⟨.emptyClass className, []⟩).Took sources e' := by
  induction sources generalizing e with
  | nil =>
    cases h
    exact ClassEntry.tookNothing e'
  | cons source rest ih => exact ClassEntry.tookMore (ClassEntry.tookFold _ source) (ih h)

theorem takeAllExists (className : String) {e : Option ClassEntry} {sources : List ClassEntry}
    (h : e.isSome ∨ sources ≠ []) : ∃ e', takeAll className e sources = some e' := by
  induction sources generalizing e with
  | nil =>
    rcases h with known | made
    · exact Option.isSome_iff_exists.mp known
    · exact absurd rfl made
  | cons source rest ih => exact ih (Or.inl rfl)

end Registry

namespace Draft
open Registry

section Step
variable {d : Draft} {name : String} {target : Option String} {e : ClassEntry}

theorem foldOverrideFound (found : d.registry.get? name = some e) :
    (d.foldOverride (name, target)).value = ⟨match target with
      | none => d.registry.erase name
      | some target =>
        if e.record.ignored then d.registry.erase name
        else (ensure (d.registry.erase name) target).modify target (·.foldOverride e), d.externals.add name⟩ := by
  cases target with
  | none => simp only [foldOverride, found, Reported.valueBind, Reported.valuePure]
  | some target =>
    simp only [foldOverride, found]
    split <;> rfl

theorem getFoldOverride (found : d.registry.get? name = some e) (other : target ≠ some name) (k : String) :
    (d.foldOverride (name, target)).value.registry.get? k =
      if k = name then none
      else if target = some k ∧ e.record.ignored = false then
        some (((d.registry.get? k).getD ⟨.emptyClass k, []⟩).foldOverride e)
      else d.registry.get? k := by
  rw [foldOverrideFound found]
  cases target with
  | none => simp [OrderedMap.getErase]
  | some target =>
    have apart : target ≠ name := fun same => other (congrArg some same)
    cases ignored : e.record.ignored with
    | true => simp [OrderedMap.getErase]
    | false =>
      simp only [Bool.false_eq_true, if_false, OrderedMap.getModify, getEnsure, OrderedMap.getErase, apart]
      by_cases here : k = target
      · subst here
        simp [apart]
      · simp [here, Ne.symm here]

end Step

section Run
variable {r : Registry} {d : Draft} {name : String} {names : List String}

/- The overrides of the registry `r` that are left to fold. They are still as they were. -/
structure Pending (r : Registry) (d : Draft) (names : List String) : Prop where
  isOverride : ∀ name ∈ names, (r.overrideTarget? name).isSome
  distinct : names.Nodup
  untouched : ∀ name ∈ names, d.registry.get? name = r.get? name

theorem pendingStart (d : Draft) : Pending d.registry d d.registry.overrideNames :=
  ⟨fun _ hn => memOverrideNames.mp hn, d.registry.distinct.filter _, fun _ _ => rfl⟩

theorem pendingNext (pending : Pending r d (name :: names)) : (r.overrideTarget? name).isSome ∧ name ∉ names ∧
    ∃ e, r.get? name = some e ∧ d.registry.get? name = some e ∧
      Pending r (d.foldOverride (name, r.overrideEnd? name)).value names := by
  obtain ⟨fresh, distinct⟩ := List.nodup_cons.mp pending.distinct
  have here := pending.isOverride name List.mem_cons_self
  have isOverride : ∀ n ∈ names, (r.overrideTarget? n).isSome := fun n hn => pending.isOverride n (List.mem_cons_of_mem _ hn)
  obtain ⟨e, known⟩ := OrderedMap.memKeys.mp (memKeysOfOverride here)
  have found : d.registry.get? name = some e := (pending.untouched name List.mem_cons_self).trans known
  refine ⟨here, fresh, e, known, found, isOverride, distinct, fun n hn => ?_⟩
  have apart : n ≠ name := fun same => fresh (same ▸ hn)
  rw [getFoldOverride found (noOverrideEnd here), if_neg apart, if_neg fun both => noOverrideEnd (isOverride n hn) both.1]
  exact pending.untouched n (List.mem_cons_of_mem _ hn)

theorem foldOverridesAmong (pending : Pending r d names) :
    let folded := (names.map fun name => (name, r.overrideEnd? name)).foldl (fun d step => (d.foldOverride step).value) d
    (∀ k, folded.registry.get? k =
      if k ∈ names then none else takeAll k (d.registry.get? k) (r.sourcesAmong names k)) ∧
    ∀ n, n ∈ folded.externals.names ↔ n ∈ d.externals.names ∨ n ∈ names := by
  induction names generalizing d with
  | nil => simp [takeAll, sourcesAmong]
  | cons name rest ih =>
    obtain ⟨here, fresh, e, known, found, next⟩ := pendingNext pending
    obtain ⟨entries, externals⟩ := ih next
    refine ⟨fun k => ?_, fun n => ?_⟩
    · rw [List.map_cons, List.foldl_cons, entries, getFoldOverride found (noOverrideEnd here)]
      by_cases mine : k = name
      · subst mine
        rw [if_neg fresh, if_pos List.mem_cons_self, if_pos rfl, sourcesAmongOverride here]
        rfl
      · by_cases waits : k ∈ rest
        · rw [if_pos waits, if_pos (List.mem_cons_of_mem _ waits)]
        · have gone : k ∉ name :: rest := by simp [mine, waits]
          rw [if_neg waits, if_neg gone, if_neg mine, sourcesAmongCons, known]
          split
          · rename_i both
            simp [both.1, both.2, takeAll, Option.filter]
          · rename_i neither
            by_cases leads : r.overrideEnd? name = some k
            · have ignored : e.record.ignored = true := by simpa [leads] using neither
              simp [leads, ignored, Option.filter]
            · simp [leads]
    · rw [List.map_cons, List.foldl_cons, externals, foldOverrideFound found, NameSet.memAdd, List.mem_cons, or_assoc]

end Run

section FoldOverrides
variable {d : Draft} (named : d.registry.Named)
include named

theorem foldOverridesByName :
    (∀ k, d.foldOverrides.value.registry.get? k =
      if k ∈ d.registry.overrideNames then none else takeAll k (d.registry.get? k) (d.registry.sourcesOf k)) ∧
    ∀ n, n ∈ d.foldOverrides.value.externals.names ↔ n ∈ d.externals.names ∨ n ∈ d.registry.overrideNames := by
  rw [foldOverrides, Reported.valueFoldlM, overridesByName named]
  exact foldOverridesAmong (pendingStart d)

theorem externalsFoldOverrides {name : String} :
    name ∈ d.foldOverrides.value.externals.names ↔ name ∈ d.externals.names ∨ (d.registry.overrideTarget? name).isSome := by
  rw [(foldOverridesByName named).2, memOverrideNames]

theorem foldOverridesTook {className : String} {e' : ClassEntry}
    (h : d.foldOverrides.value.registry.get? className = some e') :
    d.registry.overrideTarget? className = none ∧
      ((d.registry.get? className).getD ⟨.emptyClass className, []⟩).Took (d.registry.sourcesOf className) e' := by
  rw [(foldOverridesByName named).1] at h
  split at h
  · contradiction
  · rename_i kept
    exact ⟨by simpa [memOverrideNames] using kept, tookAll h⟩

theorem foldOverridesKeep {className : String} (last : d.registry.overrideTarget? className = none)
    (h : (d.registry.get? className).isSome ∨ d.registry.sourcesOf className ≠ []) :
    ∃ e', d.foldOverrides.value.registry.get? className = some e' := by
  obtain ⟨e', took⟩ := takeAllExists className h
  refine ⟨e', ?_⟩
  rw [(foldOverridesByName named).1, if_neg (by simp [memOverrideNames, last]), took]

theorem overridesNothing {className : String} {e' : ClassEntry}
    (h : d.foldOverrides.value.registry.get? className = some e') : e'.record.info.classInfo.overrideTarget = none := by
  obtain ⟨last, took⟩ := foldOverridesTook named h
  rw [took.classInfo]
  cases known : d.registry.get? className with
  | none => rfl
  | some e => simpa [overrideTarget?, known] using last

theorem noOverridesLeft : d.foldOverrides.value.registry.overrides = [] := by
  rw [overrides, List.map_eq_nil_iff, List.filter_eq_nil_iff]
  intro e he
  obtain ⟨key, found⟩ := OrderedMap.memValues.mp he
  rw [overridesNothing named found]
  nofun

end FoldOverrides
end Draft
end ClassDocs
