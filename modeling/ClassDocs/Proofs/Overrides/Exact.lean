import Mathlib.Data.List.Permutation
import ClassDocs.Proofs.Overrides.Taking

/-! Folding of overrides, exactly. Every override goes, with one finding if its chain comes back, and
leaves its name as an external one; every other class takes in what leads to it and nothing else. -/
namespace ClassDocs

theorem filterMapSublist {α β : Type} {f : α → Option β} {g : α → β} (items : List α) (same : ∀ a b, f a = some b → g a = b) :
    (items.filterMap f).Sublist (items.map g) := by
  induction items with
  | nil => exact .slnil
  | cons a rest ih =>
    rw [List.filterMap_cons, List.map_cons]
    split
    · exact .cons _ ih
    · rename_i b kept
      rw [same a b kept]
      exact .cons_cons _ ih

namespace Registry
variable {r r' : Registry}

theorem sourcesInOrder (r : Registry) (className : String) : (r.sourcesOf className).Sublist r.values := by
  let entry (name : String) : ClassEntry := (r.get? name).getD default
  have values : r.keys.map entry = r.values := by
    rw [OrderedMap.keys, OrderedMap.values, List.map_map]
    refine List.map_congr_left fun pair h => ?_
    have known : r.get? pair.1 = some pair.2 := OrderedMap.getIffMem.mpr h
    simp only [Function.comp, entry, known, Option.getD_some]
  rw [sourcesOf, sourcesAmong, ← values]
  refine (filterMapSublist r.overrideNames fun name source h => ?_).trans (List.filter_sublist.map entry)
  split at h
  · simp only [entry, (Option.filter_eq_some_iff.mp h).1, Option.getD_some]
  · contradiction

/- The findings about the overrides come one after another, in the order of the overrides. -/
inductive OneByOne (about : String → List Diagnostic → Prop) : List String → List Diagnostic → Prop where
  | nil : OneByOne about [] []
  | cons {name names own later} (first : about name own) (rest : OneByOne about names later) :
      OneByOne about (name :: names) (own ++ later)

/-- An override whose chain comes back is one finding. One whose chain ends at a class that is not there may be one. -/
structure AboutOverride (r : Registry) (name : String) (findings : List Diagnostic) : Prop where
  loops : (¬∃ last, r.LeadsTo name last) → ∀ e, r.get? name = some e →
    findings = [.warning .override ("Override " ++ name ++ " overrides itself") e.record.location?]
  ends : ∀ last, r.LeadsTo name last → ∀ e, r.get? name = some e → findings = [] ∨ findings =
    [.warning .override ("Class " ++ last ++ " overridden by " ++ name ++ " not found, creating it") e.record.location?]

end Registry

namespace Draft
open Registry

section Findings
variable {r : Registry} {d : Draft} {names : List String}

theorem findingsFoldOverride {name : String} {target : Option String} {e : ClassEntry} (found : d.registry.get? name = some e) :
    (d.foldOverride (name, target)).findings = match target with
      | none => [.warning .override ("Override " ++ name ++ " overrides itself") e.record.location?]
      | some target => if (d.registry.erase name).contains target then [] else
        [.warning .override ("Class " ++ target ++ " overridden by " ++ name ++ " not found, creating it") e.record.location?] := by
  cases target with
  | none => simp only [foldOverride, found]; rfl
  | some target =>
    simp only [foldOverride, found]
    cases (d.registry.erase name).contains target <;> rfl

theorem aboutOverride {name : String} {e : ClassEntry} (isOverride : (r.overrideTarget? name).isSome) (known : r.get? name = some e)
    (found : d.registry.get? name = some e) :
    r.AboutOverride name (d.foldOverride (name, r.overrideEnd? name)).findings := by
  rw [findingsFoldOverride found]
  cases leads : r.overrideEnd? name with
  | none =>
    have nowhere : ¬∃ last, r.LeadsTo name last := fun ⟨last, h⟩ => by
      rw [overrideEndIff.mpr ⟨isOverride, h⟩] at leads
      contradiction
    refine ⟨fun _ e' known' => ?_, fun last h => absurd ⟨last, h⟩ nowhere⟩
    cases Option.some.inj (known.symm.trans known')
    rfl
  | some target =>
    have ends := (overrideEndIff.mp leads).2
    refine ⟨fun nowhere => absurd ⟨target, ends⟩ nowhere, fun last h e' known' => ?_⟩
    cases Option.some.inj (known.symm.trans known')
    cases leadsToUnique ends h
    cases there : (d.registry.erase name).contains target with
    | true => exact Or.inl (if_pos there)
    | false => exact Or.inr (if_neg (Bool.eq_false_iff.mp there))

theorem findingsAmong (pending : Pending r d names) :
    OneByOne r.AboutOverride names ((names.map fun name => (name, r.overrideEnd? name)).foldlM foldOverride d).findings := by
  induction names generalizing d with
  | nil => exact .nil
  | cons name rest ih =>
    obtain ⟨here, -, e, known, found, next⟩ := pendingNext pending
    rw [List.map_cons, List.foldlM_cons, Reported.findingsBind]
    exact .cons (aboutOverride here known found) (ih next)

end Findings

/- A class that only overrides speak of begins empty. -/
def entryBefore (d : Draft) (className : String) : ClassEntry := (d.registry.get? className).getD ⟨.emptyClass className, []⟩

/-- What folding leaves of a draft: no override, the names of all of them as external names, and every
other class with what it took in from the overrides that lead to it. -/
structure FoldedExactly (d : Draft) (folded : Reported Draft) : Prop where
  noOverride : ∀ className e, folded.value.registry.get? className = some e →
    d.registry.overrideTarget? className = none ∧ e.record.info.classInfo.overrideTarget = none
  externals : ∀ name, name ∈ folded.value.externals.names ↔
    name ∈ d.externals.names ∨ (d.registry.overrideTarget? name).isSome = true
  findings : OneByOne d.registry.AboutOverride d.registry.overrideNames folded.findings
  sources : ∀ className, (d.registry.sourcesOf className).Sublist d.registry.values ∧
    ∀ source, source ∈ d.registry.sourcesOf className ↔ ∃ name, d.registry.get? name = some source ∧
      source.record.ignored = false ∧ (d.registry.overrideTarget? name).isSome = true ∧ d.registry.LeadsTo name className
  kept : ∀ className, d.registry.overrideTarget? className = none →
    ((folded.value.registry.get? className).isSome = true ↔
      (d.registry.get? className).isSome = true ∨ d.registry.sourcesOf className ≠ [])
  taken : ∀ className e, folded.value.registry.get? className = some e → (d.entryBefore className).record.name = className ∧
    (d.entryBefore className).TakesSources (d.registry.sourcesOf className) e
  untouched : ∀ className, d.registry.overrideTarget? className = none → d.registry.sourcesOf className = [] →
    folded.value.registry.get? className = d.registry.get? className

section Exact
variable {d : Draft} (named : d.registry.Named)
include named

theorem nameBefore (className : String) : (d.entryBefore className).record.name = className := by
  rw [entryBefore]
  cases known : d.registry.get? className with
  | none => rfl
  | some e => exact named className e known

theorem foldedOverrides : FoldedExactly d d.foldOverrides where
  noOverride _ _ h := ⟨(foldOverridesTook named h).1, overridesNothing named h⟩
  externals _ := externalsFoldOverrides named
  findings := by
    rw [foldOverrides, overridesByName named]
    exact findingsAmong (pendingStart d)
  sources className := ⟨d.registry.sourcesInOrder className, fun _ => memSourcesOf⟩
  kept className last := by
    rw [(foldOverridesByName named).1, if_neg (by simp [memOverrideNames, last])]
    constructor
    · intro there
      by_cases nothing : d.registry.sourcesOf className = []
      · rw [nothing] at there
        exact Or.inl there
      · exact Or.inr nothing
    · intro h
      obtain ⟨e, took⟩ := takeAllExists className h
      rw [took]
      rfl
  taken className e h := by
    refine ⟨nameBefore named className, ?_⟩
    rw [(foldOverridesByName named).1] at h
    split at h
    · contradiction
    · exact takesAll h
  untouched className last nothing := by
    rw [(foldOverridesByName named).1, if_neg (by simp [memOverrideNames, last]), nothing]
    rfl

theorem signaturesFolded (className : String) :
    (d.foldOverrides.value.registry.membersOf className).map Declaration.signature =
      if (d.registry.overrideTarget? className).isSome then [] else
        (((d.registry.sourcesOf className).flatMap ClassEntry.contribution).map (·.2.signature)).foldl ClassEntry.addSignature
          ((d.registry.membersOf className).map Declaration.signature) := by
  have before : d.registry.membersOf className = (d.entryBefore className).members := by
    rw [membersOf, entryBefore]
    cases d.registry.get? className <;> rfl
  have exact := foldedOverrides named
  cases overrides : d.registry.overrideTarget? className with
  | some target =>
    -- an override is no class of its own afterwards
    have gone : d.foldOverrides.value.registry.get? className = none :=
      Option.eq_none_iff_forall_ne_some.mpr fun e found => by
        rw [(exact.noOverride className e found).1] at overrides
        contradiction
    rw [membersOf, gone]
    rfl
  | none =>
    rw [if_neg (by simp), before]
    cases found : d.foldOverrides.value.registry.get? className with
    | some e =>
      rw [membersOf, found]
      exact ClassEntry.signaturesTakeInAll (exact.taken className e found).2.members
    | none =>
      -- what is not there afterwards was not there before, and nothing overrides it
      have absent := mt (exact.kept className overrides).mpr (by simp [found])
      obtain ⟨unknown, nothing⟩ := not_or.mp absent
      have empty : d.registry.get? className = none := by simpa using unknown
      have noSources : d.registry.sourcesOf className = [] := by simpa using nothing
      rw [membersOf, found, entryBefore, empty, noSources]
      rfl

end Exact

def overrideEntry (name target : String) (members : List Declaration) : ClassEntry where
  record := { kind := .classKind, name, files := [⟨"patches.js", 1⟩], info := { classInfo := { overrideTarget := some target } } }
  members := members

end Draft
end ClassDocs
