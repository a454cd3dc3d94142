import ClassDocs.Run
import ClassDocs.Proofs.Overrides.Hidden

/-! Words of ignored declarations do not get out: a run on the same declarations with other such words ends in the same
graph or the same failure, with the same findings. -/
namespace ClassDocs
open Declaration (ignored)

namespace Draft
variable {d d' : Draft}

theorem alikeApply (settings : Settings) (step : Refinement) (h : d.Alike d') :
    Reported.Related Alike (step.apply settings d) (step.apply settings d') := by
  cases step with
  | ignoring => exact Reported.relatedPure ⟨Registry.alikeMark (fun _ shown _ => shown) h.registry, h.externals⟩
  | accessors => exact Reported.relatedPure ⟨Registry.alikeAccessors h.registry, h.externals⟩
  | events => exact Reported.relatedPure ⟨Registry.alikeEvents h.registry settings.eventMode, h.externals⟩
  | enums => exact Reported.relatedBind (Registry.alikeEnums h.registry) fun _ _ same => Reported.relatedPure ⟨same, h.externals⟩
  | overrides => exact alikeFoldOverrides h

/- Marking is the first refinement, and from then on all that may differ is ignored. -/
theorem alikeRefine (settings : Settings) (h : Registry.Alike Declaration.asksOut d.registry d'.registry)
    (externals : d'.externals = d.externals) :
    Reported.Related Alike (d.refine settings Refinement.all) (d'.refine settings Refinement.all) := by
  have marked : Alike { d with registry := Registry.markIgnored d.registry }
      { d' with registry := Registry.markIgnored d'.registry } :=
    ⟨Registry.alikeMark (fun _ _ wanted => wanted) h, externals⟩
  unfold refine Refinement.all
  rw [List.foldlM_cons, List.foldlM_cons]
  refine Reported.relatedBind (Reported.relatedPure marked) fun _ _ first => ?_
  exact Reported.relatedItems first fun _ _ step h => alikeApply settings step h

theorem visibleAlike {e e' : ClassEntry} (h : e.Alike ignored e') (shown : e.record.ignored = false) : e'.visible = e.visible := by
  have members : e'.members.filter (!·.ignored) = e.members.filter (!·.ignored) := by
    have same := selectedSame (f := id) (g := id) (p := (!·.ignored)) (q := (!·.ignored)) h.members
      (fun m m' here => by rw [Declaration.alikeIgnored here])
      fun m m' here visible => here.words (by simpa using visible)
    rwa [List.map_id, List.map_id] at same
  rw [ClassEntry.visible, ClassEntry.visible, h.record.words shown, members]

/- Everything that the graph shows is there to be seen. -/
theorem toGraphAlike (h : d.Alike d') (dropGlobal : Bool) : d'.toGraph dropGlobal = d.toGraph dropGlobal := by
  have values := OrderedMap.relatedValues h.registry
  have shown (e e' : ClassEntry) (here : e.Alike ignored e') : (!e'.record.ignored) = !e.record.ignored := by
    rw [Declaration.alikeIgnored here.record]
  have isGlobal (e e' : ClassEntry) (here : e.Alike ignored e') : e'.isGlobal = e.isGlobal := by
    rw [ClassEntry.isGlobal, ClassEntry.isGlobal, Declaration.alikeName here.record]
  have visible (e e' : ClassEntry) (here : e.Alike ignored e') (selected : (!e.record.ignored) = true) :
      e'.visible = e.visible := visibleAlike here (by simpa using selected)
  have classes := selectedSame (p := fun e => !(e.isGlobal && dropGlobal) && !e.record.ignored)
    (q := fun e => !(e.isGlobal && dropGlobal) && !e.record.ignored) values
    (fun e e' here => by rw [isGlobal e e' here, shown e e' here])
    fun e e' here selected => visible e e' here (Bool.and_eq_true_iff.mp selected).2
  have findings := selectedSame (f := ClassEntry.globalFindings) (g := ClassEntry.globalFindings)
    (p := fun e => e.isGlobal && !e.record.ignored) (q := fun e => e.isGlobal && !e.record.ignored) values
    (fun e e' here => by rw [isGlobal e e' here, shown e e' here])
    fun e e' here selected => by
      rw [ClassEntry.globalFindings, ClassEntry.globalFindings, visible e e' here (Bool.and_eq_true_iff.mp selected).2]
  simp only [toGraph, List.filter_filter, List.flatMap_def, h.externals, classes, findings]

end Draft

section Run
variable {files files' : List FileResult}

theorem documentAlike (h : List.Forall₂ FileResult.Alike files files') (settings : Settings) (releases : List Release) :
    document settings releases files' = document settings releases files := by
  have drafted : Reported.Related Draft.Alike (draft settings files) (draft settings files') :=
    Reported.relatedBind (alikeAggregate h) fun _ _ same => Draft.alikeRefine settings same rfl
  refine Reported.relatedSame (Reported.relatedBind drafted fun d d' same => ?_)
  rw [Draft.toGraphAlike same]
  exact ⟨rfl, rfl⟩

/-- What a declaration says that is to be left out, in words, parameters, return values and defaults, shows neither in the
result of a run nor in its findings. -/
theorem hiddenWords (h : List.Forall₂ FileResult.Alike files files') (settings : Settings) (releases : List Release)
    (sink : Sink) : run settings releases files' sink = run settings releases files sink := by
  rw [run, run, documentAlike h]

/- A hidden class that is opened again and overridden, and a hidden method of a class that is shown. -/
def secretFiles (words : String) : List FileResult :=
  let words := some words
  [⟨"vault.js", [
    { kind := .classKind, name := "Vault", files := [⟨"vault.js", 1⟩], info := { doc := words, ignore := true } },
    { kind := .cfg, name := "key", files := [⟨"vault.js", 4⟩], info := { doc := some "The key.", accessor := true } }]⟩,
   ⟨"store.js", [
    { kind := .classKind, name := "Store", files := [⟨"store.js", 1⟩], info := { doc := some "Keeps records." } },
    { kind := .method, name := "unlock", files := [⟨"store.js", 5⟩],
      info := { doc := words, params := [{ name := "key", doc := words }], returns := some { doc := words }, ignore := true } },
    { kind := .classKind, name := "Vault", files := [⟨"store.js", 20⟩], info := { doc := some "A vault." } },
    { kind := .classKind, name := "VaultFix", files := [⟨"store.js", 30⟩],
      info := { doc := words, defaultText := words, ignore := true, classInfo := { overrideTarget := some "Store" } } }]⟩]

theorem sampleHidden : List.Forall₂ FileResult.Alike (secretFiles "Opens with 1234.") (secretFiles "Opens with 9876.") ∧
    secretFiles "Opens with 9876." ≠ secretFiles "Opens with 1234." ∧
    run {} [] (secretFiles "Opens with 9876.") {} = run {} [] (secretFiles "Opens with 1234.") {} := by
  have same (d : Declaration) : d.Alike Declaration.asksOut d := Declaration.alikeSame d
  have alike : List.Forall₂ FileResult.Alike (secretFiles "Opens with 1234.") (secretFiles "Opens with 9876.") :=
    .cons ⟨rfl, .cons ⟨rfl, nofun⟩ (.cons (same _) .nil)⟩
      (.cons ⟨rfl, .cons (same _) (.cons ⟨rfl, nofun⟩ (.cons (same _) (.cons ⟨rfl, nofun⟩ .nil)))⟩ .nil)
  refine ⟨alike, fun equal => ?_, hiddenWords alike {} [] {}⟩
  have docs := congrArg (List.map fun f => f.records.map (·.info.doc)) equal
  exact absurd docs (by decide)

end Run
end ClassDocs
