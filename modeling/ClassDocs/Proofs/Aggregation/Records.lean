import ClassDocs.Proofs.Aggregation.Placement

/-! The records of aggregated classes. A property of records that declarations have, and that
reopening does not take away, every class has in the end. -/
namespace ClassDocs

/-- What a property of class records has to survive. -/
structure Declaration.Lasting (P : Declaration → Prop) : Prop where
  made : ∀ name, P (.emptyClass name)
  reopened : ∀ old new, P old → P new → P (old.reopen new)
  described : ∀ d doc, P d → P { d with info := { d.info with doc } }

namespace Registry
variable {P : Declaration → Prop} {r : Registry}

abbrev Records (P : Declaration → Prop) (r : Registry) : Prop := r.All fun _ e => P e.record

theorem recordsDeclare (lasting : Declaration.Lasting P) (h : r.Records P) {d : Declaration} (declared : P d) :
    (declare r d).Records P := by
  unfold declare
  split
  · exact OrderedMap.allModify h fun e known => lasting.reopened e.record d known declared
  · exact OrderedMap.allInsert h declared

theorem recordsPlace (lasting : Declaration.Lasting P) (h : r.Records P) (claim : String × Declaration) :
    (place r claim).Records P :=
  OrderedMap.allModify (allEnsure h (lasting.made claim.1)) fun _ known => known

theorem recordsPlaceAll (lasting : Declaration.Lasting P) (h : r.Records P) (claims : List (String × Declaration)) :
    (placeAll r claims).Records P :=
  List.foldlRecOn claims place h fun _ known claim _ => recordsPlace lasting known claim

end Registry

namespace Aggregation
open Registry
variable {P : Declaration → Prop} {a : Aggregation}

theorem recordsAdd (lasting : Declaration.Lasting P) (h : a.registry.Records P) {d : Declaration}
    (declared : d.kind = .classKind → P d) : (a.add d).value.registry.Records P := by
  unfold add
  split
  · rename_i isClass
    rw [addClassValue, adoptKnown (memDeclare a.registry d)]
    exact recordsPlaceAll lasting (recordsDeclare lasting h (declared isClass)) _
  · by_cases home : ∃ className, d.owner.or a.current = some className ∧ className ∈ a.registry.keys
    · obtain ⟨className, target, known⟩ := home
      rw [addMemberKnown target known]
      exact recordsPlace lasting h (className, d)
    · rw [addMemberWaits fun className target known => home ⟨className, target, known⟩]
      exact h

theorem recordsAddFile (lasting : Declaration.Lasting P) (h : a.registry.Records P) {f : FileResult}
    (declared : ∀ d ∈ f.records, d.kind = .classKind → P d) : (a.addFile f).value.registry.Records P := by
  rw [addFile, Reported.valueFoldlM]
  refine List.foldlRecOn (motive := fun a : Aggregation => a.registry.Records P) f.records _ h fun a known d hd => ?_
  exact recordsAdd lasting known (declared d hd)

theorem recordsFilesIn (lasting : Declaration.Lasting P) {files : List FileResult}
    (declared : ∀ f ∈ files, ∀ d ∈ f.records, d.kind = .classKind → P d) : (filesIn files).registry.Records P := by
  refine List.foldlRecOn (motive := fun a : Aggregation => a.registry.Records P) files _ OrderedMap.allEmpty fun a known f hf => ?_
  exact recordsAddFile lasting known (declared f hf)

end Aggregation

open Aggregation Registry

theorem aggregateRecords {P : Declaration → Prop} (lasting : Declaration.Lasting P) {files : List FileResult}
    (declared : ∀ f ∈ files, ∀ d ∈ f.records, d.kind = .classKind → P d) : (aggregate files).value.Records P := by
  have classified : (filesIn files).classifyOrphans.registry.Records P := by
    rw [classifyOrphansPlaces]
    exact recordsPlaceAll lasting (recordsFilesIn lasting declared) _
  by_cases loose : looseMembers files = []
  · rw [aggregateWithoutLoose files loose]
    exact classified
  · rw [aggregateWithLoose files loose]
    refine recordsPlaceAll lasting (OrderedMap.allModify (allEnsure classified (lasting.made globalName)) ?_) _
    intro e known
    unfold describeGlobal
    split
    · exact known
    · exact lasting.described e.record _ known

end ClassDocs
