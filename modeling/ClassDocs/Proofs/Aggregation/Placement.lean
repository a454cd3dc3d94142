import Mathlib.Data.List.Permutation
import ClassDocs.Proofs.Aggregation.Steps

/-! Where the members of some files belong, said without a registry: a member has its place from
what it says and from the class declared before it in its file. Aggregation puts every member in
that place, in the order of the input, no matter when its class is declared. -/
namespace ClassDocs

/-- A member and the class it is meant for; none for a loose one. -/
structure Placement where
  destination : Option String
  record : Declaration

namespace Placement

def isFor (className : String) (p : Placement) : Bool := p.destination == some className

def waits (declared : List String) (p : Placement) : Bool := p.destination.all (!declared.contains ·)

def claim? (p : Placement) : Option (String × Declaration) := p.destination.map (·, p.record)

end Placement

/-- The class declared nearest behind. The declarations before stand with the last one first. -/
def nearestClass? (before : List Declaration) : Option String :=
  (before.find? (·.kind == .classKind)).map Declaration.name

def placementsAfter (before : List Declaration) : List Declaration → List Placement
  | [] => []
  | d :: rest =>
    (if d.kind = .classKind then [] else [⟨d.owner.or (nearestClass? before), d⟩]) ++
      placementsAfter (d :: before) rest

def placements (files : List FileResult) : List Placement := files.flatMap fun f => placementsAfter [] f.records

def classNames (records : List Declaration) : List String :=
  (records.filter (·.kind == .classKind)).map Declaration.name

def declaredNames (files : List FileResult) : List String := files.flatMap fun f => classNames f.records

def undeclaredOwners (files : List FileResult) : List String :=
  ((placements files).filterMap Placement.destination).filter (!(declaredNames files).contains ·)

def looseMembers (files : List FileResult) : List Declaration :=
  ((placements files).filter (·.destination.isNone)).map Placement.record

def namedOrder (files : List FileResult) : List String :=
  (declaredNames files).eraseDups ++ (undeclaredOwners files).eraseDups

def classOrder (files : List FileResult) : List String :=
  namedOrder files ++
    if (looseMembers files).isEmpty || (namedOrder files).contains globalName then [] else [globalName]

def placedMembers (files : List FileResult) (className : String) : List Declaration :=
  (((placements files).filter (·.isFor className)).map Placement.record ++
    if className = globalName then looseMembers files else []).map (·.ownedBy className)

namespace Aggregation
open Registry

/-- The state when classes of the names `declared` and the members `placed` have come in. -/
structure Scanned (a : Aggregation) (declared : List String) (placed : List Placement) : Prop where
  owned : a.registry.All ClassEntry.Owns
  kinds : ∀ p ∈ placed, p.record.kind ≠ .classKind
  keys : a.registry.keys = declared.eraseDups
  members : ∀ className ∈ declared, a.registry.membersOf className =
    (placed.filter (·.isFor className)).map (·.record.ownedBy className)
  orphans : a.orphans = (placed.filter (·.waits declared)).map Placement.record
  named : ∀ p ∈ placed, p.waits declared = true → p.record.owner = p.destination

section Scanned
variable {a : Aggregation} {declared : List String} {placed : List Placement}

theorem scannedStart : Scanned {} [] [] :=
  ⟨OrderedMap.allEmpty, by simp, rfl, by simp, rfl, by simp⟩

theorem scannedClosed (h : a.Scanned declared placed) (current : Option String) :
    Scanned { a with current } declared placed :=
  ⟨h.owned, h.kinds, h.keys, h.members, h.orphans, h.named⟩

theorem memKeysScanned (h : a.Scanned declared placed) {className : String} :
    className ∈ a.registry.keys ↔ className ∈ declared := by
  rw [h.keys, List.mem_eraseDups]

theorem orphanKinds (h : a.Scanned declared placed) {d : Declaration} (waits : d ∈ a.orphans) : d.kind ≠ .classKind := by
  rw [h.orphans] at waits
  obtain ⟨p, hp, rfl⟩ := List.mem_map.mp waits
  exact h.kinds p (List.mem_filter.mp hp).1

theorem waitsConcat (name : String) (p : Placement) :
    p.waits (declared ++ [name]) = (p.waits declared && !p.isFor name) := by
  cases h : p.destination with
  | none => simp [Placement.waits, Placement.isFor, h]
  | some other => by_cases same : other = name <;> simp [Placement.waits, Placement.isFor, h, same]

theorem waitsWhenFor (declared : List String) {p : Placement} {className : String} (meant : p.isFor className = true) :
    p.waits declared = !declared.contains className := by
  simp only [Placement.isFor, beq_iff_eq] at meant
  simp [Placement.waits, meant]

theorem orphansNaming (h : a.Scanned declared placed) (className : String) :
    a.orphans.filter (·.names className) =
      if className ∈ declared then [] else (placed.filter (·.isFor className)).map Placement.record := by
  have namesIff : ∀ p ∈ placed, p.waits declared = true → p.record.names className = p.isFor className := by
    intro p hp waits
    simp [Declaration.names, Placement.isFor, h.named p hp waits]
  rw [h.orphans, List.filter_map, List.filter_filter]
  split
  · rename_i known
    rw [List.map_eq_nil_iff, List.filter_eq_nil_iff]
    intro p hp both
    simp only [Function.comp, Bool.and_eq_true] at both
    have meant := (namesIff p hp both.2).symm.trans both.1
    have waits := (waitsWhenFor declared meant).symm.trans both.2
    simp [known] at waits
  · rename_i unknown
    congr 1
    refine List.filter_congr fun p hp => ?_
    by_cases waits : p.waits declared = true
    · simp [waits, namesIff p hp waits]
    · have other : p.isFor className = false := Bool.eq_false_iff.mpr fun meant =>
        waits ((waitsWhenFor declared meant).trans (by simp [unknown]))
      simp [waits, other]

theorem scannedAddClass (h : a.Scanned declared placed) (d : Declaration) :
    (a.addClass d).value.Scanned (declared ++ [d.name]) placed := by
  have kinds : ∀ claim ∈ (a.orphans.filter (·.names d.name)).map (d.name, ·), claim.2.kind ≠ .classKind := by
    intro claim hc
    obtain ⟨orphan, mine, rfl⟩ := List.mem_map.mp hc
    exact orphanKinds h (List.mem_filter.mp mine).1
  rw [addClassValue, adoptKnown (memDeclare a.registry d)]
  refine ⟨ownsPlaceAll (ownsDeclare h.owned d) kinds, h.kinds, ?_, ?_, ?_, ?_⟩
  · rw [keysPlaceAllKnown (memDeclare a.registry d), keysDeclare, h.keys, eraseDupsConcat]
    simp
  · intro className known
    rw [membersOfPlaceAll (ownsDeclare h.owned d) kinds, membersOfDeclare]
    by_cases same : className = d.name
    -- those that waited for the class come behind the ones it has
    · subst same
      have mine := orphansNaming h d.name
      by_cases old : d.name ∈ declared
      · simp [mine, old, h.members d.name old]
      · have none : a.registry.membersOf d.name = [] := membersOfUnknown (mt (memKeysScanned h).mp old)
        simp [mine, old, none, List.filter_map, Function.comp_def]
    · have old : className ∈ declared := by simpa [same] using known
      simp [List.filter_map, Function.comp_def, Ne.symm same, h.members className old]
  · change a.orphans.filter (!·.names d.name) = _
    rw [h.orphans, List.filter_map, List.filter_filter]
    congr 1
    refine List.filter_congr fun p hp => ?_
    rw [waitsConcat]
    by_cases waits : p.waits declared = true
    · simp [waits, Declaration.names, Placement.isFor, h.named p hp waits]
    · simp [waits]
  · intro p hp waits
    rw [waitsConcat, Bool.and_eq_true] at waits
    exact h.named p hp waits.1

theorem scannedAddMember (h : a.Scanned declared placed) (opened : ∀ className, a.current = some className → className ∈ declared)
    {d : Declaration} (member : d.kind ≠ .classKind) :
    (a.addMember d).Scanned declared (placed ++ [⟨d.owner.or a.current, d⟩]) := by
  have kinds : ∀ p ∈ placed ++ [⟨d.owner.or a.current, d⟩], p.record.kind ≠ .classKind := by
    intro p hp
    rcases List.mem_append.mp hp with old | new
    · exact h.kinds p old
    · cases List.mem_singleton.mp new
      exact member
  by_cases home : ∃ className, d.owner.or a.current = some className ∧ className ∈ declared
  · obtain ⟨className, target, known⟩ := home
    rw [addMemberKnown target ((memKeysScanned h).mpr known)]
    refine ⟨ownsPlace h.owned member, kinds, ?_, ?_, ?_, ?_⟩
    · rw [keysPlace, if_pos ((memKeysScanned h).mpr known)]
      exact h.keys
    · intro other declares
      rw [membersOfPlace h.owned, h.members other declares, target]
      by_cases same : className = other <;> simp [Placement.isFor, same]
    · simp [h.orphans, Placement.waits, target, known]
    · intro p hp waits
      rcases List.mem_append.mp hp with old | new
      · exact h.named p old waits
      · cases List.mem_singleton.mp new
        simp [Placement.waits, target, known] at waits
  · have unknown : ∀ className, d.owner.or a.current = some className → className ∉ declared :=
      fun className target known => home ⟨className, target, known⟩
    rw [addMemberWaits fun className target known => unknown className target ((memKeysScanned h).mp known)]
    have waits : Placement.waits declared ⟨d.owner.or a.current, d⟩ = true := by
      cases target : d.owner.or a.current with
      | none => rfl
      | some className => simpa [Placement.waits] using unknown className target
    refine ⟨h.owned, kinds, h.keys, ?_, ?_, ?_⟩
    · intro className declares
      have other : Placement.isFor className ⟨d.owner.or a.current, d⟩ = false :=
        Bool.eq_false_iff.mpr fun meant => unknown className (by simpa [Placement.isFor] using meant) declares
      simp [h.members className declares, other]
    · simp [h.orphans, waits]
    · intro p hp _
      rcases List.mem_append.mp hp with old | new
      · exact h.named p old (by assumption)
      · cases List.mem_singleton.mp new
        -- the open class is declared, so only an owner of its own can make the member wait for a class
        cases owner : d.owner with
        | some _ => rfl
        | none =>
          cases current : a.current with
          | none => rfl
          | some className => exact absurd (opened className current) (unknown className (by simp [owner, current]))

theorem currentAddClass (a : Aggregation) (d : Declaration) : (a.addClass d).value.current = some d.name := by
  rw [addClassValue]

theorem currentAddMember (a : Aggregation) (d : Declaration) : (a.addMember d).current = a.current := by
  rw [addMemberTarget]
  split
  · split <;> rfl
  · rfl

theorem scannedRecords (records before : List Declaration) (h : a.Scanned declared placed)
    (current : a.current = nearestClass? before)
    (opened : ∀ className, a.current = some className → className ∈ declared) :
    (records.foldl (fun a d => (a.add d).value) a).Scanned (declared ++ classNames records)
      (placed ++ placementsAfter before records) := by
  induction records generalizing a before declared placed with
  | nil => simpa [classNames, placementsAfter] using h
  | cons d rest ih =>
    by_cases isClass : d.kind = .classKind
    · have now : (a.add d).value = (a.addClass d).value := by rw [add, if_pos isClass]
      have later := ih (d :: before) (now ▸ scannedAddClass h d)
        (by rw [now, currentAddClass]; simp [nearestClass?, isClass])
        (by rw [now, currentAddClass]; simp)
      simpa [classNames, placementsAfter, isClass] using later
    · have now : (a.add d).value = a.addMember d := by rw [add, if_neg isClass]
      have later := ih (d :: before) (now ▸ scannedAddMember h opened isClass)
        (by rw [now, currentAddMember, current]; simp [nearestClass?, isClass])
        (by rw [now, currentAddMember]; exact opened)
      simpa [classNames, placementsAfter, isClass, current] using later

theorem scannedFiles (files : List FileResult) (h : a.Scanned declared placed) :
    (files.foldl (fun a f => (a.addFile f).value) a).Scanned (declared ++ declaredNames files)
      (placed ++ placements files) := by
  induction files generalizing a declared placed with
  | nil => simpa [declaredNames, placements] using h
  | cons f rest ih =>
    have file : (a.addFile f).value.Scanned (declared ++ classNames f.records) (placed ++ placementsAfter [] f.records) := by
      rw [addFile, Reported.valueFoldlM]
      exact scannedRecords f.records [] (scannedClosed h none) rfl (by simp)
    simpa [declaredNames, placements] using ih file

end Scanned

def filesIn (files : List FileResult) : Aggregation := files.foldl (fun a f => (a.addFile f).value) {}

theorem scannedFilesIn (files : List FileResult) :
    (filesIn files).Scanned (declaredNames files) (placements files) := by
  have scanned := scannedFiles files scannedStart
  rwa [List.nil_append, List.nil_append] at scanned

theorem aggregateValue (files : List FileResult) :
    (aggregate files).value = (filesIn files).classifyOrphans.createGlobalClass.registry := by
  rw [aggregate, Reported.valueBind, Reported.valueFoldlM]
  rfl

/- Nothing that waits is for a declared class, and all that is for another class waits. -/
theorem claimsFor (declared : List String) (placed : List Placement) (className : String) :
    (((placed.filter (·.waits declared)).filterMap Placement.claim?).filter (·.1 = className)).map (·.2.ownedBy className) =
      if className ∈ declared then [] else (placed.filter (·.isFor className)).map (·.record.ownedBy className) := by
  induction placed with
  | nil => simp
  | cons p rest ih =>
    cases h : p.destination with
    | none => simpa [Placement.waits, Placement.claim?, Placement.isFor, h] using ih
    | some target =>
      by_cases known : target ∈ declared <;> by_cases same : target = className
      · subst same
        simpa [Placement.waits, Placement.claim?, Placement.isFor, h, known] using ih
      · simpa [Placement.waits, Placement.claim?, Placement.isFor, h, known, same] using ih
      · subst same
        simpa [Placement.waits, Placement.claim?, Placement.isFor, h, known] using ih
      · simpa [Placement.waits, Placement.claim?, Placement.isFor, h, known, same] using ih

section Classified
variable (files : List FileResult)

theorem waitingClaims :
    (filesIn files).orphans.filterMap Declaration.claim? =
      ((placements files).filter (·.waits (declaredNames files))).filterMap Placement.claim? := by
  have h := scannedFilesIn files
  rw [h.orphans, List.filterMap_map]
  refine List.filterMap_congr fun p hp => ?_
  obtain ⟨hp, waits⟩ := List.mem_filter.mp hp
  simp [Declaration.claim?, Placement.claim?, h.named p hp waits]

theorem waitingKinds : ∀ claim ∈ (filesIn files).orphans.filterMap Declaration.claim?, claim.2.kind ≠ .classKind := by
  intro claim hc
  obtain ⟨orphan, waits, named⟩ := List.mem_filterMap.mp hc
  obtain ⟨owner, -, rfl⟩ := Option.map_eq_some_iff.mp named
  exact orphanKinds (scannedFilesIn files) waits

theorem waitingOwners :
    ((filesIn files).orphans.filterMap Declaration.claim?).map Prod.fst = undeclaredOwners files := by
  rw [waitingClaims, undeclaredOwners, List.map_filterMap, List.filterMap_filter, List.filter_filterMap]
  refine List.filterMap_congr fun p _ => ?_
  cases h : p.destination with
  | none => simp [Placement.claim?, h]
  | some target => by_cases known : target ∈ declaredNames files <;> simp [Placement.waits, Placement.claim?, Option.filter, h, known]

theorem classifiedOwns : (filesIn files).classifyOrphans.registry.All ClassEntry.Owns := by
  rw [classifyOrphansPlaces]
  exact ownsPlaceAll (scannedFilesIn files).owned (waitingKinds files)

theorem classifiedKeys : (filesIn files).classifyOrphans.registry.keys = namedOrder files := by
  rw [classifyOrphansPlaces]
  have undeclared : (undeclaredOwners files).removeAll (declaredNames files) = undeclaredOwners files := by
    simp [undeclaredOwners, List.removeAll, List.filter_filter]
  rw [keysPlaceAll (scannedFilesIn files).keys, waitingOwners, List.eraseDups_append, undeclared]
  rfl

theorem classifiedMembers (className : String) :
    (filesIn files).classifyOrphans.registry.membersOf className =
      ((placements files).filter (·.isFor className)).map (·.record.ownedBy className) := by
  have h := scannedFilesIn files
  rw [classifyOrphansPlaces, membersOfPlaceAll h.owned (waitingKinds files), waitingClaims, claimsFor]
  by_cases known : className ∈ declaredNames files
  · simp [known, h.members className known]
  · simp [known, membersOfUnknown (mt (memKeysScanned h).mp known)]

theorem classifiedOrphans : (filesIn files).classifyOrphans.orphans = looseMembers files := by
  have h := scannedFilesIn files
  rw [classifyOrphansPlaces]
  change (filesIn files).orphans.filter (·.owner.isNone) = _
  rw [h.orphans, List.filter_map, List.filter_filter]
  congr 1
  refine List.filter_congr fun p hp => ?_
  by_cases waits : p.waits (declaredNames files) = true
  · simp [waits, h.named p hp waits]
  · cases target : p.destination with
    | none => simp [Placement.waits, target] at waits
    | some _ => simp [waits]

end Classified
end Aggregation

open Aggregation Registry

section Aggregate
variable (files : List FileResult)

theorem aggregateWithoutLoose (none : looseMembers files = []) :
    (aggregate files).value = (filesIn files).classifyOrphans.registry := by
  rw [aggregateValue, createGlobalClass, classifiedOrphans, none]
  rfl

theorem aggregateWithLoose (some : looseMembers files ≠ []) :
    (aggregate files).value =
      placeAll ((ensure (filesIn files).classifyOrphans.registry globalName).modify globalName describeGlobal)
        ((looseMembers files).map (globalName, ·)) := by
  rw [aggregateValue, createGlobalPlaces (by rwa [classifiedOrphans]), classifiedOrphans]

theorem looseKinds : ∀ claim ∈ (looseMembers files).map (globalName, ·), claim.2.kind ≠ .classKind := by
  intro claim hc
  obtain ⟨d, loose, rfl⟩ := List.mem_map.mp hc
  obtain ⟨p, hp, rfl⟩ := List.mem_map.mp loose
  exact (scannedFilesIn files).kinds p (List.mem_filter.mp hp).1

theorem describedOwns :
    ((ensure (filesIn files).classifyOrphans.registry globalName).modify globalName describeGlobal).All ClassEntry.Owns :=
  OrderedMap.allModify (allEnsure (classifiedOwns files) (ClassEntry.ownsNothing (.emptyClass globalName)))
    fun _ owns => ownsDescribeGlobal owns

theorem aggregateOwns : (aggregate files).value.All ClassEntry.Owns := by
  by_cases loose : looseMembers files = []
  · rw [aggregateWithoutLoose files loose]
    exact classifiedOwns files
  · rw [aggregateWithLoose files loose]
    exact ownsPlaceAll (describedOwns files) (looseKinds files)

theorem keysAggregate : (aggregate files).value.keys = classOrder files := by
  by_cases loose : looseMembers files = []
  · rw [aggregateWithoutLoose files loose, classifiedKeys]
    simp [classOrder, loose]
  · have known : globalName ∈
        ((ensure (filesIn files).classifyOrphans.registry globalName).modify globalName describeGlobal).keys := by
      rw [OrderedMap.keysModify]
      exact (memEnsure _ _ _).mpr (Or.inr rfl)
    rw [aggregateWithLoose files loose, keysPlaceAllKnown known, OrderedMap.keysModify, keysEnsure, classifiedKeys]
    by_cases named : globalName ∈ namedOrder files <;> simp [classOrder, loose, named]

theorem membersOfAggregate (className : String) :
    (aggregate files).value.membersOf className = placedMembers files className := by
  by_cases loose : looseMembers files = []
  · rw [aggregateWithoutLoose files loose, classifiedMembers]
    simp [placedMembers, loose]
  · rw [aggregateWithLoose files loose, membersOfPlaceAll (describedOwns files) (looseKinds files),
      membersOfModify _ _ _ membersDescribeGlobal, membersOfEnsure, classifiedMembers]
    by_cases same : className = globalName
    · simp [placedMembers, same, List.filter_map, Function.comp_def]
    · simp [placedMembers, same, Ne.symm same, List.filter_map, Function.comp_def]

end Aggregate

theorem placedMembersPerm {files others : List FileResult} (same : others.Perm files) (className : String) :
    (placedMembers others className).Perm (placedMembers files className) := by
  have placed : (placements others).Perm (placements files) := same.flatMap_right _
  have mine := ((placed.filter (·.isFor className)).map Placement.record)
  have loose : (looseMembers others).Perm (looseMembers files) := (placed.filter _).map _
  refine (mine.append ?_).map _
  split
  · exact loose
  · exact .nil

/-- Aggregation keeps to the placement; the order of the files shows in the order of classes and
members only. -/
theorem aggregateByPlacement (files : List FileResult) :
    (aggregate files).value.keys = classOrder files ∧
    (∀ className, (aggregate files).value.membersOf className = placedMembers files className) ∧
    ∀ others, others.Perm files → ∀ className,
      ((aggregate others).value.membersOf className).Perm ((aggregate files).value.membersOf className) := by
  refine ⟨keysAggregate files, membersOfAggregate files, ?_⟩
  intro others same className
  rw [membersOfAggregate, membersOfAggregate]
  exact placedMembersPerm same className

/- A member before its class, a loose one, and an override. -/
def sampleFiles : List FileResult :=
  [⟨"panel.js", [
    { kind := .classKind, name := "Panel", files := [⟨"panel.js", 1⟩], info := { classInfo := { parent := some "Component" } } },
    { kind := .method, name := "show", files := [⟨"panel.js", 5⟩] },
    { kind := .cfg, name := "text", owner := some "Button", files := [⟨"panel.js", 9⟩] }]⟩,
   ⟨"button.js", [
    { kind := .property, name := "debug", files := [⟨"button.js", 1⟩] },
    { kind := .classKind, name := "Button", files := [⟨"button.js", 4⟩], info := { classInfo := { parent := some "Panel" } } },
    { kind := .event, name := "Click", files := [⟨"button.js", 8⟩] },
    { kind := .classKind, name := "TouchButton", files := [⟨"button.js", 12⟩],
      info := { classInfo := { overrideTarget := some "Button" } } },
    { kind := .event, name := "Tap", files := [⟨"button.js", 16⟩] }]⟩]

theorem sampleReversed : sampleFiles.reverse.Perm sampleFiles ∧
    ((aggregate sampleFiles.reverse).value.membersOf "Button").Perm ((aggregate sampleFiles).value.membersOf "Button") := by
  have same : sampleFiles.reverse.Perm sampleFiles := List.reverse_perm sampleFiles
  exact ⟨same, (aggregateByPlacement sampleFiles).2.2 sampleFiles.reverse same "Button"⟩

end ClassDocs
