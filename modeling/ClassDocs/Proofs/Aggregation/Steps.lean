import ClassDocs.Registry.Aggregation
import ClassDocs.Proofs.Registry.Members

/-! Aggregation step by step, in any order of steps. At every moment each class owns what is in it,
nothing waits for a class that is there, and every member that came in is in one place. -/
namespace ClassDocs

namespace Registry

def declare (r : Registry) (d : Declaration) : Registry :=
  match r.get? d.name with
  | some _ => r.modify d.name fun e => { e with record := e.record.reopen d }
  | none => insertEntry r ⟨d, []⟩

theorem keysDeclare (r : Registry) (d : Declaration) :
    (declare r d).keys = if d.name ∈ r.keys then r.keys else r.keys ++ [d.name] := by
  unfold declare
  split
  · rename_i known
    simp [OrderedMap.memKeysOfGet known]
  · exact OrderedMap.keysInsert _ _ _

theorem memDeclare (r : Registry) (d : Declaration) : d.name ∈ (declare r d).keys := by
  rw [keysDeclare]
  split
  · assumption
  · simp

theorem membersDeclare (r : Registry) (d : Declaration) : members (declare r d) = r.members := by
  unfold declare
  split
  · exact membersModify _ _ _ fun _ => rfl
  · rename_i unknown
    exact membersInsertFresh _ _ (OrderedMap.getNone.mp unknown)

theorem membersOfDeclare (r : Registry) (d : Declaration) (className : String) :
    membersOf (declare r d) className = r.membersOf className := by
  unfold declare
  split
  · refine membersOfModify r d.name _ ?_ className
    exact fun _ => rfl
  · rename_i unknown
    exact membersOfInsertFresh _ _ (OrderedMap.getNone.mp unknown) _

theorem ownsDeclare {r : Registry} (h : r.All ClassEntry.Owns) (d : Declaration) :
    (declare r d).All ClassEntry.Owns := by
  unfold declare
  split
  · exact OrderedMap.allModify h fun e owns => ⟨owns.named, owns.owned, owns.members⟩
  · exact OrderedMap.allInsert h (ClassEntry.ownsNothing d)

end Registry

namespace Declaration

/-- The class that a declaration names as its owner, with the declaration. -/
def claim? (d : Declaration) : Option (String × Declaration) := d.owner.map (·, d)

theorem claimed (ds : List Declaration) : (ds.filterMap claim?).map Prod.snd = ds.filter (·.owner.isSome) := by
  induction ds with
  | nil => rfl
  | cons d rest ih => cases h : d.owner <;> simp [claim?, h, ih]

def names (className : String) (d : Declaration) : Bool := d.owner == some className

end Declaration

namespace Aggregation
open Registry

theorem addClassValue (a : Aggregation) (d : Declaration) :
    (a.addClass d).value =
      { adopt { a with registry := declare a.registry d } d.name with current := some d.name } := by
  unfold addClass declare
  cases a.registry.get? d.name <;> rfl

theorem adoptKnown {a : Aggregation} {className : String} (known : className ∈ a.registry.keys) :
    a.adopt className = { a with
      registry := placeAll a.registry ((a.orphans.filter (·.names className)).map (className, ·))
      orphans := a.orphans.filter (!·.names className) } := by
  unfold adopt
  exact congrArg (fun r => { a with registry := r, orphans := a.orphans.filter (!·.names className) })
    (placeAllKnown known _)

theorem addMemberTarget (a : Aggregation) (d : Declaration) :
    a.addMember d =
      match d.owner.or a.current with
      | some className =>
        if a.registry.contains className then { a with registry := pushMember a.registry className d }
        else { a with orphans := a.orphans ++ [d] }
      | none => { a with orphans := a.orphans ++ [d] } := by
  unfold addMember
  cases d.owner <;> rfl

theorem addMemberKnown {a : Aggregation} {d : Declaration} {className : String}
    (target : d.owner.or a.current = some className) (known : className ∈ a.registry.keys) :
    a.addMember d = { a with registry := place a.registry (className, d) } := by
  rw [addMemberTarget, target, placeKnown known]
  exact if_pos (OrderedMap.containsIff.mpr known)

theorem addMemberWaits {a : Aggregation} {d : Declaration}
    (unknown : ∀ className, d.owner.or a.current = some className → className ∉ a.registry.keys) :
    a.addMember d = { a with orphans := a.orphans ++ [d] } := by
  rw [addMemberTarget]
  cases target : d.owner.or a.current with
  | none => rfl
  | some className => exact if_neg (mt OrderedMap.containsIff.mp (unknown className target))

theorem classifyOrphansPlaces (a : Aggregation) :
    a.classifyOrphans = { a with
      registry := placeAll a.registry (a.orphans.filterMap Declaration.claim?)
      orphans := a.orphans.filter (·.owner.isNone) } := by
  have scan (waiting kept : List Declaration) (r : Registry) :
      waiting.foldl
        (fun a d => match d.owner with
          | some owner => { a with registry := pushMember (ensure a.registry owner) owner d }
          | none => { a with orphans := a.orphans ++ [d] })
        { a with registry := r, orphans := kept } =
      { a with
        registry := placeAll r (waiting.filterMap Declaration.claim?)
        orphans := kept ++ waiting.filter (·.owner.isNone) } := by
    induction waiting generalizing kept r with
    | nil => simp [placeAll]
    | cons d rest ih =>
      cases h : d.owner with
      | none => simp [Declaration.claim?, h, ih]
      | some owner => simp [Declaration.claim?, h, ih, placeAll, place]
  exact scan a.orphans [] a.registry

theorem createGlobalPlaces {a : Aggregation} (some : a.orphans ≠ []) :
    a.createGlobalClass = { a with
      registry := placeAll ((ensure a.registry globalName).modify globalName describeGlobal)
        (a.orphans.map (globalName, ·))
      orphans := [] } := by
  have known : globalName ∈ ((ensure a.registry globalName).modify globalName describeGlobal).keys := by
    rw [OrderedMap.keysModify]
    exact (memEnsure _ _ _).mpr (Or.inr rfl)
  simp only [createGlobalClass, List.isEmpty_iff, some, if_false, placeAllKnown known]

/-- What holds at every moment, when the declarations `fed` have come in. -/
structure Consistent (a : Aggregation) (fed : List Declaration) : Prop where
  owned : a.registry.All ClassEntry.Owns
  waiting : ∀ d ∈ a.orphans, ∀ owner, d.owner = some owner → owner ∉ a.registry.keys
  complete : ((a.registry.members ++ a.orphans).map Declaration.disowned).Perm
    ((fed.filter (·.kind.isMember)).map Declaration.disowned)

section Consistent
variable {a : Aggregation} {fed : List Declaration}

theorem consistentStart : Consistent {} [] :=
  ⟨OrderedMap.allEmpty, by simp, by simp [Registry.members, OrderedMap.values, OrderedMap.empty]⟩

theorem consistentClosed (h : a.Consistent fed) (current : Option String) : Consistent { a with current } fed :=
  ⟨h.owned, h.waiting, h.complete⟩

theorem orphansAreMembers (h : a.Consistent fed) {d : Declaration} (waits : d ∈ a.orphans) : d.kind ≠ .classKind := by
  have came : d.disowned ∈ (fed.filter (·.kind.isMember)).map Declaration.disowned :=
    h.complete.mem_iff.mp (List.mem_map.mpr ⟨d, List.mem_append_right _ waits, rfl⟩)
  obtain ⟨original, came, same⟩ := List.mem_map.mp came
  have kind : original.disowned.kind = d.disowned.kind := congrArg Declaration.kind same
  change original.kind = d.kind at kind
  simpa [Kind.isMember, kind] using (List.mem_filter.mp came).2

theorem completePlaceAll (r : Registry) (claims : List (String × Declaration)) (kept orphans : List Declaration)
    (parts : (claims.map Prod.snd ++ kept).Perm orphans) :
    (((placeAll r claims).members ++ kept).map Declaration.disowned).Perm
      ((r.members ++ orphans).map Declaration.disowned) := by
  have placed := (membersPlaceAll r claims).append_right (kept.map Declaration.disowned)
  have regrouped := (parts.map Declaration.disowned).append_left (r.members.map Declaration.disowned)
  simp only [List.map_append, List.append_assoc] at placed regrouped ⊢
  exact placed.trans regrouped

theorem consistentAddMember (h : a.Consistent fed) {d : Declaration} (member : d.kind ≠ .classKind) :
    (a.addMember d).Consistent (fed ++ [d]) := by
  have grown : ((a.registry.members ++ a.orphans ++ [d]).map Declaration.disowned).Perm
      (((fed ++ [d]).filter (·.kind.isMember)).map Declaration.disowned) := by
    have isMember : d.kind.isMember = true := by simpa [Kind.isMember] using member
    simpa [isMember] using h.complete.append_right [d.disowned]
  by_cases home : ∃ className, d.owner.or a.current = some className ∧ className ∈ a.registry.keys
  · obtain ⟨className, target, known⟩ := home
    rw [addMemberKnown target known]
    refine ⟨ownsPlace h.owned member, ?_, ?_⟩
    · intro orphan waits owner named
      rw [keysPlace, if_pos known]
      exact h.waiting orphan waits owner named
    · refine .trans ?_ grown
      have placed := completePlaceAll a.registry [(className, d)] a.orphans (a.orphans ++ [d]) List.perm_append_comm
      simpa [placeAll] using placed
  · have unknown : ∀ className, d.owner.or a.current = some className → className ∉ a.registry.keys :=
      fun className target known => home ⟨className, target, known⟩
    rw [addMemberWaits unknown]
    refine ⟨h.owned, ?_, by simpa using grown⟩
    intro orphan waits owner named
    rcases List.mem_append.mp waits with old | new
    · exact h.waiting orphan old owner named
    · cases List.mem_singleton.mp new
      exact unknown owner (by rw [named]; rfl)

theorem consistentAddClass (h : a.Consistent fed) {d : Declaration} (isClass : d.kind = .classKind) :
    (a.addClass d).value.Consistent (fed ++ [d]) := by
  rw [addClassValue, adoptKnown (memDeclare a.registry d)]
  refine ⟨ownsPlaceAll (ownsDeclare h.owned d) ?_, ?_, ?_⟩
  · intro claim hc
    obtain ⟨orphan, mine, rfl⟩ := List.mem_map.mp hc
    exact orphansAreMembers h (List.mem_filter.mp mine).1
  · intro orphan waits owner named
    obtain ⟨waited, other⟩ := List.mem_filter.mp waits
    have different : owner ≠ d.name := by
      rintro rfl
      simp [Declaration.names, named] at other
    have before := h.waiting orphan waited owner named
    rw [keysPlaceAllKnown (memDeclare a.registry d), keysDeclare]
    split <;> simp [before, different]
  · have placed := completePlaceAll (declare a.registry d) ((a.orphans.filter (·.names d.name)).map (d.name, ·))
      (a.orphans.filter (!·.names d.name)) a.orphans
      (by simpa [Function.comp_def] using List.filter_append_perm (·.names d.name) a.orphans)
    rw [membersDeclare] at placed
    refine placed.trans ?_
    simpa [isClass, Kind.isMember] using h.complete

theorem consistentAdd (h : a.Consistent fed) (d : Declaration) : (a.add d).value.Consistent (fed ++ [d]) := by
  unfold add
  split
  · exact consistentAddClass h (by assumption)
  · exact consistentAddMember h (by assumption)

theorem consistentAddFile (h : a.Consistent fed) (f : FileResult) : (a.addFile f).value.Consistent (fed ++ f.records) := by
  rw [addFile, Reported.valueFoldlM]
  have scan (records : List Declaration) {a : Aggregation} {fed : List Declaration} (h : a.Consistent fed) :
      (records.foldl (fun a d => (a.add d).value) a).Consistent (fed ++ records) := by
    induction records generalizing a fed with
    | nil => simpa using h
    | cons d rest ih => simpa using ih (consistentAdd h d)
  exact scan f.records (consistentClosed h none)

theorem consistentClassify (h : a.Consistent fed) : a.classifyOrphans.Consistent fed := by
  rw [classifyOrphansPlaces]
  refine ⟨ownsPlaceAll h.owned ?_, ?_, ?_⟩
  · intro claim hc
    obtain ⟨orphan, waits, named⟩ := List.mem_filterMap.mp hc
    obtain ⟨owner, -, rfl⟩ := Option.map_eq_some_iff.mp named
    exact orphansAreMembers h waits
  · intro orphan waits owner named
    have loose := (List.mem_filter.mp waits).2
    simp [named] at loose
  · refine (completePlaceAll a.registry (a.orphans.filterMap Declaration.claim?)
      (a.orphans.filter (·.owner.isNone)) a.orphans ?_).trans h.complete
    rw [Declaration.claimed]
    simpa using List.filter_append_perm (·.owner.isSome) a.orphans

theorem ownsDescribeGlobal {key : String} {e : ClassEntry} (h : e.Owns key) : (describeGlobal e).Owns key := by
  unfold describeGlobal
  split
  · exact h
  · exact ⟨h.named, h.owned, h.members⟩

theorem membersDescribeGlobal (e : ClassEntry) : (describeGlobal e).members = e.members := by
  unfold describeGlobal
  split <;> rfl

theorem consistentGlobal (h : a.Consistent fed) : a.createGlobalClass.Consistent fed := by
  by_cases empty : a.orphans = []
  · simpa [createGlobalClass, empty] using h
  · rw [createGlobalPlaces empty]
    refine ⟨ownsPlaceAll ?_ ?_, by simp, ?_⟩
    · exact OrderedMap.allModify (allEnsure h.owned (ClassEntry.ownsNothing (.emptyClass globalName)))
        fun _ owns => ownsDescribeGlobal owns
    · intro claim hc
      obtain ⟨orphan, waits, rfl⟩ := List.mem_map.mp hc
      exact orphansAreMembers h waits
    · have placed := completePlaceAll ((ensure a.registry globalName).modify globalName describeGlobal)
        (a.orphans.map (globalName, ·)) [] a.orphans (by simp [Function.comp_def])
      rw [membersModify _ _ _ membersDescribeGlobal, membersEnsure] at placed
      exact placed.trans h.complete

end Consistent

inductive Step where
  | file (f : FileResult)
  | classifyOrphans
  | createGlobalClass

namespace Step

def apply (a : Aggregation) : Step → Aggregation
  | file f => (a.addFile f).value
  | classifyOrphans => a.classifyOrphans
  | createGlobalClass => a.createGlobalClass

def fed : Step → List Declaration
  | file f => f.records
  | classifyOrphans => []
  | createGlobalClass => []

theorem consistentApply {a : Aggregation} {before : List Declaration} (h : a.Consistent before) (step : Step) :
    (step.apply a).Consistent (before ++ step.fed) := by
  cases step with
  | file f => exact consistentAddFile h f
  | classifyOrphans => simpa [fed, apply] using consistentClassify h
  | createGlobalClass => simpa [fed, apply] using consistentGlobal h

end Step

/-- The state after some steps. The states on the way to it are those after fewer steps. -/
def after (steps : List Step) : Aggregation := steps.foldl Step.apply {}

theorem consistentAfterSteps (steps : List Step) : (after steps).Consistent (steps.flatMap Step.fed) := by
  have run (steps : List Step) {a : Aggregation} {before : List Declaration} (h : a.Consistent before) :
      (steps.foldl Step.apply a).Consistent (before ++ steps.flatMap Step.fed) := by
    induction steps generalizing a before with
    | nil => simpa using h
    | cons step rest ih => simpa using ih (step.consistentApply h)
  exact run steps consistentStart

end Aggregation
end ClassDocs
