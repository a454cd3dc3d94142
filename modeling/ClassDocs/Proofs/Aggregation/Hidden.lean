import ClassDocs.Proofs.Aggregation.Steps
import ClassDocs.Proofs.Registry.Related

/-! Declarations that differ in words that nobody is to see. Aggregation decides by the rest, and what a hidden
declaration says stays with it: a class is hidden as soon as one of its declarations is. -/
namespace ClassDocs

def Metadata.wordless (m : Metadata) : Metadata :=
  { m with doc := none, defaultText := none, value := none, params := [], returns := none }

namespace Declaration

def wordless (d : Declaration) : Declaration := { d with info := d.info.wordless }

def asksOut (d : Declaration) : Bool := d.info.ignore

/-- The same declaration, but for the words of a hidden one. -/
structure Alike (hidden : Declaration → Bool) (d d' : Declaration) : Prop where
  rest : d'.wordless = d.wordless
  words : hidden d = false → d' = d

section Alike
variable {hidden hidden' : Declaration → Bool} {d d' d'' : Declaration}

theorem alikeSame (d : Declaration) : d.Alike hidden d := ⟨rfl, fun _ => rfl⟩

theorem alikeTrans (first : d.Alike hidden d') (second : d'.Alike hidden d'') : d.Alike hidden d'' := by
  refine ⟨second.rest.trans first.rest, fun shown => ?_⟩
  have same := first.words shown
  exact (second.words (same ▸ shown)).trans same

/- What can be told without the words. -/
theorem alikeField {α : Type} {f : Declaration → α} (without : ∀ d, f d.wordless = f d) (h : d.Alike hidden d') :
    f d' = f d := by
  rw [← without d', h.rest, without]

theorem alikeName (h : d.Alike hidden d') : d'.name = d.name := alikeField (f := name) (fun _ => rfl) h

theorem alikeOwner (h : d.Alike hidden d') : d'.owner = d.owner := alikeField (f := owner) (fun _ => rfl) h

theorem alikeClassInfo (h : d.Alike hidden d') : d'.info.classInfo = d.info.classInfo :=
  alikeField (f := (·.info.classInfo)) (fun _ => rfl) h

theorem alikeLocation (h : d.Alike hidden d') : d'.location? = d.location? := alikeField (f := location?) (fun _ => rfl) h

/- A change whose outcome shows no words that were not there to be seen. -/
theorem alikeChanged {f : Declaration → Declaration} (rest : ∀ d, (f d).wordless = (f d.wordless).wordless)
    (shown : ∀ d, hidden' (f d) = false → hidden d = false) (h : d.Alike hidden d') : (f d).Alike hidden' (f d') :=
  ⟨by rw [rest d', h.rest, ← rest], fun visible => by rw [h.words (shown d visible)]⟩

end Alike

theorem alikeReopen {old old' new new' : Declaration} (h : old.Alike asksOut old') (more : new.Alike asksOut new') :
    (old.reopen new).Alike asksOut (old'.reopen new') := by
  have first : (old.reopen new).Alike asksOut (old'.reopen new) :=
    alikeChanged (f := (reopen · new)) (fun _ => rfl) (fun _ shown => (Bool.or_eq_false_iff.mp shown).1) h
  have second : (old'.reopen new).Alike asksOut (old'.reopen new') :=
    alikeChanged (f := old'.reopen) (fun _ => rfl) (fun _ shown => (Bool.or_eq_false_iff.mp shown).2) more
  exact alikeTrans first second

theorem conflictAlike {hidden : Declaration → Bool} {old old' new new' : Declaration} (h : old.Alike hidden old')
    (more : new.Alike hidden new') : old'.parentConflict new' = old.parentConflict new := by
  simp only [parentConflict, alikeClassInfo h, alikeClassInfo more, alikeName h, alikeLocation more]

end Declaration

namespace ClassEntry

structure Alike (hidden : Declaration → Bool) (e e' : ClassEntry) : Prop where
  record : e.record.Alike hidden e'.record
  members : List.Forall₂ (Declaration.Alike hidden) e.members e'.members

variable {hidden : Declaration → Bool} {e e' : ClassEntry}

theorem alikeAlone {d d' : Declaration} (h : d.Alike hidden d') : Alike hidden ⟨d, []⟩ ⟨d', []⟩ := ⟨h, .nil⟩

theorem alikePush {d d' : Declaration} (unowned : ∀ d owner, hidden { d with owner } = hidden d) (h : e.Alike hidden e')
    (new : d.Alike hidden d') : (e.push d).Alike hidden (e'.push d') := by
  refine ⟨h.record, List.rel_append h.members (.cons ?_ .nil)⟩
  rw [Declaration.alikeName h.record]
  exact Declaration.alikeChanged (f := fun d => { d with owner := some e.record.name }) (fun _ => rfl)
    (fun d shown => unowned d _ ▸ shown) new

end ClassEntry

/-- The same classes with the same members, but for the words of hidden ones. -/
def Registry.Alike (hidden : Declaration → Bool) : Registry → Registry → Prop := OrderedMap.Related (ClassEntry.Alike hidden)

namespace Aggregation
open Declaration (asksOut)

structure Alike (a a' : Aggregation) : Prop where
  registry : Registry.Alike asksOut a.registry a'.registry
  orphans : List.Forall₂ (Declaration.Alike asksOut) a.orphans a'.orphans
  current : a'.current = a.current

variable {a a' : Aggregation} {d d' : Declaration}

theorem alikePushMember {r r' : Registry} (h : Registry.Alike asksOut r r') (new : d.Alike asksOut d') (className : String) :
    Registry.Alike asksOut (Registry.pushMember r className d) (Registry.pushMember r' className d') :=
  OrderedMap.relatedModify h (fun _ _ here => ClassEntry.alikePush (fun _ _ => rfl) here new) className

theorem alikePushAll {r r' : Registry} (h : Registry.Alike asksOut r r') {ds ds' : List Declaration}
    (new : List.Forall₂ (Declaration.Alike asksOut) ds ds') (className : String) :
    Registry.Alike asksOut (ds.foldl (fun r d => Registry.pushMember r className d) r)
      (ds'.foldl (fun r d => Registry.pushMember r className d) r') :=
  List.rel_foldl (P := Registry.Alike asksOut) (R := Declaration.Alike asksOut)
    (fun _ _ h _ _ new => alikePushMember h new className) h new

theorem alikeEnsure {r r' : Registry} (h : Registry.Alike asksOut r r') (name : String) :
    Registry.Alike asksOut (Registry.ensure r name) (Registry.ensure r' name) :=
  Registry.relatedEnsure h (ClassEntry.alikeAlone (Declaration.alikeSame _))

theorem alikeDeclare {r r' : Registry} (h : Registry.Alike asksOut r r') (new : d.Alike asksOut d') :
    Registry.Alike asksOut (Registry.declare r d) (Registry.declare r' d') := by
  unfold Registry.declare
  rw [Declaration.alikeName new]
  rcases OrderedMap.relatedGet h d.name with ⟨unknown, unknown'⟩ | ⟨e, e', known, known', -⟩
  · simp only [unknown, unknown', Registry.insertEntry, Declaration.alikeName new]
    exact OrderedMap.relatedInsert h d.name (ClassEntry.alikeAlone new)
  · simp only [known, known']
    refine OrderedMap.relatedModify h (fun e e' here => ?_) d.name
    exact ⟨Declaration.alikeReopen here.record new, here.members⟩

theorem alikeAdopt (h : a.Alike a') (className : String) : (a.adopt className).Alike (a'.adopt className) := by
  have mine : ∀ d d' : Declaration, d.Alike asksOut d' → (d'.owner == some className) = (d.owner == some className) :=
    fun d d' same => by rw [Declaration.alikeOwner same]
  refine ⟨alikePushAll h.registry (List.rel_filter (fun d d' same => ?_) h.orphans) className,
    List.rel_filter (fun d d' same => ?_) h.orphans, h.current⟩
  · exact Bool.eq_iff_iff.mp (mine d d' same).symm
  · exact Bool.eq_iff_iff.mp (congrArg not (mine d d' same).symm)

theorem alikeAddClass (h : a.Alike a') (new : d.Alike asksOut d') :
    Reported.Related Alike (a.addClass d) (a'.addClass d') := by
  constructor
  · rw [addClassValue, addClassValue, Declaration.alikeName new]
    have declared : Alike { a with registry := Registry.declare a.registry d }
        { a' with registry := Registry.declare a'.registry d' } := ⟨alikeDeclare h.registry new, h.orphans, h.current⟩
    have adopted := alikeAdopt declared d.name
    exact ⟨adopted.registry, adopted.orphans, rfl⟩
  · unfold addClass
    rw [Declaration.alikeName new]
    rcases OrderedMap.relatedGet h.registry d.name with ⟨unknown, unknown'⟩ | ⟨e, e', known, known', here⟩
    · simp only [unknown, unknown']
    · simp only [known, known']
      exact Declaration.conflictAlike here.record new

theorem alikeAddMember (h : a.Alike a') (new : d.Alike asksOut d') : (a.addMember d).Alike (a'.addMember d') := by
  have waits : Alike { a with orphans := a.orphans ++ [d] } { a' with orphans := a'.orphans ++ [d'] } :=
    ⟨h.registry, List.rel_append h.orphans (.cons new .nil), h.current⟩
  have target : d'.owner.or a'.current = d.owner.or a.current := by rw [Declaration.alikeOwner new, h.current]
  rw [addMemberTarget, addMemberTarget, target]
  cases d.owner.or a.current with
  | none => exact waits
  | some className =>
    simp only [OrderedMap.relatedContains h.registry]
    split
    · exact ⟨alikePushMember h.registry new className, h.orphans, h.current⟩
    · exact waits

theorem alikeAdd (h : a.Alike a') (new : d.Alike asksOut d') : Reported.Related Alike (a.add d) (a'.add d') := by
  unfold add
  rw [Declaration.alikeField (f := Declaration.kind) (fun _ => rfl) new]
  split
  · exact alikeAddClass h new
  · exact ⟨alikeAddMember h new, rfl⟩

theorem alikeClassify (h : a.Alike a') : a.classifyOrphans.Alike a'.classifyOrphans := by
  have emptied : Alike { a with orphans := [] } { a' with orphans := [] } := ⟨h.registry, .nil, h.current⟩
  unfold classifyOrphans
  refine List.rel_foldl (P := Alike) (R := Declaration.Alike asksOut) (fun a a' h d d' new => ?_) emptied h.orphans
  rw [Declaration.alikeOwner new]
  cases d.owner with
  | none => exact ⟨h.registry, List.rel_append h.orphans (.cons new .nil), h.current⟩
  | some owner => exact ⟨alikePushMember (alikeEnsure h.registry owner) new owner, h.orphans, h.current⟩

theorem alikeDescribeGlobal {e e' : ClassEntry} (h : e.Alike asksOut e') :
    (describeGlobal e).Alike asksOut (describeGlobal e') := by
  let described (d : Declaration) : Declaration :=
    if d.hasDoc then d else { d with info := { d.info with doc := some globalClassDoc } }
  have record (e : ClassEntry) : describeGlobal e = { e with record := described e.record } := by
    unfold describeGlobal
    split <;> simp only [described, *, if_true, if_false, Bool.false_eq_true]
  rw [record, record]
  refine ⟨Declaration.alikeChanged (f := described) (fun d => ?_) (fun d shown => ?_) h.record, h.members⟩
  · simp only [described]
    split <;> rfl
  · revert shown
    simp only [described]
    split <;> exact id

theorem alikeGlobal (h : a.Alike a') : a.createGlobalClass.Alike a'.createGlobalClass := by
  have empty : a'.orphans.isEmpty = a.orphans.isEmpty := by
    rw [Bool.eq_iff_iff, List.isEmpty_iff_length_eq_zero, List.isEmpty_iff_length_eq_zero, h.orphans.length_eq]
  unfold createGlobalClass
  rw [empty]
  split
  · exact h
  · refine ⟨alikePushAll ?_ h.orphans globalName, .nil, h.current⟩
    exact OrderedMap.relatedModify (alikeEnsure h.registry globalName) (fun _ _ => alikeDescribeGlobal) globalName

end Aggregation

/-- The same declarations in the same files, but for the words of those that the comments ask to leave out. -/
def FileResult.Alike (f f' : FileResult) : Prop :=
  f'.path = f.path ∧ List.Forall₂ (Declaration.Alike Declaration.asksOut) f.records f'.records

theorem alikeAggregate {files files' : List FileResult} (h : List.Forall₂ FileResult.Alike files files') :
    Reported.Related (Registry.Alike Declaration.asksOut) (aggregate files) (aggregate files') := by
  refine Reported.relatedBind (R := Aggregation.Alike) ?_ fun a a' filled =>
    Reported.relatedPure (Aggregation.alikeGlobal (Aggregation.alikeClassify filled)).registry
  refine Reported.relatedFoldlM h ⟨OrderedMap.relatedEmpty, .nil, rfl⟩ fun a a' f f' filled file => ?_
  exact Reported.relatedFoldlM file.2 ⟨filled.registry, filled.orphans, rfl⟩ fun _ _ _ _ => Aggregation.alikeAdd

end ClassDocs
