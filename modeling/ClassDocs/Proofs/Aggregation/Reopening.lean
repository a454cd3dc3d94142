import ClassDocs.Proofs.Aggregation.Placement

/-! Classes that are declared more than once. In the end the record of a class is put together from its declarations in the
order of the input, whatever else comes between them, and a declaration is reported if it names another parent than the
first one named. -/
namespace ClassDocs

theorem mergeNamesNew (names more : List String) : mergeNames names more = names ++ (more.removeAll names).eraseDups := by
  induction more using List.reverseRecOn with
  | nil => simp [mergeNames]
  | append_singleton before n ih =>
    have step : mergeNames names (before ++ [n]) =
        if n ∈ mergeNames names before then mergeNames names before else mergeNames names before ++ [n] := by
      rw [mergeNames, List.foldl_append]
      rfl
    rw [step, ih]
    by_cases old : n ∈ names
    · simp [old, List.removeAll]
    · have rest : (before ++ [n]).removeAll names = before.removeAll names ++ [n] := by simp [old, List.removeAll]
      rw [rest, Registry.eraseDupsConcat]
      by_cases known : n ∈ before <;> simp [old, known, List.removeAll]

namespace Declaration

/- How the parts of a record come about when a class is opened again and again, by the way the parts of two declarations
are put together. -/
section Reopened
variable (later : List Declaration) (first : Declaration)

theorem reopenedGiven {α : Type} {f : Declaration → Option α} (step : ∀ old new, f (old.reopen new) = (f old).or (f new)) :
    f (later.foldl reopen first) = (first :: later).findSome? f := by
  induction later generalizing first with
  | nil => cases given : f first <;> simp [given]
  | cons d rest ih =>
    rw [List.foldl_cons, ih, List.findSome?_cons, List.findSome?_cons, List.findSome?_cons, step]
    cases f first <;> rfl

theorem reopenedAny {f : Declaration → Bool} (step : ∀ old new, f (old.reopen new) = (f old || f new)) :
    f (later.foldl reopen first) = (first :: later).any f := by
  induction later generalizing first with
  | nil => simp
  | cons d rest ih => rw [List.foldl_cons, ih, List.any_cons, List.any_cons, List.any_cons, step, Bool.or_assoc]

theorem reopenedNames {f : Declaration → List String} (step : ∀ old new, f (old.reopen new) = mergeNames (f old) (f new)) :
    f (later.foldl reopen first) = f first ++ ((later.flatMap f).removeAll (f first)).eraseDups := by
  rw [← mergeNamesNew]
  induction later generalizing first with
  | nil => rfl
  | cons d rest ih =>
    rw [List.foldl_cons, ih, step, List.flatMap_cons]
    exact List.foldl_append.symm

theorem reopenedAll {α : Type} {f : Declaration → List α} (step : ∀ old new, f (old.reopen new) = f old ++ f new) :
    f (later.foldl reopen first) = (first :: later).flatMap f := by
  induction later generalizing first with
  | nil => simp
  | cons d rest ih =>
    rw [List.foldl_cons, ih, List.flatMap_cons, List.flatMap_cons, List.flatMap_cons, step, List.append_assoc]

theorem reopenedFirst {α : Type} {f : Declaration → α} (step : ∀ old new, f (old.reopen new) = f old) :
    f (later.foldl reopen first) = f first := by
  induction later generalizing first with
  | nil => rfl
  | cons d rest ih => rw [List.foldl_cons, ih, step]

theorem reopenedDoc : (later.foldl reopen first).info.doc = (((first :: later).find? hasDoc).getD first).info.doc := by
  induction later generalizing first with
  | nil => cases given : first.hasDoc <;> simp [given]
  | cons d rest ih =>
    have doc : (first.reopen d).info.doc = if !first.hasDoc && d.hasDoc then d.info.doc else first.info.doc := rfl
    have same : (first.reopen d).hasDoc = documented (first.reopen d).info.doc := rfl
    rw [List.foldl_cons, ih, List.find?_cons, List.find?_cons, List.find?_cons, same, doc]
    cases given : first.hasDoc with
    | true => simp [show documented first.info.doc = true from given, doc, given]
    | false =>
      cases more : d.hasDoc with
      | true => simp [show documented d.info.doc = true from more, doc, given, more]
      | false =>
        simp only [Bool.not_false, Bool.and_false, Bool.false_eq_true, if_false, show documented first.info.doc = false from given]
        cases rest.find? hasDoc <;> simp [doc, more]

end Reopened

/-- The record of a class that `first` declares and `later` open again. -/
structure Folds (first : Declaration) (later : List Declaration) (d : Declaration) : Prop where
  parent : d.info.classInfo.parent = (first :: later).findSome? (·.info.classInfo.parent)
  mixins : d.info.classInfo.mixins = first.info.classInfo.mixins ++
    ((later.flatMap (·.info.classInfo.mixins)).removeAll first.info.classInfo.mixins).eraseDups
  requires : d.info.classInfo.requires = first.info.classInfo.requires ++
    ((later.flatMap (·.info.classInfo.requires)).removeAll first.info.classInfo.requires).eraseDups
  singleton : d.info.classInfo.singleton = (first :: later).any (·.info.classInfo.singleton)
  ignore : d.info.ignore = (first :: later).any (·.info.ignore)
  codeStyle : d.info.classInfo.codeStyle = .extDefine ↔ ∃ x ∈ first :: later, x.info.classInfo.codeStyle = .extDefine
  overrideTarget : d.info.classInfo.overrideTarget = (first :: later).findSome? (·.info.classInfo.overrideTarget)
  enumSpec : d.info.classInfo.enumSpec = (first :: later).findSome? (·.info.classInfo.enumSpec)
  doc : d.info.doc = (((first :: later).find? hasDoc).getD first).info.doc
  files : d.files = (first :: later).flatMap Declaration.files

theorem reopenedFolds (first : Declaration) (later : List Declaration) : Folds first later (later.foldl reopen first) where
  parent := reopenedGiven later first (f := (·.info.classInfo.parent)) fun _ _ => rfl
  mixins := reopenedNames later first (f := (·.info.classInfo.mixins)) fun _ _ => rfl
  requires := reopenedNames later first (f := (·.info.classInfo.requires)) fun _ _ => rfl
  singleton := reopenedAny later first (f := (·.info.classInfo.singleton)) fun _ _ => rfl
  ignore := reopenedAny later first (f := (·.info.ignore)) fun _ _ => rfl
  codeStyle := by
    have any := reopenedAny later first (f := (·.info.classInfo.codeStyle == .extDefine)) fun old new => by
      simp only [reopen, ClassInfo.merge]
      cases old.info.classInfo.codeStyle <;> cases new.info.classInfo.codeStyle <;> rfl
    rw [← beq_iff_eq, any, List.any_eq_true]
    simp only [beq_iff_eq]
  overrideTarget := reopenedGiven later first (f := (·.info.classInfo.overrideTarget)) fun _ _ => rfl
  enumSpec := reopenedGiven later first (f := (·.info.classInfo.enumSpec)) fun _ _ => rfl
  doc := reopenedDoc later first
  files := reopenedAll later first fun _ _ => rfl

def folded : List Declaration → Option Declaration
  | [] => none
  | first :: later => some (later.foldl reopen first)

theorem foldedConcat (ds : List Declaration) (d : Declaration) : folded (ds ++ [d]) = some ((folded ds).elim d (·.reopen d)) := by
  cases ds with
  | nil => rfl
  | cons first later => simp [folded, List.foldl_append]

/-- What is to be said of a declaration among all that came in: it names a parent, and one of its class named another one first. -/
def parentWarning? (all : List Declaration) (d : Declaration) : Option Diagnostic :=
  match (all.filter (·.isFor .classKind d.name)).findSome? (·.info.classInfo.parent), d.info.classInfo.parent with
  | some here, some other =>
    if here = other then none
    else some (.warning .conflictingParent ("Class " ++ d.name ++ " extends " ++ other ++ " here but " ++ here ++ " elsewhere")
      d.location?)
  | _, _ => none

end Declaration

namespace Registry

def recordOf? (r : Registry) (name : String) : Option Declaration := (r.get? name).map ClassEntry.record

theorem recordPushMember (r : Registry) (className : String) (d : Declaration) (name : String) :
    (pushMember r className d).recordOf? name = r.recordOf? name := by
  rw [recordOf?, pushMember, OrderedMap.getModify, recordOf?]
  split
  · cases r.get? name <;> rfl
  · rfl

theorem recordPushAll (r : Registry) (className : String) (ds : List Declaration) (name : String) :
    recordOf? (ds.foldl (fun r d => pushMember r className d) r) name = r.recordOf? name :=
  List.foldlRecOn (motive := fun r' : Registry => r'.recordOf? name = r.recordOf? name) ds _ rfl fun _ same d _ =>
    (recordPushMember _ className d name).trans same

theorem recordDeclare (r : Registry) (d : Declaration) (name : String) :
    (declare r d).recordOf? name = if name = d.name then some ((r.recordOf? name).elim d (·.reopen d)) else r.recordOf? name := by
  unfold declare
  split
  · rename_i e known
    rw [recordOf?, OrderedMap.getModify, recordOf?]
    split
    · rename_i same
      simp [same, known]
    · rfl
  · rename_i unknown
    rw [recordOf?, insertEntry, OrderedMap.getInsert, recordOf?]
    split
    · rename_i same
      simp [same, unknown]
    · rfl

theorem recordEnsure {r : Registry} {name : String} {d : Declaration} (known : r.recordOf? name = some d) (key : String) :
    (ensure r key).recordOf? name = some d := by
  rw [recordOf?, getEnsure]
  obtain ⟨e, found, record⟩ := Option.map_eq_some_iff.mp known
  split
  · rename_i same
    rw [← same, found, ← record]
    rfl
  · exact known

theorem recordPlaceAll {r : Registry} {name : String} {d : Declaration} (known : r.recordOf? name = some d)
    (claims : List (String × Declaration)) : (placeAll r claims).recordOf? name = some d := by
  refine List.foldlRecOn (motive := fun r' : Registry => r'.recordOf? name = some d) claims place known fun r' here claim _ => ?_
  rw [place, recordPushMember]
  exact recordEnsure here claim.1

end Registry

namespace Aggregation
open Registry Declaration

/-- Every class has the record that its declarations among those that came in fold to. -/
def Opened (a : Aggregation) (fed : List Declaration) : Prop :=
  ∀ name, a.registry.recordOf? name = folded (fed.filter (·.isFor .classKind name))

section Opened
variable {a : Aggregation} {fed all coming : List Declaration}

theorem recordAddMember (a : Aggregation) (d : Declaration) (name : String) :
    (a.addMember d).registry.recordOf? name = a.registry.recordOf? name := by
  rw [addMemberTarget]
  split
  · split
    · exact recordPushMember _ _ _ _
    · rfl
  · rfl

theorem recordAddClass (a : Aggregation) (d : Declaration) (name : String) :
    (a.addClass d).value.registry.recordOf? name =
      if name = d.name then some ((a.registry.recordOf? name).elim d (·.reopen d)) else a.registry.recordOf? name := by
  rw [addClassValue, ← recordDeclare]
  exact recordPushAll ..

theorem openedAdd (h : a.Opened fed) (d : Declaration) : (a.add d).value.Opened (fed ++ [d]) := by
  intro name
  unfold add
  split
  · rename_i isClass
    rw [recordAddClass, h name, List.filter_append]
    by_cases same : name = d.name
    · subst same
      simp [Declaration.isFor, isClass, foldedConcat]
    · simp [Declaration.isFor, Ne.symm same, same]
  · rename_i isMember
    have other : [d].filter (·.isFor .classKind name) = [] := by simp [Declaration.isFor, isMember]
    rw [List.filter_append, other, List.append_nil]
    exact (recordAddMember a d name).trans (h name)

theorem openedRecord (h : a.Opened fed) {name : String} {r : Declaration} (known : a.registry.recordOf? name = some r) :
    r.name = name ∧ r.info.classInfo.parent = (fed.filter (·.isFor .classKind name)).findSome? (·.info.classInfo.parent) := by
  rw [h name] at known
  cases declared : fed.filter (·.isFor .classKind name) with
  | nil => rw [declared] at known; contradiction
  | cons first later =>
    rw [declared] at known
    cases known
    have here : first.isFor .classKind name = true := (List.mem_filter.mp (declared ▸ List.mem_cons_self)).2
    have name : first.name = name := (Declaration.isForIff.mp here).2
    exact ⟨(reopenedFirst later first fun _ _ => rfl).trans name, (reopenedFolds first later).parent⟩

/- A declaration without a parent, or the first one with a parent, agrees with all that is still to come. -/
theorem findingsAdd (h : a.Opened fed) {d : Declaration} (parts : all = fed ++ d :: coming) :
    (a.add d).findings = ([d].filter (·.kind == .classKind)).filterMap (parentWarning? all) := by
  unfold add
  split
  · rename_i isClass
    have mine : d.isFor .classKind d.name = true := Declaration.isForIff.mpr ⟨isClass, rfl⟩
    -- the first parent of all is one given before, or else this one, or else one that is still to come
    have among : (all.filter (·.isFor .classKind d.name)).findSome? (·.info.classInfo.parent) =
        ((fed.filter (·.isFor .classKind d.name)).findSome? (·.info.classInfo.parent)).or (d.info.classInfo.parent.or
          ((coming.filter (·.isFor .classKind d.name)).findSome? (·.info.classInfo.parent))) := by
      rw [parts, List.filter_append, List.filter_cons_of_pos mine, List.findSome?_append, List.findSome?_cons]
      cases d.info.classInfo.parent <;> rfl
    have warned : (a.addClass d).findings = match a.registry.recordOf? d.name with
        | some r => r.parentConflict d
        | none => [] := by
      rw [addClass, recordOf?]
      cases a.registry.get? d.name <;> rfl
    have single : ([d].filter (·.kind == .classKind)) = [d] := by simp [isClass]
    rw [warned, single, List.filterMap_cons, List.filterMap_nil, parentWarning?, among]
    cases known : a.registry.recordOf? d.name with
    | none =>
      have declared := (h d.name).symm.trans known
      have nothing : fed.filter (·.isFor .classKind d.name) = [] := by
        cases same : fed.filter (·.isFor .classKind d.name) with
        | nil => rfl
        | cons => rw [same] at declared; contradiction
      rw [nothing]
      cases d.info.classInfo.parent <;> simp
    | some r =>
      obtain ⟨named, parent⟩ := openedRecord h known
      rw [← parent]
      simp only [parentConflict, named]
      cases r.info.classInfo.parent with
      | none => cases d.info.classInfo.parent <;> simp
      | some here =>
        cases d.info.classInfo.parent with
        | none => rfl
        | some other => by_cases agree : here = other <;> simp [agree]
  · rename_i isMember
    simp [isMember]

theorem openedRecords (records : List Declaration) (h : a.Opened fed) (parts : all = fed ++ (records ++ coming)) :
    (records.foldlM add a).value.Opened (fed ++ records) ∧ (records.foldlM add a).findings =
      (records.filter (·.kind == .classKind)).filterMap (parentWarning? all) := by
  induction records generalizing a fed with
  | nil => exact ⟨by rwa [List.append_nil], rfl⟩
  | cons d rest ih =>
    obtain ⟨opened, findings⟩ := ih (openedAdd h d) (by simp [parts])
    rw [List.append_assoc, List.singleton_append] at opened
    refine ⟨opened, ?_⟩
    rw [List.foldlM_cons, Reported.findingsBind, findings, findingsAdd h parts, ← List.filterMap_append, ← List.filter_append]
    rfl

theorem openedFiles (files : List FileResult) (h : a.Opened fed)
    (parts : all = fed ++ (files.flatMap FileResult.records ++ coming)) :
    (files.foldlM addFile a).value.Opened (fed ++ files.flatMap FileResult.records) ∧ (files.foldlM addFile a).findings =
      ((files.flatMap FileResult.records).filter (·.kind == .classKind)).filterMap (parentWarning? all) := by
  induction files generalizing a fed with
  | nil => exact ⟨by rwa [List.flatMap_nil, List.append_nil], rfl⟩
  | cons f rest ih =>
    obtain ⟨opened, findings⟩ : (a.addFile f).value.Opened (fed ++ f.records) ∧ (a.addFile f).findings =
        (f.records.filter (·.kind == .classKind)).filterMap (parentWarning? all) :=
      openedRecords (a := { a with current := none }) f.records h (by rw [parts, List.flatMap_cons, List.append_assoc])
    obtain ⟨openedRest, findingsRest⟩ := ih opened (by simp [parts])
    rw [List.append_assoc, ← List.flatMap_cons] at openedRest
    refine ⟨openedRest, ?_⟩
    rw [List.foldlM_cons, Reported.findingsBind, findings, findingsRest, ← List.filterMap_append, ← List.filter_append,
      List.flatMap_cons]

end Opened
end Aggregation

open Aggregation Registry Declaration

/-- The declarations of a class in the order of the input. -/
def declarationsOf (files : List FileResult) (className : String) : List Declaration :=
  (files.flatMap FileResult.records).filter (·.isFor .classKind className)

/-- What the declarations of classes have to be told. -/
def parentWarnings (files : List FileResult) : List Diagnostic :=
  ((files.flatMap FileResult.records).filter (·.kind == .classKind)).filterMap (parentWarning? (files.flatMap FileResult.records))

theorem openedAggregate (files : List FileResult) :
    (filesIn files).Opened (files.flatMap FileResult.records) ∧ (aggregate files).findings = parentWarnings files := by
  have start : Opened {} [] := fun _ => rfl
  have parts : files.flatMap FileResult.records = [] ++ (files.flatMap FileResult.records ++ []) := by simp
  obtain ⟨opened, findings⟩ := openedFiles files start parts
  rw [Reported.valueFoldlM, List.nil_append] at opened
  refine ⟨opened, ?_⟩
  rw [aggregate, Reported.findingsBind, findings]
  exact List.append_nil _

theorem recordDescribed {r : Registry} {className : String} {d : Declaration} (known : r.recordOf? className = some d) :
    ∃ doc, recordOf? (r.modify globalName describeGlobal) className = some { d with info := { d.info with doc } } ∧
      (className ≠ globalName → doc = d.info.doc) := by
  obtain ⟨e, found, rfl⟩ := Option.map_eq_some_iff.mp known
  simp only [recordOf?, OrderedMap.getModify, found]
  by_cases isGlobal : className = globalName
  · simp only [isGlobal, if_true, Option.map_some, describeGlobal]
    split
    · exact ⟨e.record.info.doc, rfl, fun _ => rfl⟩
    · exact ⟨some globalClassDoc, rfl, fun other => absurd rfl other⟩
  · exact ⟨e.record.info.doc, by rw [if_neg isGlobal]; rfl, fun _ => rfl⟩

/- Only the global class may get documentation that its declarations do not have, when members are left for it. -/
theorem recordAggregate {files : List FileResult} {className : String} {d : Declaration}
    (declared : folded (declarationsOf files className) = some d) :
    ∃ e doc, (aggregate files).value.get? className = some e ∧ e.record = { d with info := { d.info with doc } } ∧
      (className ≠ globalName → doc = d.info.doc) := by
  have classified : (filesIn files).classifyOrphans.registry.recordOf? className = some d := by
    rw [classifyOrphansPlaces]
    exact recordPlaceAll (((openedAggregate files).1 className).trans declared) _
  by_cases loose : looseMembers files = []
  · rw [aggregateWithoutLoose files loose]
    obtain ⟨e, found, record⟩ := Option.map_eq_some_iff.mp classified
    exact ⟨e, d.info.doc, found, record, fun _ => rfl⟩
  · rw [aggregateWithLoose files loose]
    obtain ⟨doc, described, same⟩ := recordDescribed (recordEnsure classified globalName)
    obtain ⟨e, found, record⟩ := Option.map_eq_some_iff.mp
      (recordPlaceAll described ((looseMembers files).map (globalName, ·)))
    exact ⟨e, doc, found, record, same⟩

/-- A class that `first` declares and `later` open again has the record they fold to, and in the whole input a warning stands for
each declaration that names another parent than the first one named for its class. -/
theorem reopenedClass {files : List FileResult} {className : String} (other : className ≠ globalName) {first : Declaration}
    {later : List Declaration} (declared : declarationsOf files className = first :: later) :
    (∃ e, (aggregate files).value.get? className = some e ∧ Folds first later e.record) ∧
    (aggregate files).findings = parentWarnings files := by
  obtain ⟨e, doc, found, record, same⟩ := recordAggregate (by rw [declared, folded])
  rw [same other] at record
  exact ⟨⟨e, found, record ▸ reopenedFolds first later⟩, (openedAggregate files).2⟩

/- A panel that is opened again in another file, with a member that waits for it and a dialog in between. -/
def movablePanel : Declaration :=
  { kind := .classKind, name := "Panel", files := [⟨"panel.js", 1⟩],
    info := { doc := some " ", classInfo := { mixins := ["Movable", "Movable"] } } }

def reopenedPanels : List Declaration := [
  { kind := .classKind, name := "Panel", files := [⟨"panel.js", 9⟩],
    info := { doc := some "A panel.", ignore := true, classInfo :=
      { parent := some "Component", mixins := ["Sizable", "Movable", "Sizable"], codeStyle := .extDefine } } },
  { kind := .classKind, name := "Panel", files := [⟨"more.js", 4⟩],
    info := { doc := some "More.", classInfo := { parent := some "Container", mixins := ["Closable"], singleton := true } } }]

def panelFiles : List FileResult := [
  ⟨"panel.js", [{ kind := .method, name := "show", owner := some "Panel", files := [⟨"panel.js", 7⟩] }, movablePanel,
    { kind := .classKind, name := "Dialog", files := [⟨"panel.js", 5⟩], info := { classInfo := { parent := some "Panel" } } },
    reopenedPanels[0]]⟩,
  ⟨"more.js", [{ kind := .event, name := "load", files := [⟨"more.js", 1⟩] }, reopenedPanels[1]]⟩]

theorem panelReopened : "Panel" ≠ globalName ∧ declarationsOf panelFiles "Panel" = movablePanel :: reopenedPanels ∧
    (∃ e, (aggregate panelFiles).value.get? "Panel" = some e ∧ e.record.info.classInfo.parent = some "Component" ∧
      e.record.info.classInfo.mixins = ["Movable", "Movable", "Sizable", "Closable"] ∧ e.record.info.doc = some "A panel.") ∧
    (aggregate panelFiles).findings = [.warning .conflictingParent "Class Panel extends Container here but Component elsewhere"
      (some ⟨"more.js", 4⟩)] := by
  have other : "Panel" ≠ globalName := by decide
  have declared : declarationsOf panelFiles "Panel" = movablePanel :: reopenedPanels := by rfl
  obtain ⟨⟨e, found, folds⟩, findings⟩ := reopenedClass other declared
  exact ⟨other, declared, ⟨e, found, folds.parent, folds.mixins.trans (by decide), folds.doc⟩, findings.trans (by decide)⟩

end ClassDocs
