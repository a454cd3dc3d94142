import ClassDocs.Graph.History
import ClassDocs.Proofs.Graph.Inheritance

/-! What earlier releases and return statements add to a member, each once for all. They fill only gaps and do not meet,
so a member that they have filled would take from a source what it would have taken before. -/
namespace ClassDocs

theorem orStays {own first second : Option String} (h : own.or (first.or second) = own) : own.or first = own := by
  cases own <;> cases first <;> simp_all

theorem orAgain (first second : Option String) : first.or (second.or first) = first.or second := by
  cases first <;> cases second <;> rfl

namespace ReturnDoc

theorem inheritNone (own : Option ReturnDoc) : inherit own none = own := by cases own <;> rfl

theorem inheritStays {own first second : Option ReturnDoc} (h : inherit (inherit own first) second = own) :
    inherit own first = own := by
  cases own with
  | none => cases first <;> cases second <;> simp_all [inherit]
  | some own =>
    cases first with
    | none => rfl
    | some first =>
      cases second with
      | none => exact h
      | some second =>
        obtain ⟨typeName, doc⟩ := own
        simp only [inherit, Option.or_assoc, Option.some.injEq, mk.injEq] at h ⊢
        exact ⟨orStays h.1, orStays h.2⟩

theorem inheritAgain (own first second : Option ReturnDoc) :
    inherit (inherit (inherit own first) second) first = inherit (inherit own first) second := by
  cases own <;> cases first <;> cases second <;> simp [inherit, Option.or_assoc, orAgain]

end ReturnDoc

namespace Metadata

/-- What is said about return values stays, or the member returns its class, or it gets the type of its statements. -/
inductive Returned (owner : String) (m : Metadata) : Metadata → Prop where
  | kept : Returned owner m m
  | chains : Returned owner m (chained { m with chainable := true } owner)
  | typed {type} (plain : m.chainable = false) (undeclared : m.declaresReturn = false) :
      Returned owner m { m with returns := some { m.returns.getD {} with typeName := some type } }

theorem returned (m : Metadata) (owner : String) : Returned owner m (m.withReturns owner) := by
  unfold withReturns
  split
  · rename_i chainable
    have same : { m with chainable := true } = m := by rw [← chainable]
    have chained := @Returned.chains owner m
    rwa [same] at chained
  · rename_i plain
    split
    · exact .kept
    · rename_i undeclared
      split
      · exact .chains
      · split
        · exact .typed (Bool.eq_false_iff.mpr plain) (Bool.eq_false_iff.mpr undeclared)
        · exact .kept
      · exact .kept

theorem returnsGiven (m : Metadata) (owner : String) :
    ∃ given, (m.withReturns owner).returns = ReturnDoc.inherit m.returns given := by
  have after := m.returned owner
  generalize m.withReturns owner = m' at after
  cases after with
  | kept => exact ⟨none, (ReturnDoc.inheritNone _).symm⟩
  | chains => exact ⟨some ⟨some owner, some "this"⟩, by cases m.returns <;> simp [chained, ReturnDoc.inherit]⟩
  | @typed type plain undeclared =>
    refine ⟨some ⟨some type, none⟩, ?_⟩
    cases returns : m.returns with
    | none => rfl
    | some own =>
      have untyped : own.typeName = none := by simpa [declaresReturn, returns] using undeclared
      simp [ReturnDoc.inherit, untyped]

theorem withReturnsTwice (m : Metadata) (owner : String) : (m.withReturns owner).withReturns owner = m.withReturns owner := by
  have after := m.returned owner
  generalize once : m.withReturns owner = m' at after ⊢
  cases after with
  | kept => exact once
  | chains => simp [withReturns, chained]
  | typed plain => rw [withReturns, if_neg (by simp [plain]), if_pos (by rfl)]

theorem documentedFirst {α : Type} (items : List α) (doc? : α → Option String) :
    documented (items.findSome? fun a => (doc? a).filter fun d => documented (some d)) =
      items.any fun a => documented (doc? a) := by
  induction items with
  | nil => rfl
  | cons a rest ih =>
    rw [List.findSome?_cons, List.any_cons]
    cases said : doc? a with
    | none => exact ih
    | some d =>
      cases given : documented (some d) with
      | true => simp [Option.filter, given]
      | false => simpa [Option.filter, given] using ih

section Dated
variable (m : Metadata) (releases : List Release) (mention? : Release → Option (Option String))

def dated : Metadata := if releases.isEmpty then m else m.withHistory releases mention?

/- The words of the newest release that has any. -/
def lent : Option String := releases.reverse.findSome? fun r => ((mention? r).bind id).filter fun d => documented (some d)

theorem documentedHistory :
    (m.withHistory releases mention?).hasDoc = (m.hasDoc || releases.any fun r => documented ((mention? r).bind id)) := by
  have doc : (m.withHistory releases mention?).doc = if m.hasDoc then m.doc else lent releases mention? := rfl
  rw [hasDoc, doc]
  cases own : m.hasDoc with
  | true => exact own
  | false =>
    have said := documentedFirst releases.reverse fun r => (mention? r).bind id
    rwa [List.any_reverse] at said

theorem documentedDated :
    (m.dated releases mention?).hasDoc = (m.hasDoc || releases.any fun r => documented ((mention? r).bind id)) := by
  cases releases with
  | nil => exact (Bool.or_false _).symm
  | cons => exact documentedHistory m _ mention?

theorem withHistoryTwice :
    (m.withHistory releases mention?).withHistory releases mention? = m.withHistory releases mention? := by
  have history (m : Metadata) : (m.withHistory releases mention?).doc = if m.hasDoc then m.doc else lent releases mention? := rfl
  have doc : ((m.withHistory releases mention?).withHistory releases mention?).doc = (m.withHistory releases mention?).doc := by
    rw [history, documentedHistory, history]
    cases own : m.hasDoc with
    | true => rfl
    | false => exact ite_self _
  have since : ((m.withHistory releases mention?).withHistory releases mention?).since =
      (m.withHistory releases mention?).since := by
    simp only [withHistory]
    cases releases.find? fun r => (mention? r).isSome <;> simp only [Option.or_assoc, Option.or_self]
  exact congrArg₂ (fun since doc => { m.withHistory releases mention? with since, doc }) since doc

theorem datedTwice : (m.dated releases mention?).dated releases mention? = m.dated releases mention? := by
  cases releases with
  | nil => rfl
  | cons => exact withHistoryTwice m _ mention?

/- What releases and what the statements of a member tell do not meet. -/
theorem datedReturns (owner : String) :
    (m.withReturns owner).dated releases mention? = (m.dated releases mention?).withReturns owner := by
  cases releases with
  | nil => rfl
  | cons r rest =>
    change (m.withReturns owner).withHistory (r :: rest) mention? = (m.withHistory (r :: rest) mention?).withReturns owner
    have chainable : (m.withHistory (r :: rest) mention?).chainable = m.chainable := rfl
    have declares : (m.withHistory (r :: rest) mention?).declaresReturn = m.declaresReturn := rfl
    have expressions : (m.withHistory (r :: rest) mention?).returnExpressions = m.returnExpressions := rfl
    rw [withReturns, withReturns, chainable, declares, expressions]
    split
    · rfl
    · split
      · rfl
      · split
        · rfl
        · split <;> rfl
        · rfl

end Dated
end Metadata

namespace Declaration

def dated (releases : List Release) (className : String) (m : Declaration) : Declaration :=
  { m with info := m.info.dated releases fun r => (r.member? className m.kind m.name).map ExportedMember.doc }

def returning (className : String) (m : Declaration) : Declaration :=
  if m.kind = .method then { m with info := m.info.withReturns className } else m

/-- Some release says something about the member. -/
def isRecorded (releases : List Release) (className : String) (m : Declaration) : Bool :=
  releases.any fun r => documented ((r.member? className m.kind m.name).bind ExportedMember.doc)

theorem isRecordedOutline {releases : List Release} {className : String} {m m' : Declaration} (same : m'.outline = m.outline) :
    m'.isRecorded releases className = m.isRecorded releases className := by
  have sameKind : m'.kind = m.kind := congrArg Outline.kind same
  have sameName : m'.name = m.name := congrArg Outline.name same
  simp only [isRecorded, sameKind, sameName]

section Steps
variable (releases : List Release) (className : String) (m : Declaration)

theorem datedTwice : (m.dated releases className).dated releases className = m.dated releases className :=
  congrArg (fun info => { m with info }) (m.info.datedTwice releases _)

theorem returningTwice : (m.returning className).returning className = m.returning className := by
  by_cases method : m.kind = .method
  · simp only [returning, method, if_true, Metadata.withReturnsTwice]
  · simp only [returning, method, if_false]

theorem datedReturning : (m.returning className).dated releases className = (m.dated releases className).returning className := by
  by_cases method : m.kind = .method
  · simp only [dated, returning, method, if_true, Metadata.datedReturns]
  · simp only [dated, returning, method, if_false]

theorem documentedDated : (m.dated releases className).hasDoc = (m.hasDoc || m.isRecorded releases className) := by
  refine (m.info.documentedDated releases _).trans (congrArg (m.hasDoc || ·) ?_)
  simp [isRecorded, Option.bind_map]

/-- What stays of a member, when a release and its own statements have added to it. -/
structure Completed (m' : Declaration) : Prop where
  outline : m'.outline = m.outline
  wish : m'.info.inheritDoc = m.info.inheritDoc
  typeName : m'.info.typeName = m.info.typeName
  params : m'.info.params = m.info.params
  documented : m'.hasDoc = (m.hasDoc || m.isRecorded releases className)
  returns : ∃ given, m'.info.returns = ReturnDoc.inherit m.info.returns given

theorem datedOnly : ∃ doc since isNew, m.dated releases className = { m with info := { m.info with doc, since, isNew } } := by
  unfold dated Metadata.dated
  split
  · exact ⟨m.info.doc, m.info.since, m.info.isNew, rfl⟩
  · exact ⟨_, _, _, rfl⟩

theorem returningOnly : ∃ given chainable, m.returning className =
    { m with info := { m.info with returns := ReturnDoc.inherit m.info.returns given, chainable } } := by
  unfold returning
  split
  · obtain ⟨returns, chainable, filled⟩ := m.info.returnsOnly className
    obtain ⟨given, added⟩ := m.info.returnsGiven className
    rw [filled] at added ⊢
    exact ⟨given, chainable, by rw [← added]⟩
  · exact ⟨none, m.info.chainable, by rw [ReturnDoc.inheritNone]⟩

theorem returnsDated : (m.dated releases className).info.returns = m.info.returns := by
  obtain ⟨doc, since, isNew, dated⟩ := datedOnly releases className m
  rw [dated]

theorem completed : m.Completed releases className ((m.dated releases className).returning className) := by
  have documented := documentedDated releases className m
  obtain ⟨doc, since, isNew, dated⟩ := datedOnly releases className m
  rw [dated] at documented ⊢
  obtain ⟨given, chainable, returning⟩ := returningOnly className { m with info := { m.info with doc, since, isNew } }
  rw [returning]
  exact ⟨rfl, rfl, rfl, rfl, documented, given, rfl⟩

/- What is taken stays to be seen, whatever comes after it. -/
theorem takesNothing {releases : List Release} {className : String} {m : Declaration} {found : Found}
    (same : ((m.inherit found).dated releases className).returning className = m) : m.TakesNothing found := by
  have after := completed releases className (m.inherit found)
  rw [same] at after
  obtain ⟨given, returns⟩ := after.returns
  have documented := after.documented
  rw [documentedInherit] at documented
  have doc : (!m.hasDoc && found.member.hasDoc) = false := by
    cases own : m.hasDoc <;> simp_all
  exact ⟨doc, after.typeName.symm, after.params.symm, ReturnDoc.inheritStays returns.symm⟩

theorem takesNothingAgain {found : Found} (given : found.member.hasDoc = true)
    (distinct : (found.member.info.params.map Param.name).Nodup)
    (kept : (found.member.returning found.className).info.returns = found.member.info.returns) :
    (((m.inherit found).dated releases className).returning className).TakesNothing
      ⟨found.className, (found.member.dated releases found.className).returning found.className⟩ := by
  have source := completed releases found.className found.member
  have after := completed releases className (m.inherit found)
  have served : (((m.inherit found).dated releases className).returning className).hasDoc = true := by
    rw [after.documented, documentedInherit, given, Bool.or_true, Bool.true_or]
  obtain ⟨more, returns⟩ := after.returns
  rw [← returnsDated releases found.className, datedReturning] at kept
  constructor <;> dsimp only
  · exact Bool.and_eq_false_imp.mpr fun missing => absurd served (by simpa [hasDoc] using missing)
  · rw [after.typeName, source.typeName]
    simp only [inherit, Option.or_assoc, Option.or_self]
  · rw [after.params, source.params]
    exact Param.inheritAllTwice distinct m.info.params
  · rw [returns, kept]
    exact ReturnDoc.inheritAgain _ _ _

end Steps
end Declaration

namespace ClassRecord

def dated (releases : List Release) (c : ClassRecord) : ClassRecord :=
  { c with
    info := c.info.dated releases fun r => (r.class? c.name).map ExportedClass.doc
    members := c.members.map (·.dated releases c.name) }

def returning (c : ClassRecord) : ClassRecord := { c with members := c.members.map (·.returning c.name) }

theorem basesDated (releases : List Release) (c : ClassRecord) : (c.dated releases).bases = c.bases := by
  cases releases <;> rfl

theorem returningTwice (c : ClassRecord) : c.returning.returning = c.returning := by
  refine congrArg (fun members => { c with members }) ?_
  rw [returning, List.map_map]
  exact List.map_congr_left fun m _ => m.returningTwice c.name

theorem datedReturning (releases : List Release) (c : ClassRecord) :
    (c.dated releases).returning.dated releases = (c.dated releases).returning := by
  have members : ((c.members.map (·.dated releases c.name)).map (·.returning c.name)).map (·.dated releases c.name) =
      (c.members.map (·.dated releases c.name)).map (·.returning c.name) := by
    rw [List.map_map]
    refine List.map_congr_left fun m hm => ?_
    obtain ⟨d, -, rfl⟩ := List.mem_map.mp hm
    simp only [Function.comp, Declaration.datedReturning, Declaration.datedTwice]
  exact congrArg₂ (fun info members => { c with info, members }) (c.info.datedTwice releases _) members

end ClassRecord

end ClassDocs
