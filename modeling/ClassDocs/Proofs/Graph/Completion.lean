import ClassDocs.Proofs.Graph.Additions
import ClassDocs.Proofs.Graph.Cycles

/-! A completed graph completed again. Releases and return statements have nothing to add to it, so all turns on
what members inherit: words of a release or a type of return values that a member got last come too late for the
members below it, and only the next completion hands them down. -/
namespace ClassDocs
namespace ClassGraph

/- The steps after the check for cycles. -/
def completed (g : ClassGraph) (releases : List Release) : ClassGraph :=
  (g.inheritDocs.value.withHistory releases).withReturns

section Completed
variable {settings : Settings} {releases : List Release} {g g' : ClassGraph}

/- A run ends with the check for cycles, or else with what is inherited and the search for problems. -/
theorem completeCases (settings : Settings) (releases : List Release) (g : ClassGraph) :
    (∀ failure, (g.checkCycles settings.checkMixinCycles).value = .error failure →
      g.complete settings releases GraphStep.all = ⟨.error failure, (g.checkCycles settings.checkMixinCycles).findings⟩) ∧
    ((g.checkCycles settings.checkMixinCycles).value = .ok () → g.complete settings releases GraphStep.all =
      ⟨.ok (g.completed releases), g.inheritDocs.findings ++ (g.completed releases).lint⟩) := by
  rw [GraphStep.all, complete, GraphStep.apply]
  constructor
  · intro failure failed
    generalize g.checkCycles settings.checkMixinCycles = checked at failed
    obtain ⟨value, findings⟩ := checked
    cases failed
    change Reported.mk _ (findings ++ [] ++ []) = _
    rw [List.append_nil, List.append_nil]
    rfl
  · intro passed
    rw [checkPassed passed]
    change Reported.mk _ (g.inheritDocs.findings ++ [] ++ ([] ++ ([] ++ ((g.completed releases).lint ++ [])))) = _
    rw [List.append_nil, List.append_nil, List.nil_append, List.nil_append]
    rfl

theorem completePassed (passed : (g.checkCycles settings.checkMixinCycles).value = .ok ()) :
    (g.complete settings releases GraphStep.all).value = .ok (g.completed releases) := by
  rw [(completeCases settings releases g).2 passed]

theorem completeDone (done : (g.complete settings releases GraphStep.all).value = .ok g') :
    (g.checkCycles settings.checkMixinCycles).value = .ok () ∧ g' = g.completed releases := by
  cases passed : (g.checkCycles settings.checkMixinCycles).value with
  | ok =>
    rw [completePassed passed] at done
    cases done
    exact ⟨rfl, rfl⟩
  | error failure =>
    rw [GraphStep.all, complete, Reported.valueBind, GraphStep.apply, Reported.valueBind, passed] at done
    contradiction

/- A cycle shows in the outlines. -/
theorem inheritsSame (same : g.SameOutline g') {followMixins : Bool} {a b : String} (h : g'.Inherits followMixins a b) :
    g.Inherits followMixins a b := by
  obtain ⟨c', known', base, documented⟩ := h
  obtain ⟨c, known, outline⟩ := sameClass same known'
  have classInfo : c'.info.classInfo = c.info.classInfo := congrArg ClassOutline.classInfo outline
  have searched : searched followMixins c' = searched followMixins c := by
    simp only [ClassGraph.searched, ClassRecord.parent?, ClassRecord.mixins, classInfo]
  exact ⟨c, known, searched ▸ base, sameNames same ▸ documented⟩

theorem passedAgain (same : g.SameOutline g') {followMixins : Bool} (passed : (g.checkCycles followMixins).value = .ok ()) :
    (g'.checkCycles followMixins).value = .ok () := by
  rw [(g'.checkCyclesVerdict followMixins).1]
  rintro ⟨name, cycle⟩
  obtain ⟨className, chain, location, -, verdict⟩ := (g.checkCyclesVerdict followMixins).2
    ⟨name, Relation.TransGen.mono (fun _ _ => inheritsSame same) name name cycle⟩
  rw [verdict] at passed
  contradiction

theorem mapClassesSame {f : ClassRecord → ClassRecord} : g.mapClasses f = g ↔ ∀ c ∈ g.records, f c = c := by
  constructor
  · intro same c hc
    obtain ⟨key, known⟩ := OrderedMap.memValues.mp hc
    have after := congrArg (·.get? key) same
    simp only [get?, mapClasses, OrderedMap.getMap] at after known
    rw [known] at after
    exact Option.some.inj after
  · intro same
    have classes : g.classes.map f = g.classes.map id :=
      OrderedMap.mapCongr fun key c known => same c (OrderedMap.memValues.mpr ⟨key, known⟩)
    rw [mapClasses, classes]
    simp [OrderedMap.map, OrderedMap.mapWithKey]

theorem historyMap (g : ClassGraph) (releases : List Release) :
    g.withHistory releases = g.mapClasses (ClassRecord.dated releases) := by
  cases releases with
  | nil => exact (mapClassesSame.mpr fun c _ => congrArg (fun members => { c with members }) (List.map_id c.members)).symm
  | cons => rfl

/- A class with what it inherits. -/
def inheritClass (g : ClassGraph) (c : ClassRecord) : ClassRecord := { c with members := c.members.map (g.inheritMember c) }

theorem completedMap (g : ClassGraph) (releases : List Release) :
    g.completed releases = g.mapClasses fun c => ((g.inheritClass c).dated releases).returning := by
  rw [completed, historyMap]
  refine congrArg (fun classes => { g with classes }) ?_
  change ((g.classes.map g.inheritClass).map (ClassRecord.dated releases)).map ClassRecord.returning = _
  rw [OrderedMap.mapMap, OrderedMap.mapMap]
  rfl

theorem completedRecord {c : ClassRecord} (hc : c ∈ (g.completed releases).records) :
    ∃ c₀ ∈ g.records, c = ((g.inheritClass c₀).dated releases).returning := by
  rw [completedMap, records, mapClasses, OrderedMap.valuesMap] at hc
  obtain ⟨c₀, h, rfl⟩ := List.mem_map.mp hc
  exact ⟨c₀, h, rfl⟩

/- Releases and statements have told what they can. -/
theorem completedSettled (g : ClassGraph) (releases : List Release) :
    (g.completed releases).withHistory releases = g.completed releases ∧
      (g.completed releases).withReturns = g.completed releases := by
  rw [historyMap]
  refine ⟨mapClassesSame.mpr fun c hc => ?_, mapClassesSame.mpr fun c hc => ?_⟩
  · obtain ⟨c₀, -, rfl⟩ := completedRecord hc
    exact ClassRecord.datedReturning releases _
  · obtain ⟨c₀, -, rfl⟩ := completedRecord hc
    exact ClassRecord.returningTwice _

theorem completedAgain
    (same : ∀ c ∈ (g.completed releases).records, ∀ m ∈ c.members, (g.completed releases).inheritMember c m = m) :
    (g.completed releases).completed releases = g.completed releases := by
  obtain ⟨history, returns⟩ := g.completedSettled releases
  have inherited : (g.completed releases).inheritDocs.value = g.completed releases := mapClassesSame.mpr fun c hc =>
    congrArg (fun members => { c with members }) ((List.map_congr_left (same c hc)).trans (List.map_id c.members))
  conv => lhs; rw [completed, inherited, history, returns]

theorem completedTwice : (g.completed releases).completed releases = g.completed releases ↔
    ∀ c ∈ (g.completed releases).records, ∀ m ∈ c.members, ∀ found, (g.completed releases).source? c m = some (some found) →
      m.TakesNothing found := by
  constructor
  · intro same c hc m hm found source
    generalize g.completed releases = k at *
    rw [completedMap, mapClassesSame] at same
    have members : ((c.members.map (k.inheritMember c)).map (·.dated releases c.name)).map (·.returning c.name) =
        c.members.map id := (congrArg ClassRecord.members (same c hc)).trans (List.map_id c.members).symm
    rw [List.map_map, List.map_map] at members
    have whole : ((k.inheritMember c m).dated releases c.name).returning c.name = m := List.map_inj_left.mp members m hm
    rw [inheritMember, source] at whole
    exact Declaration.takesNothing whole
  · intro nothing
    refine completedAgain fun c hc m hm => ?_
    rcases (g.completed releases).inheritMemberCases c m with kept | ⟨found, source, taken⟩
    · exact kept
    · rw [taken, Declaration.inheritNothing (nothing c hc m hm found source)]

def completeMember (g : ClassGraph) (releases : List Release) (className : String) (m : Declaration) : Declaration :=
  ((g.inheritMember { name := className } m).dated releases className).returning className

theorem completedRevises (g : ClassGraph) (releases : List Release) :
    g.Revises (g.completeMember releases) (g.completed releases) := by
  have fields (className : String) (m : Declaration) :=
    Declaration.completed releases className (g.inheritMember { name := className } m)
  refine ⟨?_, fun key c known => ?_, fun className m => ?_, fun className m => ?_⟩
  · rw [completedMap, namesMapClasses]
  · refine ⟨((g.inheritClass c).dated releases).returning, ?_, rfl, ClassRecord.basesDated releases (g.inheritClass c), ?_⟩
    · rw [completedMap, get?, mapClasses, OrderedMap.getMap]
      exact congrArg _ known
    · change ((c.members.map (g.inheritMember c)).map (·.dated releases c.name)).map (·.returning c.name) = _
      rw [List.map_map, List.map_map]
      rfl
  · exact (fields className m).outline.trans (outlineInheritMember g { name := className } m)
  · exact (fields className m).wish.trans (wishInherited g { name := className } m)

/-- Settled, also against what releases and statements bring: no member that is wished for gets a type of its return
values from its statements, and what no release has a word about overrides nothing that a release documents. -/
structure SettledBy (g : ClassGraph) (releases : List Release) : Prop extends Settled g where
  returns : ∀ c ∈ g.records, ∀ m ∈ c.members, m.info.inheritDoc.isSome = true → ∀ found, g.nearest? c m = some found →
    (found.member.returning found.className).info.returns = found.member.info.returns
  recorded : ∀ c ∈ g.records, ∀ m ∈ c.members, m.isRecorded releases c.name = false →
    g.findDocumented c.name m.kind m.name = none → ∀ passed, g.overridden? c.name m.kind m.name = some passed →
      passed.member.isRecorded releases passed.className = false

theorem sourceAbove {c : ClassRecord} {m : Declaration} {steps : Nat} {found : Found} (noWish : m.info.inheritDoc = none)
    (undocumented : m.hasDoc = false) (written : m.info.autogenerated = false)
    (above : g.DocumentedAbove m.kind m.name steps c.name found) : g.source? c m = some (some found) := by
  have first : g.findDocumented c.name m.kind m.name = some found :=
    documentedFromComplete above g.names fun _ _ _ => memNamesOfAbove
  simp only [source?, noWish, undocumented, written, first, Bool.or_self, Bool.false_eq_true, if_false]

theorem nothingFound {c : ClassRecord} {m : Declaration} (noWish : m.info.inheritDoc = none)
    (written : m.info.autogenerated = false) (unfilled : (g.inheritMember { name := c.name } m).hasDoc = false) :
    g.findDocumented c.name m.kind m.name = none := by
  have undocumented : m.hasDoc = false := by
    rcases g.inheritMemberCases { name := c.name } m with kept | ⟨found, -, taken⟩
    · rwa [kept] at unfilled
    · rw [taken, Declaration.documentedInherit] at unfilled
      exact (Bool.or_eq_false_iff.mp unfilled).1
  cases above : g.findDocumented c.name m.kind m.name with
  | none => rfl
  | some found =>
    obtain ⟨steps, sound⟩ := documentedFromSound above
    have filled : g.inheritMember { name := c.name } m = m.inherit found := by
      rw [inheritMember, sourceAbove (c := { name := c.name }) noWish undocumented written sound]
    rw [filled, Declaration.documentedInherit, documentedAtEnd sound, Bool.or_true] at unfilled
    contradiction

section Settled
variable (settled : g.SettledBy releases) {c : ClassRecord} (hc : c ∈ g.records) {m : Declaration} (hm : m ∈ c.members)
include settled hc hm

theorem completedWish (wishes : m.info.inheritDoc.isSome = true) :
    (g.completed releases).inheritMember c (g.completeMember releases c.name m) = g.completeMember releases c.name m := by
  have revises := completedRevises g releases
  have still : (g.completeMember releases c.name m).info.inheritDoc.isSome = true := by rwa [revises.wish]
  have again := nearestRevised revises (c := c) rfl m
  cases nearest : g.nearest? c m with
  | none =>
    rw [nearest] at again
    rw [inheritMember, sourceNowhere still again]
  | some found =>
    obtain ⟨documented, noWish, distinct⟩ := settled.wishes c hc m hm wishes found nearest
    rw [nearest, Option.map_some] at again
    have untouched : g.inheritMember { name := found.className } found.member = found.member := by
      have none : g.source? { name := found.className } found.member = none := by
        simp only [source?, noWish, documented, Bool.true_or, if_true]
      rw [inheritMember, none]
    have own : g.completeMember releases found.className found.member =
        (found.member.dated releases found.className).returning found.className := by rw [completeMember, untouched]
    have given : (found.revised (g.completeMember releases)).member.hasDoc = true := by
      rw [Found.revised, own, (Declaration.completed releases found.className found.member).documented, documented, Bool.true_or]
    have filled : g.inheritMember { name := c.name } m = m.inherit found := by
      have first : g.source? { name := c.name } m = some (some found) := sourceAtOnce wishes nearest documented
      rw [inheritMember, first]
    rw [inheritMember, sourceAtOnce still again given]
    refine Declaration.inheritNothing ?_
    rw [Found.revised, own, completeMember, filled]
    exact Declaration.takesNothingAgain releases c.name m documented distinct (settled.returns c hc m hm wishes found nearest)

theorem completedUndocumented (unrecorded : m.isRecorded releases c.name = false)
    (nothing : g.findDocumented c.name m.kind m.name = none) :
    (g.completed releases).findDocumented c.name m.kind m.name = none := by
  refine Option.eq_none_iff_forall_ne_some.mpr fun found again => ?_
  obtain ⟨steps, again⟩ := documentedFromSound again
  refine nothingRevised (P := fun className m => m.isRecorded releases className = false) (completedRevises g releases)
    (fun c hc m hm unrecorded nothing passed overridden => ?_) again ⟨c, hc, rfl, m, hm, rfl, rfl, unrecorded⟩ nothing
  have later := settled.recorded c hc m hm unrecorded nothing passed overridden
  refine ⟨?_, later⟩
  have undocumented : (g.inheritMember { name := passed.className } passed.member).hasDoc = false :=
    passedInVain settled.toSettled hc hm nothing overridden
  rw [completeMember, (Declaration.completed releases passed.className _).documented, undocumented,
    Declaration.isRecordedOutline (outlineInheritMember ..), later, Bool.or_false]

theorem completedMember :
    (g.completed releases).inheritMember c (g.completeMember releases c.name m) = g.completeMember releases c.name m := by
  cases wish : m.info.inheritDoc with
  | some w => exact completedWish settled hc hm (by rw [wish]; rfl)
  | none =>
    have revises := completedRevises g releases
    have noWish : (g.completeMember releases c.name m).info.inheritDoc = none := (revises.wish c.name m).trans wish
    have outline := revises.outline c.name m
    have documented : (g.completeMember releases c.name m).hasDoc =
        ((g.inheritMember { name := c.name } m).hasDoc || m.isRecorded releases c.name) := by
      rw [completeMember, (Declaration.completed releases c.name _).documented,
        Declaration.isRecordedOutline (outlineInheritMember ..)]
    have autogenerated : (g.completeMember releases c.name m).info.autogenerated = m.info.autogenerated :=
      congrArg Outline.autogenerated outline
    by_cases served : ((g.completeMember releases c.name m).hasDoc || m.info.autogenerated) = true
    · simp only [inheritMember, source?, noWish, autogenerated, served, if_true]
    · obtain ⟨missing, written⟩ := Bool.or_eq_false_iff.mp (Bool.eq_false_iff.mpr served)
      obtain ⟨unfilled, unrecorded⟩ := Bool.or_eq_false_iff.mp (documented.symm.trans missing)
      have nothing := nothingFound wish written unfilled
      have again := completedUndocumented settled hc hm unrecorded nothing
      have sameKind : (g.completeMember releases c.name m).kind = m.kind := congrArg Outline.kind outline
      have sameName : (g.completeMember releases c.name m).name = m.name := congrArg Outline.name outline
      simp only [inheritMember, source?, noWish, autogenerated, missing, written, sameKind, sameName, again, Bool.or_self,
        Bool.false_eq_true, if_false]

end Settled

/-- A completed graph is complete exactly if no member finds anything to take, and that is so when the graph was settled
to begin with. -/
theorem completeAgain (done : (g.complete settings releases GraphStep.all).value = .ok g') :
    ((g'.complete settings releases GraphStep.all).value = .ok g' ↔ ∀ c ∈ g'.records, ∀ m ∈ c.members, ∀ found,
      g'.source? c m = some (some found) → m.TakesNothing found) ∧
    (g.SettledBy releases → (g'.complete settings releases GraphStep.all).value = .ok g') := by
  have outline := sameOutlineComplete done
  obtain ⟨passed, rfl⟩ := completeDone done
  rw [completePassed (passedAgain outline passed), Except.ok.injEq]
  refine ⟨completedTwice, fun settled => completedAgain fun c hc m hm => ?_⟩
  obtain ⟨c₀, hc₀, rfl⟩ := completedRecord hc
  simp only [ClassRecord.returning, ClassRecord.dated, inheritClass, List.map_map, List.mem_map] at hm
  obtain ⟨m₀, hm₀, rfl⟩ := hm
  exact completedMember settled hc₀ hm₀

end Completed

def baseHide : Declaration :=
  { kind := .method, name := "hide", owner := some "Base", files := [⟨"base.js", 3⟩],
    info := { doc := some "Hides it.", returns := some ⟨some "Boolean", none⟩ } }

def dialogClose : Declaration :=
  { kind := .method, name := "close", owner := some "Dialog", files := [⟨"dialog.js", 6⟩],
    info := { inheritDoc := some ⟨some "Base#hide"⟩ } }

def dialogClasses : List ClassRecord := [
  { name := "Base", members := [baseHide] },
  { name := "Dialog", info := { classInfo := { parent := some "Base" } }, members := [
    { kind := .method, name := "hide", owner := some "Dialog", files := [⟨"dialog.js", 3⟩] },
    dialogClose,
    { kind := .method, name := "open", owner := some "Dialog", files := [⟨"dialog.js", 9⟩],
      info := { returnExpressions := [.this] } }] }]

def dialogGraph : ClassGraph := .ofClasses dialogClasses []

def dialogRelease : Release := .ofExport "1.0" ⟨[⟨"Dialog", none, [⟨"open", .method, some "Opens it."⟩]⟩]⟩

theorem dialogMembers {c : ClassRecord} (hc : c ∈ dialogGraph.records) {m : Declaration} (hm : m ∈ c.members) {found : Found} :
    (m.info.inheritDoc.isSome = true → dialogGraph.nearest? c m = some found → found = ⟨"Base", baseHide⟩) ∧
      (dialogGraph.overridden? c.name m.kind m.name = some found → found = ⟨"Base", baseHide⟩) := by
  have records : dialogGraph.records = dialogClasses := by rfl
  rw [records] at hc
  simp only [dialogClasses, List.mem_cons, List.not_mem_nil, or_false] at hc
  rcases hc with rfl | rfl <;> simp only [List.mem_cons, List.not_mem_nil, or_false] at hm
  · cases hm
    refine ⟨fun wishes => by contradiction, fun overridden => ?_⟩
    cbv at overridden
    contradiction
  · rcases hm with rfl | rfl | rfl
    · refine ⟨fun wishes => by contradiction, fun overridden => ?_⟩
      cbv at overridden
      exact (Option.some.inj overridden).symm
    · refine ⟨fun _ nearest => ?_, fun overridden => ?_⟩
      · cbv at nearest
        exact (Option.some.inj nearest).symm
      · cbv at overridden
        contradiction
    · refine ⟨fun wishes => by contradiction, fun overridden => ?_⟩
      cbv at overridden
      contradiction

theorem dialogComplete : ∃ g, (dialogGraph.complete {} [dialogRelease] GraphStep.all).value = .ok g ∧
    dialogGraph.SettledBy [dialogRelease] ∧ (g.complete {} [dialogRelease] GraphStep.all).value = .ok g := by
  have done : (dialogGraph.complete {} [dialogRelease] GraphStep.all).value = .ok (dialogGraph.completed [dialogRelease]) :=
    completePassed (by cbv)
  have settled : dialogGraph.SettledBy [dialogRelease] := by
    refine { wishes := ?_, inVain := ?_, returns := ?_, recorded := ?_ }
    · intro c hc m hm wishes found nearest
      cases (dialogMembers hc hm).1 wishes nearest
      exact ⟨by decide, rfl, by decide⟩
    · intro c hc m hm _ passed overridden
      cases (dialogMembers hc hm).2 overridden
      rfl
    · intro c hc m hm wishes found nearest
      cases (dialogMembers hc hm).1 wishes nearest
      rfl
    · intro c hc m hm _ _ passed overridden
      cases (dialogMembers hc hm).2 overridden
      decide
  exact ⟨_, done, settled, (completeAgain done).2 settled⟩

def firstRelease : Release := .ofExport "1.0" ⟨[⟨"Base", none, [⟨"run", .method, some "Runs."⟩]⟩]⟩

def baseRun : Declaration := { kind := .method, name := "run", owner := some "Base", files := [⟨"base.js", 3⟩] }

def lateLeaf : ClassRecord := { name := "Leaf", info := { classInfo := { parent := some "Base" } }, members := [leafRun] }

def lateGraph : ClassGraph := .ofClasses [{ name := "Base", members := [baseRun] }, lateLeaf] []

/- The release speaks of `Base`, and only when `Leaf` has looked there. -/
theorem lateNotComplete : ∃ g, (lateGraph.complete {} [firstRelease] GraphStep.all).value = .ok g ∧
    (g.complete {} [firstRelease] GraphStep.all).value ≠ .ok g := by
  refine ⟨_, completePassed (by cbv), fun again => ?_⟩
  have nothing := completedTwice.mp (completeDone again).2.symm
  have revises := completedRevises lateGraph [firstRelease]
  have given : (lateGraph.completeMember [firstRelease] "Base" baseRun).hasDoc = true := by
    have recorded : baseRun.isRecorded [firstRelease] "Base" = true := by decide
    rw [completeMember, (Declaration.completed _ _ _).documented, Declaration.isRecordedOutline (outlineInheritMember ..),
      recorded, Bool.or_true]
  have missing : (lateGraph.completeMember [firstRelease] "Leaf" leafRun).hasDoc = false := by
    have before : lateGraph.inheritMember { name := "Leaf" } leafRun = leafRun := by cbv
    rw [completeMember, (Declaration.completed _ _ _).documented, before]
    decide
  have passed : lateGraph.overridden? "Leaf" .method "run" = some ⟨"Base", baseRun⟩ := by cbv
  have overridden : (lateGraph.completed [firstRelease]).overridden? "Leaf" .method "run" =
      some ⟨"Base", lateGraph.completeMember [firstRelease] "Base" baseRun⟩ := by
    rw [overriddenRevised revises, passed]
    rfl
  obtain ⟨c, known, className, -, members⟩ := revises.classes "Leaf" lateLeaf rfl
  have outline := revises.outline "Leaf" leafRun
  have noWish := revises.wish "Leaf" leafRun
  have here : lateGraph.completeMember [firstRelease] "Leaf" leafRun ∈ c.members := by
    rw [members]
    exact List.mem_cons_self
  generalize lateGraph.completeMember [firstRelease] "Leaf" leafRun = leaf at missing outline noWish here
  have above : (lateGraph.completed [firstRelease]).DocumentedAbove leaf.kind leaf.name 0 c.name
      ⟨"Base", lateGraph.completeMember [firstRelease] "Base" baseRun⟩ := by
    have kind : leaf.kind = .method := congrArg Outline.kind outline
    have name : leaf.name = "run" := congrArg Outline.name outline
    rw [kind, name, className]
    exact .here overridden given
  -- a second completion would take the text of `Base` for `Leaf`, so the first has left something to do
  have source := sourceAbove noWish missing (congrArg Outline.autogenerated outline) above
  have taken := (nothing c (OrderedMap.memValues.mpr ⟨"Leaf", known⟩) leaf here _ source).doc
  change (!leaf.hasDoc && (lateGraph.completeMember [firstRelease] "Base" baseRun).hasDoc) = false at taken
  rw [missing, given] at taken
  contradiction

end ClassGraph
end ClassDocs
