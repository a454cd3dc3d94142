import Mathlib.Data.List.Permutation
import ClassDocs.Proofs.Graph.Revision

/-! Documentation inherited twice. The second pass looks where the first one looked, but among members
that have got documentation since; where no search can meet such a member, it changes nothing. -/
namespace ClassDocs

theorem Param.inheritTwice (sources : List Param) (p : Param) :
    Param.inherit sources (Param.inherit sources p) = Param.inherit sources p := by
  cases found : sources.find? (·.name == p.name) with
  | none => simp only [Param.inherit, found]
  | some source => simp only [Param.inherit, found, Option.or_assoc, Option.or_self]

theorem Param.inheritItself {sources : List Param} (distinct : (sources.map Param.name).Nodup) {p : Param}
    (h : p ∈ sources) : Param.inherit sources p = p := by
  have found : sources.find? (·.name == p.name) = some p := by
    induction sources with
    | nil => contradiction
    | cons first rest ih =>
      obtain ⟨fresh, distinct⟩ := List.nodup_cons.mp distinct
      rcases List.mem_cons.mp h with rfl | later
      · exact List.find?_cons_of_pos (beq_self_eq_true p.name)
      · have other : ¬(first.name == p.name) = true := fun same =>
          fresh (List.mem_map.mpr ⟨p, later, (eq_of_beq same).symm⟩)
        rw [List.find?_cons, Bool.eq_false_iff.mpr other]
        exact ih distinct later
  simp only [Param.inherit, found, Option.or_self]

/- A parameter without a text takes that of the first of its name, which need not be itself. -/
theorem Param.inheritAllTwice {sources : List Param} (distinct : (sources.map Param.name).Nodup) (own : List Param) :
    let once := if own.isEmpty then sources else own.map (Param.inherit sources)
    (if once.isEmpty then sources else once.map (Param.inherit sources)) = once := by
  cases own with
  | nil =>
    simp only [List.isEmpty_nil, if_true]
    split
    · rfl
    · exact (List.map_congr_left fun p h => Param.inheritItself distinct h).trans (List.map_id' _)
  | cons p rest => simp [inheritTwice]

theorem ReturnDoc.inheritTwice (own source : Option ReturnDoc) :
    ReturnDoc.inherit (ReturnDoc.inherit own source) source = ReturnDoc.inherit own source := by
  cases own <;> cases source <;> simp [ReturnDoc.inherit, Option.or_assoc]

namespace Declaration

theorem documentedInherit (m : Declaration) (found : Found) :
    (m.inherit found).hasDoc = (m.hasDoc || found.member.hasDoc) := by
  cases own : m.info.hasDoc <;> cases source : found.member.info.hasDoc <;>
    simp only [hasDoc, inherit, own, source, Bool.not_true, Bool.not_false, Bool.and_self, Bool.and_false, Bool.false_and,
      Bool.false_eq_true, if_true, if_false, Bool.or_self, Bool.or_true, Bool.or_false]
  · exact own
  · exact source
  · exact own
  · exact own

structure TakesNothing (m : Declaration) (found : Found) : Prop where
  doc : (!m.info.hasDoc && found.member.info.hasDoc) = false
  typeName : m.info.typeName.or found.member.info.typeName = m.info.typeName
  params : (if m.info.params.isEmpty then found.member.info.params
    else m.info.params.map (Param.inherit found.member.info.params)) = m.info.params
  returns : ReturnDoc.inherit m.info.returns found.member.info.returns = m.info.returns

theorem inheritNothing {m : Declaration} {found : Found} (h : m.TakesNothing found) : m.inherit found = m := by
  simp only [inherit, h.doc, h.typeName, h.params, h.returns, Bool.false_eq_true, if_false]

theorem inheritTwice {m : Declaration} {found : Found} (distinct : (found.member.info.params.map Param.name).Nodup) :
    (m.inherit found).inherit found = m.inherit found := by
  refine inheritNothing ⟨?_, ?_, Param.inheritAllTwice distinct m.info.params, ReturnDoc.inheritTwice _ _⟩
  · have given := documentedInherit m found
    simp only [hasDoc] at given
    rw [given]
    cases m.info.hasDoc <;> cases found.member.info.hasDoc <;> rfl
  · simp only [inherit, Option.or_assoc, Option.or_self]

end Declaration

namespace ClassGraph
variable {g : ClassGraph} {kind : Kind} {name : String}

/-- The first member that a search for documentation meets. -/
def nearest? (g : ClassGraph) (c : ClassRecord) (m : Declaration) : Option Found :=
  match m.info.inheritDoc.bind InheritDoc.target with
  | some target =>
    let r := MemberRef.parse c.name m target
    (g.findInHierarchy (·.isFor r.kind r.name) g.names [r.className]).or
      (g.findInHierarchy (·.name == r.name) g.names [r.className])
  | none => g.overridden? c.name m.kind m.name

/- What a search finds after the pass, where it found `found` before. -/
def inheritFound (g : ClassGraph) (found : Found) : Found :=
  ⟨found.className, g.inheritMember { name := found.className } found.member⟩

theorem getInherited (g : ClassGraph) (key : String) : g.inheritDocs.value.get? key =
    (g.get? key).map fun c => { c with members := c.members.map (g.inheritMember c) } := OrderedMap.getMap ..

theorem inheritMemberCases (g : ClassGraph) (c : ClassRecord) (m : Declaration) :
    g.inheritMember c m = m ∨ ∃ found, g.source? c m = some (some found) ∧ g.inheritMember c m = m.inherit found := by
  unfold inheritMember
  split
  · rename_i found source
    exact Or.inr ⟨found, source, rfl⟩
  · exact Or.inl rfl

theorem wishInherited (g : ClassGraph) (c : ClassRecord) (m : Declaration) :
    (g.inheritMember c m).info.inheritDoc = m.info.inheritDoc := by
  unfold inheritMember
  split <;> rfl

theorem nearestRevised {revise : String → Declaration → Declaration} {g' : ClassGraph} (revises : g.Revises revise g')
    {c c' : ClassRecord} (named : c'.name = c.name) (m : Declaration) :
    g'.nearest? c' (revise c.name m) = (g.nearest? c m).map (Found.revised revise) := by
  have sameKind : (revise c.name m).kind = m.kind := congrArg Outline.kind (revises.outline c.name m)
  have sameName : (revise c.name m).name = m.name := congrArg Outline.name (revises.outline c.name m)
  rw [nearest?, nearest?, revises.wish, named]
  cases m.info.inheritDoc.bind InheritDoc.target with
  | none =>
    simp only [sameKind, sameName]
    exact overriddenRevised revises c.name
  | some target =>
    have sameRef : MemberRef.parse c.name (revise c.name m) target = MemberRef.parse c.name m target := by
      simp only [MemberRef.parse, sameKind, sameName]
    simp only [sameRef, revises.names]
    generalize MemberRef.parse c.name m target = r
    have byKind := @findRevised revise g g' revises (·.isFor r.kind r.name)
      (fun className m => Declaration.isForOutline (revises.outline className m)) g.names [r.className]
    have byName := @findRevised revise g g' revises (·.name == r.name)
      (fun className m => congrArg (Outline.name · == r.name) (revises.outline className m)) g.names [r.className]
    rw [byKind, byName, Option.map_or]

theorem inheritRevises (g : ClassGraph) :
    g.Revises (fun className m => g.inheritMember { name := className } m) g.inheritDocs.value where
  names := namesMapClasses ..
  classes key c known :=
    ⟨{ c with members := c.members.map (g.inheritMember c) }, by rw [getInherited, known, Option.map_some], rfl, rfl, rfl⟩
  outline className m := outlineInheritMember g { name := className } m
  wish className m := wishInherited g { name := className } m

theorem overriddenInherited (className : String) : g.inheritDocs.value.overridden? className kind name =
    (g.overridden? className kind name).map g.inheritFound := overriddenRevised g.inheritRevises className

theorem nearestInherited (c : ClassRecord) (m : Declaration) :
    g.inheritDocs.value.nearest? c (g.inheritMember c m) = (g.nearest? c m).map g.inheritFound :=
  nearestRevised g.inheritRevises rfl m

theorem sourceAtOnce {c : ClassRecord} {m : Declaration} {found : Found} (wishes : m.info.inheritDoc.isSome = true)
    (nearest : g.nearest? c m = some found) (documented : found.member.hasDoc = true) :
    g.source? c m = some (some found) := by
  obtain ⟨⟨target⟩, wish⟩ := Option.isSome_iff_exists.mp wishes
  cases target with
  | some target =>
    simp only [nearest?, wish, Option.bind_some] at nearest
    simp only [source?, wish, resolve, nearest, bind, Option.bind_some, documented, if_true]
  | none =>
    simp only [nearest?, wish, Option.bind_some] at nearest
    have above := documentedFromComplete (.here nearest documented) g.names fun _ _ _ => memNamesOfAbove
    simp only [source?, wish, findDocumented, above]

theorem sourceNowhere {c : ClassRecord} {m : Declaration} (wishes : m.info.inheritDoc.isSome = true)
    (nearest : g.nearest? c m = none) : g.source? c m = some none := by
  obtain ⟨⟨target⟩, wish⟩ := Option.isSome_iff_exists.mp wishes
  cases target with
  | some target =>
    simp only [nearest?, wish, Option.bind_some] at nearest
    simp only [source?, wish, resolve, nearest, bind, Option.bind_none]
  | none =>
    simp only [nearest?, wish, Option.bind_some] at nearest
    rw [source?, wish, findDocumented, findDocumentedStep, nearest]
    simp only [ite_self]

theorem sourceUntargeted {c : ClassRecord} {m : Declaration} (untargeted : m.info.inheritDoc.bind InheritDoc.target = none) :
    g.source? c m = none ∨ g.source? c m = some (g.findDocumented c.name m.kind m.name) := by
  unfold source?
  split
  · rename_i target wish
    simp [wish] at untargeted
  · exact Or.inr rfl
  · split
    · exact Or.inl rfl
    · exact Or.inr rfl

/-- What is wished for is documented, without a wish of its own, and where there is no documentation
above a member, no member on the way up asks for documentation from elsewhere. -/
structure Settled (g : ClassGraph) : Prop where
  wishes : ∀ c ∈ g.records, ∀ m ∈ c.members, m.info.inheritDoc.isSome = true → ∀ found, g.nearest? c m = some found →
    found.member.hasDoc = true ∧ found.member.info.inheritDoc = none ∧ (found.member.info.params.map Param.name).Nodup
  inVain : ∀ c ∈ g.records, ∀ m ∈ c.members, g.findDocumented c.name m.kind m.name = none → ∀ passed,
    g.overridden? c.name m.kind m.name = some passed → passed.member.info.inheritDoc.bind InheritDoc.target = none

section Settled
variable (settled : g.Settled)
include settled

theorem passedInVain {c : ClassRecord} (hc : c ∈ g.records) {m : Declaration} (hm : m ∈ c.members) {passed : Found}
    (nothing : g.findDocumented c.name m.kind m.name = none) (overridden : g.overridden? c.name m.kind m.name = some passed) :
    (g.inheritFound passed).member.hasDoc = false := by
  obtain ⟨undocumented, further⟩ := nothingFurther nothing overridden
  have same : passed.member.kind = m.kind ∧ passed.member.name = m.name := by
    obtain ⟨-, -, -, -, fits⟩ := overriddenFound overridden
    simpa [Declaration.isFor] using fits
  rw [inheritFound]
  rcases g.inheritMemberCases { name := passed.className } passed.member with kept | ⟨source, given, -⟩
  · rwa [kept]
  · rcases sourceUntargeted (g := g) (c := { name := passed.className })
      (settled.inVain c hc m hm nothing passed overridden) with none | sought
    · rw [none] at given
      contradiction
    · rw [sought, same.1, same.2, further] at given
      cases Option.some.inj given

theorem inheritWishTwice {c : ClassRecord} (hc : c ∈ g.records) {m : Declaration} (hm : m ∈ c.members)
    (wishes : m.info.inheritDoc.isSome = true) :
    g.inheritDocs.value.inheritMember c (g.inheritMember c m) = g.inheritMember c m := by
  have still : (g.inheritMember c m).info.inheritDoc.isSome = true := by rwa [wishInherited]
  cases nearest : g.nearest? c m with
  | none =>
    have nowhere : g.inheritDocs.value.source? c (g.inheritMember c m) = some none :=
      sourceNowhere still (by rw [nearestInherited, nearest]; rfl)
    conv => lhs; rw [inheritMember, nowhere]
  | some found =>
    obtain ⟨documented, noWish, distinct⟩ := settled.wishes c hc m hm wishes found nearest
    have untouched : g.inheritFound found = found := by
      have none : g.source? { name := found.className } found.member = none := by
        simp only [source?, noWish, documented, Bool.true_or, if_true]
      rw [inheritFound, inheritMember, none]
    have before : g.inheritMember c m = m.inherit found := by rw [inheritMember, sourceAtOnce wishes nearest documented]
    have after : g.inheritDocs.value.source? c (g.inheritMember c m) = some (some found) :=
      sourceAtOnce still (by rw [nearestInherited, nearest, Option.map_some, untouched]) documented
    conv => lhs; rw [inheritMember, after]
    simp only [before, Declaration.inheritTwice distinct]

theorem inheritMemberTwice {c : ClassRecord} (hc : c ∈ g.records) {m : Declaration} (hm : m ∈ c.members) :
    g.inheritDocs.value.inheritMember c (g.inheritMember c m) = g.inheritMember c m := by
  cases wish : m.info.inheritDoc with
  | some w => exact inheritWishTwice settled hc hm (by rw [wish]; rfl)
  | none =>
    by_cases served : (m.hasDoc || m.info.autogenerated) = true
    · simp only [inheritMember, source?, wish, served, if_true]
    · cases above : g.findDocumented c.name m.kind m.name with
      | none =>
        have nothing : g.inheritDocs.value.findDocumented c.name m.kind m.name = none :=
          Option.eq_none_iff_forall_ne_some.mpr fun found again => by
            obtain ⟨steps, again⟩ := documentedFromSound again
            refine nothingRevised (P := fun _ _ => True) g.inheritRevises ?_ again ⟨c, hc, rfl, m, hm, rfl, rfl, trivial⟩ above
            exact fun c hc m hm _ nothing passed before => ⟨passedInVain settled hc hm nothing before, trivial⟩
        simp only [inheritMember, source?, wish, served, above, nothing, Bool.false_eq_true, if_false]
      | some found =>
        obtain ⟨_, sound⟩ := documentedFromSound above
        have given : (m.inherit found).hasDoc = true := by
          rw [Declaration.documentedInherit, documentedAtEnd sound, Bool.or_true]
        have noWish : (m.inherit found).info.inheritDoc = none := wish
        have before : g.inheritMember c m = m.inherit found := by
          simp only [inheritMember, source?, wish, served, above, Bool.false_eq_true, if_false]
        rw [before, inheritMember, source?, noWish, given]
        rfl

end Settled

theorem inheritDocsTwice (settled : g.Settled) : g.inheritDocs.value.inheritDocs.value = g.inheritDocs.value := by
  have classes : (g.classes.map fun c => { c with members := c.members.map (g.inheritMember c) }).map
      (fun c => { c with members := c.members.map (g.inheritDocs.value.inheritMember c) }) =
      g.classes.map fun c => { c with members := c.members.map (g.inheritMember c) } := by
    rw [OrderedMap.mapMap]
    refine OrderedMap.mapCongr fun key c known => congrArg (fun members => { c with members }) ?_
    rw [List.map_map]
    exact List.map_congr_left fun m hm => inheritMemberTwice settled (OrderedMap.memValues.mpr ⟨key, known⟩) hm
  exact congrArg (fun classes => { g with classes }) classes

def baseShow : Declaration :=
  { kind := .method, name := "show", owner := some "Base", files := [⟨"base.js", 3⟩],
    info := { doc := some "Shows it.", params := [{ name := "animate", doc := some "Animate it." }] } }

def panelShow : Declaration := { kind := .method, name := "show", owner := some "Panel", files := [⟨"panel.js", 3⟩] }

def panelClasses : List ClassRecord := [
  { name := "Base", members := [baseShow] },
  { name := "Panel", info := { classInfo := { parent := some "Base" } }, members := [panelShow] },
  { name := "Window", info := { classInfo := { parent := some "Panel" } }, members := [
    { kind := .method, name := "show", owner := some "Window", files := [⟨"window.js", 3⟩],
      info := { params := [{ name := "animate", typeName := some "Boolean" }] } },
    { kind := .method, name := "open", owner := some "Window", files := [⟨"window.js", 9⟩],
      info := { inheritDoc := some ⟨some "Base#show"⟩ } }] }]

theorem panelSettled : (ofClasses panelClasses []).Settled ∧
    (ofClasses panelClasses []).inheritDocs.value.inheritDocs.value = (ofClasses panelClasses []).inheritDocs.value := by
  have records : (ofClasses panelClasses []).records = panelClasses := by rfl
  have given : baseShow.hasDoc = true := by decide
  have abovePanel : (ofClasses panelClasses []).DocumentedAbove .method "show" 0 "Panel" ⟨"Base", baseShow⟩ :=
    .here (by cbv) given
  have aboveWindow : (ofClasses panelClasses []).DocumentedAbove .method "show" 1 "Window" ⟨"Base", baseShow⟩ := by
    have passed : (ofClasses panelClasses []).overridden? "Window" .method "show" = some ⟨"Panel", panelShow⟩ := by cbv
    exact .further passed (by decide) abovePanel
  have settled : (ofClasses panelClasses []).Settled := by
    constructor
    · rw [records]
      intro c hc m hm wishes found nearest
      simp only [panelClasses, List.mem_cons, List.not_mem_nil, or_false] at hc
      rcases hc with rfl | rfl | rfl <;> simp only [List.mem_cons, List.not_mem_nil, or_false] at hm
      · cases hm
        contradiction
      · cases hm
        contradiction
      · rcases hm with rfl | rfl
        · contradiction
        · have base : found = ⟨"Base", baseShow⟩ := by
            cbv at nearest
            exact (Option.some.inj nearest).symm
          rw [base]
          exact ⟨given, rfl, by decide⟩
    · rw [records]
      intro c hc m hm nothing passed overridden
      simp only [panelClasses, List.mem_cons, List.not_mem_nil, or_false] at hc
      rcases hc with rfl | rfl | rfl <;> simp only [List.mem_cons, List.not_mem_nil, or_false] at hm
      · cases hm
        cbv at overridden
        contradiction
      · cases hm
        obtain ⟨found, above⟩ := findDocumentedIff.mpr ⟨_, _, abovePanel⟩
        cases nothing.symm.trans above
      · rcases hm with rfl | rfl
        · obtain ⟨found, above⟩ := findDocumentedIff.mpr ⟨_, _, aboveWindow⟩
          cases nothing.symm.trans above
        · cbv at overridden
          contradiction
  exact ⟨settled, inheritDocsTwice settled⟩

def otherRun : Declaration :=
  { kind := .method, name := "run", owner := some "Other", files := [⟨"other.js", 3⟩], info := { doc := some "Runs." } }

def middleRun : Declaration :=
  { kind := .method, name := "run", owner := some "Middle", files := [⟨"middle.js", 3⟩],
    info := { inheritDoc := some ⟨some "Other#run"⟩ } }

def leafRun : Declaration := { kind := .method, name := "run", owner := some "Leaf", files := [⟨"leaf.js", 3⟩] }

def leafClass : ClassRecord := { name := "Leaf", info := { classInfo := { parent := some "Middle" } }, members := [leafRun] }

def detourGraph : ClassGraph :=
  .ofClasses [{ name := "Other", members := [otherRun] }, { name := "Middle", members := [middleRun] }, leafClass] []

/- `Other` is no base of `Leaf`: only what the first pass copies into `Middle` is there to be found. -/
theorem detourNotTwice : (detourGraph.checkCycles true).value = .ok () ∧
    detourGraph.inheritDocs.value.inheritDocs.value ≠ detourGraph.inheritDocs.value := by
  refine ⟨by cbv, fun same => ?_⟩
  have known : detourGraph.get? "Leaf" = some leafClass := by rfl
  have before : detourGraph.inheritMember leafClass leafRun = leafRun := by cbv
  have nearest : detourGraph.nearest? { name := "Middle" } middleRun = some ⟨"Other", otherRun⟩ := by cbv
  have filled : (detourGraph.inheritFound ⟨"Middle", middleRun⟩).member.hasDoc = true := by
    rw [inheritFound, inheritMember, sourceAtOnce rfl nearest (by decide)]
    exact (Declaration.documentedInherit _ _).trans (by decide)
  have passed : detourGraph.overridden? "Leaf" .method "run" = some ⟨"Middle", middleRun⟩ := by cbv
  have overridden : detourGraph.inheritDocs.value.overridden? "Leaf" .method "run" =
      some (detourGraph.inheritFound ⟨"Middle", middleRun⟩) := by rw [overriddenInherited, passed, Option.map_some]
  have above := documentedFromComplete (.here overridden filled) detourGraph.inheritDocs.value.names fun _ _ _ => memNamesOfAbove
  have after : (detourGraph.inheritDocs.value.inheritMember leafClass leafRun).hasDoc = true := by
    have source : detourGraph.inheritDocs.value.source? leafClass leafRun =
        some (some (detourGraph.inheritFound ⟨"Middle", middleRun⟩)) := congrArg some above
    rw [inheritMember, source]
    exact (Declaration.documentedInherit _ _).trans (by rw [filled, Bool.or_true])
  have docs := congrArg (fun g => (g.get? "Leaf").map fun c => c.members.map Declaration.hasDoc) same
  simp only [getInherited, known, Option.map_some, leafClass, List.map_cons, List.map_nil] at docs
  change some [(detourGraph.inheritDocs.value.inheritMember leafClass (detourGraph.inheritMember leafClass leafRun)).hasDoc] =
    some [(detourGraph.inheritMember leafClass leafRun).hasDoc] at docs
  rw [before, after] at docs
  exact absurd docs (by decide)

end ClassGraph
end ClassDocs
