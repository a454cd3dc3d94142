import ClassDocs.Proofs.Graph.Cycles
import ClassDocs.Proofs.Graph.Filling
import ClassDocs.Proofs.Graph.Traversal
import ClassDocs.Proofs.Text.Trimming

/-! References to a member of a class. A name without a hyphen means members of that name only. A kind before the name is
a wish: members of another kind come into question if the class and what it inherits from have none of that kind. -/
namespace ClassDocs

theorem Kind.memberKindName {kind : Kind} (isMember : kind.isMember = true) : MemberRef.memberKind? kind.name = some kind := by
  rw [MemberRef.memberKind?, Kind.ofNameName, Option.filter_some, if_pos isMember]

namespace MemberRef
open Text
variable {className name : String} (own : String) (m : Declaration) (whole : '#' ∉ className.toList) (given : className ≠ "")

include whole given

theorem parseName (plain : '-' ∉ name.toList) :
    parse own m (className ++ "#" ++ name) = ⟨className, m.kind, if name = "" then m.name else name⟩ := by
  have text : (className ++ "#" ++ name).toList = className.toList ++ '#' :: name.toList := by simp
  have spelled : className.toList.isEmpty = false := by simpa using given
  rw [parse, text, cutAt whole]
  simp only [Option.getD_some, cutNowhere plain, spelled, Bool.false_eq_true, if_false, String.ofList_toList,
    Option.getD_none, List.isEmpty_iff, String.toList_eq_nil_iff]

theorem parseKind {kind : Kind} (isMember : kind.isMember = true) :
    parse own m (className ++ "#" ++ kind.name ++ "-" ++ name) = ⟨className, kind, name⟩ := by
  have text : (className ++ "#" ++ kind.name ++ "-" ++ name).toList =
      className.toList ++ '#' :: (kind.name.toList ++ '-' :: name.toList) := by simp
  have plain : '-' ∉ kind.name.toList := by cases kind <;> decide
  have spelled : className.toList.isEmpty = false := by simpa using given
  rw [parse, text, cutAt whole]
  simp only [Option.getD_some, cutAt plain, spelled, Bool.false_eq_true, if_false,
    String.ofList_toList, Kind.memberKindName isMember]

end MemberRef

namespace ClassGraph
variable {g : ClassGraph}

def Has (g : ClassGraph) (className : String) (kind : Kind) (name : String) : Prop :=
  ∃ above c, Relation.ReflTransGen (g.Inherits true) className above ∧ g.get? above = some c ∧
    ∃ d ∈ c.members, d.isFor kind name = true

/- A search in vain leaves out no class above the one where it started. -/
theorem foundAbove {className : String} {kind : Kind} {name : String} (has : g.Has className kind name) :
    (g.findInHierarchy (·.isFor kind name) g.names [className]).isSome = true := by
  obtain ⟨trail, search⟩ := searchEnds g (·.isFor kind name) [] [className]
  have found : g.findInHierarchy (·.isFor kind name) g.names [className] = trail.found := by
    rw [← leftAll]
    exact searchFound search
  rw [found, Option.isSome_iff_ne_none]
  intro nothing
  obtain ⟨met, closed⟩ := searchesAll search nothing
  obtain ⟨above, c, reached, documented, d, hd, fits⟩ := has
  have entered : ∀ n, Relation.ReflTransGen (g.Inherits true) className n → n ∈ trail.names := by
    intro n reached
    induction reached with
    | refl => exact (met className List.mem_cons_self).resolve_right List.not_mem_nil
    | tail _ inherits ih =>
      obtain ⟨c, documented, base, -⟩ := inherits
      exact ((closed _ ih c documented).2 _ base).resolve_right List.not_mem_nil
  exact absurd fits (List.find?_eq_none.mp (closed above (entered above reached) c documented).1 d hd)

theorem resolvedName {r : MemberRef} {found : Found} (h : g.resolve r = some found) : found.member.name = r.name := by
  obtain ⟨-, first, met, same⟩ := resolveOffers h
  exact (Declaration.isForIff.mp same).2.trans (firstMeant met).2

theorem resolvedKind {r : MemberRef} {found : Found} (h : g.resolve r = some found) (has : g.Has r.className r.kind r.name) :
    found.member.kind = r.kind := by
  obtain ⟨-, first, met, same⟩ := resolveOffers h
  obtain ⟨wanted, search⟩ := Option.isSome_iff_exists.mp (foundAbove has)
  rw [search, Option.some_or] at met
  cases met
  obtain ⟨c, -, -, -, fits⟩ := foundInHierarchy search
  exact (Declaration.isForIff.mp same).1.trans (Declaration.isForIff.mp fits).1

theorem resolvedHere {r : MemberRef} {k : ClassRecord} {d : Declaration} (known : g.get? r.className = some k)
    (first : k.findMember? r.kind r.name = some d) (documented : d.hasDoc = true) : g.resolve r = some ⟨k.name, d⟩ := by
  have search : g.findInHierarchy (·.isFor r.kind r.name) g.names [r.className] = some ⟨k.name, d⟩ := by
    have isClass : r.className ∈ g.names := OrderedMap.memKeysOfGet known
    rw [ClassRecord.findMember?] at first
    rw [findInHierarchy, if_pos isClass, known]
    simp only [first]
  simp only [resolve, search, Option.some_or, bind, Option.bind_some, documented, if_true]

/-- What has come into a member has come from one documented member with the property. -/
def TakesFrom (g : ClassGraph) (P : Declaration → Prop) (m m' : Declaration) : Prop :=
  m' = m ∨ ∃ s ∈ g.records, ∃ d ∈ s.members, d.hasDoc = true ∧ P d ∧ m' = m.inherit ⟨s.name, d⟩

theorem sourceWished {c : ClassRecord} {m : Declaration} {target : String} (wish : m.info.inheritDoc = some ⟨some target⟩) :
    g.source? c m = some (g.resolve (MemberRef.parse c.name m target)) := by
  simp only [source?, wish]

theorem takesWished {c : ClassRecord} {m : Declaration} {target : String} {P : Declaration → Prop}
    (wish : m.info.inheritDoc = some ⟨some target⟩)
    (leads : ∀ found, g.resolve (MemberRef.parse c.name m target) = some found → P found.member) :
    g.TakesFrom P m (g.inheritMember c m) := by
  rcases g.inheritMemberCases c m with kept | ⟨found, source, taken⟩
  · exact Or.inl kept
  · rw [sourceWished wish] at source
    have resolved := Option.some.inj source
    obtain ⟨⟨s, hs, named, hd, documented⟩, -⟩ := resolveOffers resolved
    exact Or.inr ⟨s, hs, found.member, hd, documented, leads found resolved, by rw [taken, named]⟩

/-- What a reference to a class brings into a member: with a name that has no hyphen, from members of that name; with a kind
before the name, from members of that kind too if there are any, and from the first one of the class if it is documented. -/
theorem referencesLead {key : String} {c : ClassRecord} (known : g.get? key = some c) {i : Nat} {m : Declaration}
    (hm : c.members[i]? = some m) {className name : String} (given : className ≠ "") (whole : '#' ∉ className.toList) :
    ∃ c' m', g.inheritDocs.value.get? key = some c' ∧ c'.members[i]? = some m' ∧
      ('-' ∉ name.toList → m.info.inheritDoc = some ⟨some (className ++ "#" ++ name)⟩ →
        g.TakesFrom (fun d => d.name = if name = "" then m.name else name) m m') ∧
      ∀ kind, kind.isMember = true → m.info.inheritDoc = some ⟨some (className ++ "#" ++ kind.name ++ "-" ++ name)⟩ →
        g.TakesFrom (fun d => d.name = name ∧ (g.Has className kind name → d.kind = kind)) m m' ∧
        ∀ k d, g.get? className = some k → k.findMember? kind name = some d → d.hasDoc = true →
          m' = m.inherit ⟨k.name, d⟩ := by
  refine ⟨{ c with members := c.members.map (g.inheritMember c) }, g.inheritMember c m, ?_, ?_, ?_, ?_⟩
  · rw [getInherited, known, Option.map_some]
  · rw [List.getElem?_map, hm, Option.map_some]
  · intro plain wish
    refine takesWished wish fun found resolved => ?_
    rw [MemberRef.parseName c.name m whole given plain] at resolved
    exact resolvedName resolved
  · intro kind isMember wish
    have parsed : MemberRef.parse c.name m (className ++ "#" ++ kind.name ++ "-" ++ name) = ⟨className, kind, name⟩ :=
      MemberRef.parseKind c.name m whole given isMember
    refine ⟨takesWished wish fun found resolved => ?_, fun k d documents first documented => ?_⟩
    · rw [parsed] at resolved
      exact ⟨resolvedName resolved, resolvedKind resolved⟩
    · have resolved : g.resolve ⟨className, kind, name⟩ = some ⟨k.name, d⟩ := resolvedHere documents first documented
      rw [inheritMember, sourceWished wish, parsed, resolved]

/- A hyphen in a name does no harm behind a kind. -/
def hideDelay : Declaration :=
  { kind := .cfg, name := "hide-delay", owner := some "Tip", files := [⟨"tip.js", 3⟩], info := { doc := some "In milliseconds." } }

def menuDelay : Declaration :=
  { kind := .property, name := "delay", owner := some "Menu", files := [⟨"menu.js", 3⟩],
    info := { inheritDoc := some ⟨some "Tip#cfg-hide-delay"⟩ } }

def tipGraph : ClassGraph := .ofClasses [{ name := "Tip", members := [hideDelay] }, { name := "Menu", members := [menuDelay] }] []

theorem menuReferred : menuDelay.info.inheritDoc = some ⟨some ("Tip" ++ "#" ++ Kind.cfg.name ++ "-" ++ "hide-delay")⟩ ∧
    "Tip" ≠ "" ∧ '#' ∉ "Tip".toList ∧
    ∃ c', tipGraph.inheritDocs.value.get? "Menu" = some c' ∧ c'.members[0]? = some (menuDelay.inherit ⟨"Tip", hideDelay⟩) := by
  have wish : menuDelay.info.inheritDoc = some ⟨some ("Tip" ++ "#" ++ Kind.cfg.name ++ "-" ++ "hide-delay")⟩ := by rfl
  have known : tipGraph.get? "Menu" = some { name := "Menu", members := [menuDelay] } := by rfl
  have given : "Tip" ≠ "" := by decide
  have whole : '#' ∉ "Tip".toList := by decide
  obtain ⟨c', m', after, there, -, byKind⟩ := @referencesLead tipGraph "Menu" _ known 0 menuDelay rfl "Tip" "hide-delay" given whole
  have taken := (byKind .cfg rfl wish).2 _ hideDelay rfl rfl (by decide)
  rw [taken] at there
  exact ⟨wish, given, whole, c', after, there⟩

def panelData : Declaration :=
  { kind := .cfg, name := "data-bind", owner := some "Panel", files := [⟨"panel.js", 3⟩], info := { doc := some "Binds data." } }

def panelBind : Declaration :=
  { kind := .method, name := "bind", owner := some "Panel", files := [⟨"panel.js", 7⟩], info := { doc := some "Binds a handler." } }

def windowBind : Declaration :=
  { kind := .property, name := "bind", owner := some "Window", files := [⟨"window.js", 3⟩],
    info := { inheritDoc := some ⟨some "Panel#cfg-bind"⟩ } }

def windowData : Declaration :=
  { kind := .cfg, name := "data-bind", owner := some "Window", files := [⟨"window.js", 7⟩],
    info := { inheritDoc := some ⟨some "Panel#data-bind"⟩ } }

def panelClass : ClassRecord := { name := "Panel", members := [panelData, panelBind] }

def windowClass : ClassRecord := { name := "Window", members := [windowBind, windowData] }

def bindGraph : ClassGraph := .ofClasses [panelClass, windowClass] []

theorem bindTaken {P : Declaration → Prop} (other : ¬P panelBind) {m : Declaration} (undocumented : m.info.doc = none) :
    ¬bindGraph.TakesFrom P m (m.inherit ⟨"Panel", panelBind⟩) := by
  have missing : m.hasDoc = false := by rw [Declaration.hasDoc, Metadata.hasDoc, undocumented]; rfl
  have text : (m.inherit ⟨"Panel", panelBind⟩).info.doc = some "Binds a handler." := (Declaration.docTaken missing (by decide)).1
  have records : bindGraph.records = [panelClass, windowClass] := by rfl
  rintro (same | ⟨s, hs, d, hd, given, property, taken⟩)
  · rw [same, undocumented] at text
    contradiction
  · rw [taken, (Declaration.docTaken missing given).1] at text
    rw [records] at hs
    simp only [List.mem_cons, List.not_mem_nil, or_false] at hs
    rcases hs with rfl | rfl <;> simp only [panelClass, windowClass, List.mem_cons, List.not_mem_nil, or_false] at hd
    · rcases hd with rfl | rfl
      · exact absurd text (by decide)
      · exact other property
    · rcases hd with rfl | rfl
      · contradiction
      · contradiction

/- Both members get what the method says: the first for want of a cfg, the second because its name is cut at the hyphen. -/
theorem bindMisled : ∃ bind data, bindGraph.inheritDocs.value.get? "Window" = some { name := "Window", members := [bind, data] } ∧
    windowBind.info.inheritDoc = some ⟨some ("Panel" ++ "#" ++ Kind.cfg.name ++ "-" ++ "bind")⟩ ∧
    ¬bindGraph.TakesFrom (fun d => d.kind = .cfg ∧ d.name = "bind") windowBind bind ∧
    windowData.info.inheritDoc = some ⟨some ("Panel" ++ "#" ++ "data-bind")⟩ ∧
    ¬bindGraph.TakesFrom (fun d => d.name = "data-bind") windowData data := by
  have known : bindGraph.get? "Window" = some windowClass := by rfl
  have resolved : bindGraph.resolve ⟨"Panel", .cfg, "bind"⟩ = some ⟨"Panel", panelBind⟩ := by
    have none : bindGraph.findInHierarchy (·.isFor .cfg "bind") bindGraph.names ["Panel"] = none := by cbv
    have other : bindGraph.findInHierarchy (·.name == "bind") bindGraph.names ["Panel"] = some ⟨"Panel", panelBind⟩ := by cbv
    have documented : panelBind.hasDoc = true := by decide
    simp only [resolve, none, other, Option.none_or, bind, Option.bind_some, documented, if_true]
  have first : bindGraph.source? windowClass windowBind = some (some ⟨"Panel", panelBind⟩) := by
    have parsed : MemberRef.parse "Window" windowBind "Panel#cfg-bind" = ⟨"Panel", .cfg, "bind"⟩ := by rfl
    exact congrArg some ((congrArg bindGraph.resolve parsed).trans resolved)
  have second : bindGraph.source? windowClass windowData = some (some ⟨"Panel", panelBind⟩) := by
    have parsed : MemberRef.parse "Window" windowData "Panel#data-bind" = ⟨"Panel", .cfg, "bind"⟩ := by rfl
    exact congrArg some ((congrArg bindGraph.resolve parsed).trans resolved)
  have after : windowClass.members.map (bindGraph.inheritMember windowClass) =
      [windowBind.inherit ⟨"Panel", panelBind⟩, windowData.inherit ⟨"Panel", panelBind⟩] := by
    change [bindGraph.inheritMember windowClass windowBind, bindGraph.inheritMember windowClass windowData] = _
    simp only [inheritMember, first, second]
  refine ⟨_, _, ?_, rfl, bindTaken ?_ rfl, rfl, bindTaken ?_ rfl⟩
  · rw [getInherited, known, Option.map_some, after]
    rfl
  · exact fun misled => absurd misled.1 (by decide)
  · exact fun misled => absurd misled (by decide)

end ClassGraph
end ClassDocs
