import ClassDocs.Proofs.Graph.Building
import ClassDocs.Proofs.Graph.Inheritance

/-! What inherited documentation does to a member. It fills what is empty, keeps what is written, and names the class that it
has come from. That all members are filled at once is the same as writing down first what has been found for which member,
and filling the members one after the other by the name of the class and the place in it. -/
namespace ClassDocs

def Stays {α : Type} (own own' : Option α) : Prop := ∀ a, own = some a → own' = some a

theorem staysOr {α : Type} (own source : Option α) : Stays own (own.or source) := by
  rintro a rfl
  rfl

theorem staysSame {α : Type} (own : Option α) : Stays own own := fun _ given => given

structure Param.Filled (p p' : Param) : Prop where
  rest : p' = { p with typeName := p'.typeName, doc := p'.doc }
  typeName : Stays p.typeName p'.typeName
  doc : Stays p.doc p'.doc

structure ReturnDoc.Filled (r r' : ReturnDoc) : Prop where
  typeName : Stays r.typeName r'.typeName
  doc : Stays r.doc r'.doc

/-- A member before and after its gaps have been filled. -/
structure Declaration.Filled (m m' : Declaration) : Prop where
  rest : m' = { m with info := { m.info with
    doc := m'.info.doc, inheritedFrom := m'.info.inheritedFrom, typeName := m'.info.typeName, params := m'.info.params,
    returns := m'.info.returns } }
  doc : m.hasDoc = true → m'.info.doc = m.info.doc
  inheritedFrom : m'.info.doc = m.info.doc → m'.info.inheritedFrom = m.info.inheritedFrom
  typeName : Stays m.info.typeName m'.info.typeName
  params : m.info.params ≠ [] → List.Forall₂ Param.Filled m.info.params m'.info.params
  returns : ∀ own, m.info.returns = some own → ∃ own', m'.info.returns = some own' ∧ own.Filled own'

theorem Param.filledInherit (sources : List Param) (p : Param) : p.Filled (Param.inherit sources p) := by
  unfold Param.inherit
  split
  · exact ⟨rfl, staysOr _ _, staysOr _ _⟩
  · exact ⟨rfl, staysSame _, staysSame _⟩

theorem ReturnDoc.filledInherit (own : ReturnDoc) (source : Option ReturnDoc) :
    ∃ own', ReturnDoc.inherit (some own) source = some own' ∧ own.Filled own' := by
  cases source with
  | none => exact ⟨own, rfl, staysSame _, staysSame _⟩
  | some source => exact ⟨_, rfl, staysOr _ _, staysOr _ _⟩

namespace Declaration

theorem filledSame (m : Declaration) : m.Filled m where
  rest := rfl
  doc _ := rfl
  inheritedFrom _ := rfl
  typeName := staysSame _
  params _ := List.forall₂_same.mpr fun _ _ => ⟨rfl, staysSame _, staysSame _⟩
  returns own given := ⟨own, given, staysSame _, staysSame _⟩

theorem filledInherit (m : Declaration) (found : Found) : m.Filled (m.inherit found) where
  rest := rfl
  doc given := by
    have given : m.info.hasDoc = true := given
    simp only [inherit, given, Bool.not_true, Bool.false_and, Bool.false_eq_true, if_false]
  inheritedFrom same := by
    cases takes : !m.info.hasDoc && found.member.info.hasDoc with
    | false => simp only [inherit, takes, Bool.false_eq_true, if_false]
    | true =>
      -- documentation that has been taken is not blank, and what it has taken the place of is
      simp only [Bool.and_eq_true, Bool.not_eq_true'] at takes
      have given := documentedInherit m found
      simp only [hasDoc, Metadata.hasDoc] at given takes
      rw [same, takes.1, takes.2] at given
      contradiction
  typeName := staysOr _ _
  params given := by
    have some : m.info.params.isEmpty = false := List.isEmpty_eq_false_iff.mpr given
    simp only [inherit, some, Bool.false_eq_true, if_false]
    exact List.forall₂_map_right_iff.mpr (List.forall₂_same.mpr fun p _ => Param.filledInherit _ p)
  returns own given := by
    simp only [inherit, given]
    exact ReturnDoc.filledInherit own _

theorem docTaken {m : Declaration} {found : Found} (missing : m.hasDoc = false) (given : found.member.hasDoc = true) :
    (m.inherit found).info.doc = found.member.info.doc ∧ (m.inherit found).info.inheritedFrom = some found.className := by
  have absent : (!m.info.hasDoc) = true := (Bool.not_eq_true' _).mpr missing
  have takes : (!m.info.hasDoc && found.member.info.hasDoc) = true := Bool.and_eq_true_iff.mpr ⟨absent, given⟩
  simp only [inherit, takes, if_true, and_self]

theorem docChanged {m : Declaration} {found : Found} (given : found.member.hasDoc = true)
    (changed : (m.inherit found).info.doc ≠ m.info.doc) : (m.inherit found).info.doc = found.member.info.doc ∧
      (m.inherit found).info.inheritedFrom = some found.className := by
  cases missing : m.hasDoc with
  | false => exact docTaken missing given
  | true => exact absurd ((m.filledInherit found).doc missing) changed

end Declaration

namespace ClassGraph
variable {g : ClassGraph}

def Offers (g : ClassGraph) (found : Found) : Prop :=
  ∃ c ∈ g.records, c.name = found.className ∧ found.member ∈ c.members ∧ found.member.hasDoc = true

theorem aboveOffers {kind : Kind} {name : String} {steps : Nat} {className : String} {found : Found}
    (h : g.DocumentedAbove kind name steps className found) : g.Offers found ∧ found.member.isFor kind name = true := by
  induction h with
  | here overridden documented =>
    obtain ⟨c, hc, named, hm, fits⟩ := overriddenFound overridden
    exact ⟨⟨c, hc, named, hm, documented⟩, fits⟩
  | further _ _ _ ih => exact ih

theorem firstMeant {r : MemberRef} {first : Found} (met : (g.findInHierarchy (·.isFor r.kind r.name) g.names [r.className]).or
    (g.findInHierarchy (·.name == r.name) g.names [r.className]) = some first) :
    (∃ c ∈ g.records, c.name = first.className ∧ first.member ∈ c.members) ∧ first.member.name = r.name := by
  rcases Option.or_eq_some_iff.mp met with search | ⟨-, search⟩
  · obtain ⟨c, hc, named, hm, fits⟩ := foundInHierarchy search
    exact ⟨⟨c, hc, named, hm⟩, (Declaration.isForIff.mp fits).2⟩
  · obtain ⟨c, hc, named, hm, fits⟩ := foundInHierarchy search
    exact ⟨⟨c, hc, named, hm⟩, eq_of_beq fits⟩

/- What a reference leads to is a member of the kind and the name that it has met first. -/
theorem resolveOffers {r : MemberRef} {found : Found} (h : g.resolve r = some found) : g.Offers found ∧
    ∃ first, (g.findInHierarchy (·.isFor r.kind r.name) g.names [r.className]).or
      (g.findInHierarchy (·.name == r.name) g.names [r.className]) = some first ∧
      found.member.isFor first.member.kind first.member.name = true := by
  obtain ⟨first, met, further⟩ := Option.bind_eq_some_iff.mp h
  split at further
  · rename_i documented
    cases further
    obtain ⟨⟨c, hc, named, hm⟩, -⟩ := firstMeant met
    exact ⟨⟨c, hc, named, hm, documented⟩, found, met, Declaration.isForIff.mpr ⟨rfl, rfl⟩⟩
  · obtain ⟨steps, above⟩ := findDocumentedSome.mp further
    obtain ⟨offers, fits⟩ := aboveOffers above
    exact ⟨offers, first, met, fits⟩

theorem sourceOffers {c : ClassRecord} {m : Declaration} {found : Found} (h : g.source? c m = some (some found)) :
    g.Offers found := by
  have above (found : Found) (search : g.findDocumented c.name m.kind m.name = some found) : g.Offers found := by
    obtain ⟨steps, above⟩ := findDocumentedSome.mp search
    exact (aboveOffers above).1
  unfold source? at h
  split at h
  · exact (resolveOffers (Option.some.inj h)).1
  · exact above found (Option.some.inj h)
  · split at h
    · contradiction
    · exact above found (Option.some.inj h)

structure FilledIn (g : ClassGraph) (c : ClassRecord) (m m' : Declaration) : Prop extends m.Filled m' where
  source : m'.info.doc ≠ m.info.doc → ∃ s ∈ g.records, m'.info.inheritedFrom = some s.name ∧
    ∃ d ∈ s.members, d.hasDoc = true ∧ m'.info.doc = d.info.doc
  served : ∀ found, g.source? c m = some (some found) → m'.hasDoc = true

theorem filledIn (c : ClassRecord) (m : Declaration) : g.FilledIn c m (g.inheritMember c m) := by
  cases source : g.source? c m with
  | none =>
    have kept : g.inheritMember c m = m := by rw [inheritMember, source]
    rw [kept]
    exact ⟨m.filledSame, absurd rfl, fun found given => by rw [source] at given; contradiction⟩
  | some result =>
    cases result with
    | none =>
      have kept : g.inheritMember c m = m := by rw [inheritMember, source]
      rw [kept]
      exact ⟨m.filledSame, absurd rfl, fun found given => by rw [source] at given; cases given⟩
    | some found =>
      have taken : g.inheritMember c m = m.inherit found := by rw [inheritMember, source]
      obtain ⟨s, hs, named, hd, documented⟩ := sourceOffers source
      rw [taken]
      refine ⟨m.filledInherit found, fun changed => ?_, fun _ _ => ?_⟩
      · obtain ⟨doc, inheritedFrom⟩ := Declaration.docChanged documented changed
        exact ⟨s, hs, by rw [inheritedFrom, named], found.member, hd, documented, doc⟩
      · rw [Declaration.documentedInherit, documented, Bool.or_true]

/-- Documentation that has been found for the member at one place of one class. -/
structure Update where
  className : String
  index : Nat
  found : Found

def updatesFrom (g : ClassGraph) (c : ClassRecord) : Nat → List Declaration → List Update
  | _, [] => []
  | index, m :: rest =>
    match g.source? c m with
    | some (some found) => ⟨c.name, index, found⟩ :: updatesFrom g c (index + 1) rest
    | _ => updatesFrom g c (index + 1) rest

/-- What there is to fill in, class by class. Nothing has been filled in yet. -/
def updates (g : ClassGraph) : List Update := g.records.flatMap fun c => g.updatesFrom c 0 c.members

def filledAt (members : List Declaration) (u : Update) : List Declaration := members.modify u.index (·.inherit u.found)

def updated (g : ClassGraph) (u : Update) : ClassGraph :=
  { g with classes := g.classes.modify u.className fun c => { c with members := filledAt c.members u } }

/- Each update is for one class only, so every class takes up its own ones in their order. -/
theorem updatedAll (updates : List Update) (g : ClassGraph) : updates.foldl updated g =
    { g with classes := g.classes.mapWithKey fun key c =>
      { c with members := (updates.filter (·.className == key)).foldl filledAt c.members } } := by
  induction updates generalizing g with
  | nil =>
    have same : g.classes.mapWithKey (fun _ c => c) = g.classes := by simp [OrderedMap.mapWithKey]
    exact congrArg (fun classes => { g with classes }) same.symm
  | cons u rest ih =>
    rw [List.foldl_cons, ih]
    refine congrArg (fun classes => { g with classes }) ?_
    rw [updated, OrderedMap.modify, OrderedMap.mapWithKeyTwice]
    refine congrArg (OrderedMap.mapWithKey · g.classes) (funext fun key => funext fun c => ?_)
    by_cases same : key = u.className
    · simp [same]
    · simp [same, Ne.symm same]

theorem filledHere (done : List Declaration) (m : Declaration) (rest : List Declaration) (className : String) (found : Found) :
    filledAt (done ++ m :: rest) ⟨className, done.length, found⟩ = done ++ m.inherit found :: rest := by
  simp only [filledAt]
  induction done with
  | nil => rfl
  | cons first done ih => simp only [List.cons_append, List.length_cons, List.modify_succ_cons, ih]

/- The place of a member in its class is the number of those before it, which have been filled already. -/
theorem filledUp (c : ClassRecord) (done members : List Declaration) :
    (g.updatesFrom c done.length members).foldl filledAt (done ++ members) = done ++ members.map (g.inheritMember c) := by
  induction members generalizing done with
  | nil => rfl
  | cons m rest ih =>
    have next := ih (done ++ [g.inheritMember c m])
    simp only [List.length_append, List.length_singleton, List.append_assoc, List.singleton_append] at next
    rw [List.map_cons, ← next]
    cases source : g.source? c m with
    | none => simp only [updatesFrom, inheritMember, source]
    | some result =>
      cases result with
      | none => simp only [updatesFrom, inheritMember, source]
      | some found => simp only [updatesFrom, inheritMember, source, List.foldl_cons, filledHere]

theorem updatesNamed (c : ClassRecord) (index : Nat) (members : List Declaration) :
    ∀ u ∈ g.updatesFrom c index members, u.className = c.name := by
  induction members generalizing index with
  | nil => simp [updatesFrom]
  | cons m rest ih =>
    intro u hu
    rw [updatesFrom] at hu
    split at hu
    · rcases List.mem_cons.mp hu with rfl | hu
      · rfl
      · exact ih _ u hu
    · exact ih _ u hu

/- Of the classes only one has the name, so the others have nothing for it. -/
theorem updatesOf (named : g.classes.All fun key c => c.name = key) {key : String} {c : ClassRecord} (known : g.get? key = some c) :
    g.updates.filter (·.className == key) = g.updatesFrom c 0 c.members := by
  have distinct : (g.records.map ClassRecord.name).Nodup := (namesOfRecords named) ▸ g.classes.distinct
  obtain ⟨before, after, records⟩ := List.append_of_mem (memRecords.mpr ⟨key, known⟩)
  rw [records, List.map_append, List.map_cons, List.nodup_append, List.nodup_cons] at distinct
  have same : c.name = key := named key c known
  have own : (g.updatesFrom c 0 c.members).filter (·.className == key) = g.updatesFrom c 0 c.members :=
    List.filter_eq_self.mpr fun u hu => by simp [updatesNamed c 0 c.members u hu, same]
  have others (part : List ClassRecord) (different : ∀ d ∈ part, d.name ≠ key) :
      (part.flatMap fun d => g.updatesFrom d 0 d.members).filter (·.className == key) = [] := by
    rw [List.filter_eq_nil_iff]
    intro u hu
    obtain ⟨d, hd, hu⟩ := List.mem_flatMap.mp hu
    simp [updatesNamed d 0 d.members u hu, different d hd]
  have first : ∀ d ∈ before, d.name ≠ key := fun d hd =>
    same ▸ distinct.2.2 _ (List.mem_map.mpr ⟨d, hd, rfl⟩) _ List.mem_cons_self
  have last : ∀ d ∈ after, d.name ≠ key := fun d hd again =>
    distinct.2.1.1 (List.mem_map.mpr ⟨d, hd, again.trans same.symm⟩)
  rw [updates, records, List.flatMap_append, List.flatMap_cons, List.filter_append, List.filter_append, own, others before first,
    others after last, List.nil_append, List.append_nil]

/- Every update reaches the member that it has been found for. -/
theorem updatesReach (named : g.classes.All fun key c => c.name = key) : g.updates.foldl updated g = g.inheritDocs.value := by
  rw [updatedAll, inheritDocs, mapClasses, OrderedMap.map]
  refine congrArg (fun classes => { g with classes }) (OrderedMap.mapWithKeyCongr fun key c known => ?_)
  have filled := filledUp (g := g) c [] c.members
  rw [updatesOf named known]
  exact congrArg (fun members => { c with members }) filled

theorem gapsFilled (g : ClassGraph) :
    (g.inheritDocs.value.names = g.names ∧ g.inheritDocs.value.stubs = g.stubs ∧ g.inheritDocs.value.patterns = g.patterns) ∧
    (∀ key c, g.get? key = some c → ∃ members, g.inheritDocs.value.get? key = some { c with members } ∧
      List.Forall₂ (g.FilledIn c) c.members members) ∧
    ((g.classes.All fun key c => c.name = key) → g.updates.foldl updated g = g.inheritDocs.value) := by
  refine ⟨⟨namesMapClasses .., rfl, rfl⟩, fun key c known => ?_, updatesReach⟩
  refine ⟨c.members.map (g.inheritMember c), by rw [getInherited, known, Option.map_some], ?_⟩
  exact List.forall₂_map_right_iff.mpr (List.forall₂_same.mpr fun m _ => filledIn c m)

/- The toolbar gives the type of its parameter and a text for what it returns, but only a blank one for itself. -/
def toolbarDock : Declaration :=
  { kind := .method, name := "dock", owner := some "Toolbar", files := [⟨"toolbar.js", 3⟩],
    info := { doc := some " ", params := [{ name := "side", typeName := some "String" }], returns := some ⟨none, some "Itself."⟩ } }

def componentDock : Declaration :=
  { kind := .method, name := "dock", owner := some "Component", files := [⟨"component.js", 3⟩],
    info := { doc := some "Docks it.", params := [{ name := "side", typeName := some "Object", doc := some "Where to." }],
              returns := some ⟨some "Component", some "The component."⟩ } }

def toolbarClass : ClassRecord := { name := "Toolbar", info := { classInfo := { parent := some "Component" } }, members := [toolbarDock] }

def dockGraph : ClassGraph := .ofClasses [{ name := "Component", members := [componentDock] }, toolbarClass] []

theorem toolbarFilled : (dockGraph.classes.All fun key c => c.name = key) ∧
    dockGraph.updates.foldl updated dockGraph = dockGraph.inheritDocs.value ∧
    ∃ m', dockGraph.inheritDocs.value.get? "Toolbar" = some { toolbarClass with members := [m'] } ∧ m'.hasDoc = true ∧
      m'.info.params.map (fun p => (p.name, p.typeName)) = [("side", some "String")] ∧
      m'.info.returns.bind ReturnDoc.doc = some "Itself." := by
  obtain ⟨-, filled, reach⟩ := gapsFilled dockGraph
  have named : dockGraph.classes.All fun key c => c.name = key := fun key c found => ((getOfClasses (by decide)).mp found).2
  obtain ⟨members, known, each⟩ := filled "Toolbar" toolbarClass rfl
  have one : List.Forall₂ (dockGraph.FilledIn toolbarClass) [toolbarDock] members := each
  obtain ⟨m', others, first, rest, rfl⟩ := List.forall₂_cons_left_iff.mp one
  cases List.forall₂_nil_left_iff.mp rest
  have source : dockGraph.source? toolbarClass toolbarDock = some (some ⟨"Component", componentDock⟩) := by
    have overridden : dockGraph.overridden? "Toolbar" .method "dock" = some ⟨"Component", componentDock⟩ := by cbv
    exact congrArg some (findDocumentedSome.mpr ⟨0, .here overridden (by decide)⟩)
  have params := first.params (List.cons_ne_nil _ _)
  obtain ⟨p', others, side, rest, same⟩ := List.forall₂_cons_left_iff.mp params
  cases List.forall₂_nil_left_iff.mp rest
  obtain ⟨own, given, kept⟩ := first.returns _ rfl
  refine ⟨named, reach named, m', known, first.served _ source, ?_, ?_⟩
  · rw [same, List.map_singleton, side.typeName "String" rfl, side.rest]
  · rw [given]
    exact kept.doc "Itself." rfl

end ClassGraph
end ClassDocs
