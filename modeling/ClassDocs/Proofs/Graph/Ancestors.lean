import ClassDocs.Proofs.Graph.Building
import ClassDocs.Proofs.Graph.Cycles
import ClassDocs.Proofs.Graph.Inheritance

/-! Documentation from above in a hierarchy without mixins. There the search for a documented member goes the way on which
the ancestors stand, and ends at the nearest of them that documents the member. -/
namespace ClassDocs

/-- The first member of that kind and name is documented. -/
def ClassRecord.documents (kind : Kind) (name : String) (c : ClassRecord) : Bool :=
  (c.findMember? kind name).any Declaration.hasDoc

namespace ClassGraph

/-- From a class up, parent by parent, as far as these are documented classes. -/
inductive Lineage (g : ClassGraph) : ClassRecord → List ClassRecord → Prop where
  | top {c} (last : ∀ parent, c.parent? = some parent → g.get? parent = none) : Lineage g c []
  | above {c p line} (parent : c.parent? = some p.name) (known : g.get? p.name = some p) (rest : Lineage g p line) :
      Lineage g c (p :: line)

/-- None of the classes above has been visited. -/
def Unvisited (g : ClassGraph) (followMixins : Bool) (names : List String) (c : ClassRecord) : Prop :=
  ∀ n, Relation.TransGen (g.Inherits followMixins) c.name n → n ∈ names

section Lineage
variable {g : ClassGraph} {followMixins : Bool} (acyclic : ¬g.Cyclic followMixins) {c p : ClassRecord} {line : List ClassRecord}
  {names : List String} {kind : Kind} {name : String}

theorem inheritsParent (known : g.get? c.name = some c) (parent : c.parent? = some p.name) (above : g.get? p.name = some p) :
    g.Inherits followMixins c.name p.name :=
  ⟨c, known, by simp [searched, parent], OrderedMap.memKeysOfGet above⟩

include acyclic

theorem unvisitedStart (c : ClassRecord) : g.Unvisited followMixins (g.names.erase c.name) c := by
  intro n above
  have different : n ≠ c.name := fun same => acyclic ⟨n, by rwa [← same] at above⟩
  obtain ⟨_, -, _, -, -, documented⟩ := Relation.TransGen.tail'_iff.mp above
  exact (List.mem_erase_of_ne different).mpr documented

/- A class that comes again above itself would be on a cycle, so visiting the parent takes no other class away. -/
theorem unvisitedAbove (unvisited : g.Unvisited followMixins names c) (inherits : g.Inherits followMixins c.name p.name) :
    p.name ∈ names ∧ g.Unvisited followMixins (names.erase p.name) p := by
  refine ⟨unvisited p.name (.single inherits), fun n above => ?_⟩
  have different : n ≠ p.name := fun same => acyclic ⟨n, by rwa [← same] at above⟩
  exact (List.mem_erase_of_ne different).mpr (unvisited n (.head inherits above))

theorem lineageFrom (named : g.classes.All fun key c => c.name = key) (known : g.get? c.name = some c)
    (unvisited : g.Unvisited followMixins names c) : g.Lineage c (g.ancestorsFrom names c) := by
  fun_induction ancestorsFrom g names c with
  | case1 names c rootless => exact .top fun parent given => by rw [rootless] at given; contradiction
  | case2 names c parent given fresh unknown =>
    exact .top fun other same => by cases given.symm.trans same; exact unknown
  | case3 names c parent given fresh p found ih =>
    cases named parent p found
    obtain ⟨-, later⟩ := unvisitedAbove acyclic unvisited (inheritsParent known given found)
    exact .above given found (ih found later)
  | case4 names c parent given visited =>
    refine .top fun other same => ?_
    cases given.symm.trans same
    cases found : g.get? parent with
    | none => rfl
    | some p =>
      cases named parent p found
      exact absurd (unvisitedAbove acyclic unvisited (inheritsParent known given found)).1 visited

theorem lineageAncestors (named : g.classes.All fun key c => c.name = key) (known : g.get? c.name = some c) :
    g.Lineage c (g.ancestors c.name) := by
  rw [ancestors, known]
  exact lineageFrom acyclic named known (unvisitedStart acyclic c)

variable (plain : ∀ c ∈ g.records, c.mixins = [])
include plain

theorem findInLineage {fits : Declaration → Bool} (h : g.Lineage c line) (known : g.get? c.name = some c)
    (unvisited : g.Unvisited followMixins names c) :
    g.findInHierarchy fits names c.bases = line.findSome? fun a => (a.members.find? fits).map (Found.mk a.name) := by
  have bases : c.bases = c.parent?.toList := by
    rw [ClassRecord.bases, plain c (memRecords.mpr ⟨_, known⟩), List.append_nil]
  induction h generalizing names with
  | @top c last =>
    rw [bases, List.findSome?_nil]
    cases given : c.parent? with
    | none => rw [Option.toList_none, findInHierarchy]
    | some parent =>
      rw [Option.toList_some, findInHierarchy, last parent given]
      simp only [findInHierarchy, ite_self]
  | @above c p line parent above rest ih =>
    obtain ⟨fresh, later⟩ := unvisitedAbove acyclic unvisited (inheritsParent known parent above)
    have parents : p.bases = p.parent?.toList := by
      rw [ClassRecord.bases, plain p (memRecords.mpr ⟨_, above⟩), List.append_nil]
    rw [bases, parent, Option.toList_some, findInHierarchy, if_pos fresh, above, List.findSome?_cons]
    cases first : p.members.find? fits with
    | some m => simp only [first, Option.map_some]
    | none =>
      simp only [first, Option.map_none, List.append_nil]
      exact ih above later parents

theorem overriddenInLineage (h : g.Lineage c line) (known : g.get? c.name = some c) :
    g.overridden? c.name kind name = line.findSome? fun a => (a.findMember? kind name).map (Found.mk a.name) := by
  rw [overridden?, known]
  exact findInLineage acyclic plain h known (unvisitedStart acyclic c)

theorem documentedInLineage (h : g.Lineage c line) (known : g.get? c.name = some c) :
    g.findDocumented c.name kind name =
      (line.find? (·.documents kind name)).bind fun a => (a.findMember? kind name).map (Found.mk a.name) := by
  induction h with
  | top last => rw [findDocumentedOverridden, overriddenInLineage acyclic plain (.top last) known]; rfl
  | @above c p line parent above rest ih =>
    have here : g.overridden? c.name kind name = _ := overriddenInLineage acyclic plain (.above parent above rest) known
    have fromParent := ih above
    rw [findDocumentedOverridden, here, List.findSome?_cons, List.find?_cons]
    cases first : p.findMember? kind name with
    | none =>
      -- the parent has no such member, so the search goes on as it would from the parent
      rw [findDocumentedOverridden, overriddenInLineage acyclic plain rest above] at fromParent
      simp only [ClassRecord.documents, first, Option.any_none, Option.map_none]
      exact fromParent
    | some m =>
      cases documented : m.hasDoc with
      | true => simp [ClassRecord.documents, first, documented]
      | false => simpa [ClassRecord.documents, first, documented] using fromParent

end Lineage

theorem sourceImplicit {g : ClassGraph} {c : ClassRecord} {m : Declaration} (undocumented : m.hasDoc = false)
    (written : m.info.autogenerated = false) (untargeted : m.info.inheritDoc.bind InheritDoc.target = none) :
    g.source? c m = some (g.findDocumented c.name m.kind m.name) := by
  rcases sourceUntargeted (g := g) (c := c) untargeted with none | sought
  · unfold source? at none
    split at none
    · contradiction
    · contradiction
    · simp [undocumented, written] at none
  · exact sought

/-- A member before and after documentation has come down to it from the first class of `line` that documents it. -/
structure InheritsNearest (line : List ClassRecord) (m m' : Declaration) : Prop where
  taken : ∀ a, line.find? (·.documents m.kind m.name) = some a → ∃ source, a.findMember? m.kind m.name = some source ∧
    m'.info.doc = source.info.doc ∧ m'.info.inheritedFrom = some a.name
  untouched : line.find? (·.documents m.kind m.name) = none → m' = m
  undocumented : m'.hasDoc = false ↔ ∀ a ∈ line, a.documents m.kind m.name = false

theorem inheritsNearest {line : List ClassRecord} {m : Declaration} (undocumented : m.hasDoc = false) :
    InheritsNearest line m (((line.find? (·.documents m.kind m.name)).bind fun a =>
      (a.findMember? m.kind m.name).map (Found.mk a.name)).elim m m.inherit) := by
  cases nearest : line.find? (·.documents m.kind m.name) with
  | none =>
    refine ⟨fun a found => by rw [nearest] at found; contradiction, fun _ => rfl, iff_of_true undocumented fun a ha => ?_⟩
    simpa using List.find?_eq_none.mp nearest a ha
  | some a =>
    have documents := List.find?_some nearest
    obtain ⟨source, found, documented⟩ := (Option.any_eq_true ..).mp documents
    have given : source.info.hasDoc = true := documented
    have missing : m.info.hasDoc = false := undocumented
    simp only [Option.bind_some, found, Option.map_some, Option.elim_some]
    refine ⟨fun other same => ?_, fun absent => ?_, iff_of_false ?_ fun none => ?_⟩
    · cases nearest.symm.trans same
      refine ⟨source, found, ?_, ?_⟩ <;> simp [Declaration.inherit, missing, given]
    · rw [nearest] at absent
      contradiction
    · rw [Declaration.documentedInherit, documented, Bool.or_true]
      exact Bool.false_ne_true.symm
    · rw [none a (List.mem_of_find?_eq_some nearest)] at documents
      contradiction

/-- Without mixins and cycles a member that needs documentation has it in the end from the nearest ancestor that documents
it, and is left as it is if there is none. -/
theorem nearestDocumented {g : ClassGraph} {followMixins : Bool} (named : g.classes.All fun key c => c.name = key)
    (plain : ∀ c ∈ g.records, c.mixins = []) (accepted : (g.checkCycles followMixins).value = .ok ()) {c : ClassRecord}
    (hc : c ∈ g.records) {i : Nat} {m : Declaration} (hm : c.members[i]? = some m) (undocumented : m.hasDoc = false)
    (written : m.info.autogenerated = false) (untargeted : m.info.inheritDoc.bind InheritDoc.target = none) :
    ∃ c' m', g.inheritDocs.value.get? c.name = some c' ∧ c'.members[i]? = some m' ∧
      InheritsNearest (g.ancestors c.name) m m' := by
  have acyclic : ¬g.Cyclic followMixins := fun cyclic => by
    obtain ⟨_, _, _, -, failed⟩ := (checkCyclesVerdict g followMixins).2 cyclic
    rw [failed] at accepted
    contradiction
  have known := getRecord named hc
  have source : g.inheritMember c m = (g.findDocumented c.name m.kind m.name).elim m m.inherit := by
    rw [inheritMember, sourceImplicit undocumented written untargeted]
    cases g.findDocumented c.name m.kind m.name <;> rfl
  refine ⟨{ c with members := c.members.map (g.inheritMember c) }, g.inheritMember c m, ?_, ?_, ?_⟩
  · rw [getInherited, known, Option.map_some]
  · rw [List.getElem?_map, hm, Option.map_some]
  · rw [source, documentedInLineage acyclic plain (lineageAncestors acyclic named known) known]
    exact inheritsNearest undocumented

/- The first `run` of the panel says nothing, the dialog has none, and what the component extends is documented elsewhere. -/
def runnables : List ClassRecord := [
  { name := "Component", info := { classInfo := { parent := some "Ext.Base" } }, members := [
    { kind := .method, name := "run", files := [⟨"component.js", 3⟩], info := { doc := some "Runs." } }] },
  { name := "Panel", info := { classInfo := { parent := some "Component" } }, members := [
    { kind := .method, name := "run", files := [⟨"panel.js", 3⟩], info := { doc := some " " } },
    { kind := .method, name := "run", files := [⟨"panel.js", 9⟩], info := { doc := some "Runs again." } }] },
  { name := "Dialog", info := { classInfo := { parent := some "Panel" } } },
  { name := "Window", info := { classInfo := { parent := some "Dialog" } }, members := [
    { kind := .cfg, name := "run", files := [⟨"window.js", 2⟩] },
    { kind := .method, name := "run", files := [⟨"window.js", 3⟩], info := { inheritDoc := some {} } }] }]

def runnableGraph : ClassGraph := .ofClasses runnables []

theorem windowRuns : (runnableGraph.classes.All fun key c => c.name = key) ∧ (∀ c ∈ runnableGraph.records, c.mixins = []) ∧
    (runnableGraph.checkCycles true).value = .ok () ∧ ∃ c ∈ runnableGraph.records, c.name = "Window" ∧
    ∃ m, c.members[1]? = some m ∧ m.hasDoc = false ∧ m.info.autogenerated = false ∧
      m.info.inheritDoc.bind InheritDoc.target = none ∧
      ∃ c' m', runnableGraph.inheritDocs.value.get? "Window" = some c' ∧ c'.members[1]? = some m' ∧
        m'.info.doc = some "Runs." ∧ m'.info.inheritedFrom = some "Component" := by
  have named : runnableGraph.classes.All fun key c => c.name = key :=
    fun key c found => ((getOfClasses (by decide)).mp found).2
  have records : runnableGraph.records = runnables := by rfl
  have plain : ∀ c ∈ runnableGraph.records, c.mixins = [] := by
    rw [records]
    simp [runnables, ClassRecord.mixins]
  have accepted : (runnableGraph.checkCycles true).value = .ok () := by cbv
  have hc : runnables[3] ∈ runnableGraph.records := by
    rw [records]
    exact List.getElem_mem _
  obtain ⟨c', m', after, there, nearest⟩ := nearestDocumented named plain accepted hc (i := 1) rfl (by decide) rfl rfl
  have above : runnableGraph.ancestors "Window" = [runnables[2], runnables[1], runnables[0]] := by cbv
  have line : (runnableGraph.ancestors "Window").find? (·.documents .method "run") = some runnables[0] := by
    rw [above]
    rfl
  obtain ⟨source, found, doc, inheritedFrom⟩ := nearest.taken _ line
  cases (show some _ = some source from found)
  exact ⟨named, plain, accepted, _, hc, rfl, _, rfl, by decide, rfl, rfl, c', m', after, there, doc, inheritedFrom⟩

end ClassGraph
end ClassDocs
