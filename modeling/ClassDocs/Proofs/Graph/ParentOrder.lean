import ClassDocs.Proofs.Graph.Ancestors
import ClassDocs.Proofs.Graph.Traversal

/-! The order that parents make. The walk from parent to parent ends on every graph, and what it passes is the longest way
up that meets no class twice; where no class inherits from itself, it leads to all classes above and to a top. -/
namespace ClassDocs
namespace ClassGraph

def Extends (g : ClassGraph) (a b : String) : Prop := ∃ c, g.get? a = some c ∧ c.parent? = some b ∧ b ∈ g.names

/-- A way up from a class, parent by parent, that meets no class twice and does not come back to its start. -/
structure WayUp (g : ClassGraph) (name : String) (line : List String) : Prop where
  steps : (name :: line).IsChain g.Extends
  distinct : (name :: line).Nodup

def Above (g : ClassGraph) (a b : String) : Prop := b ∈ (g.ancestors a).map ClassRecord.name

/-- The walk from parent to parent. It remembers all names that it has met, those documented elsewhere too, and has nothing
else to stop it. -/
inductive Walks (g : ClassGraph) : List String → ClassRecord → List ClassRecord → Prop where
  | rootless {met c} (none : c.parent? = none) : Walks g met c []
  | again {met c parent} (given : c.parent? = some parent) (known : parent ∈ met) : Walks g met c []
  | elsewhere {met c parent} (given : c.parent? = some parent) (fresh : parent ∉ met) (undocumented : g.get? parent = none) :
      Walks g met c []
  | above {met c p parent line} (given : c.parent? = some parent) (fresh : parent ∉ met)
      (documented : g.get? parent = some p) (rest : Walks g (parent :: met) p line) : Walks g met c (p :: line)

/-- The walk starts at a class, if there is one of that name, and has met it. -/
inductive Ascends (g : ClassGraph) (name : String) : List ClassRecord → Prop where
  | elsewhere (undocumented : g.get? name = none) : Ascends g name []
  | here {c line} (documented : g.get? name = some c) (walk : Walks g [name] c line) : Ascends g name line

/-- The graph after classes have been given other parents, in place and one after another. -/
def reparented (g : ClassGraph) (edits : List (String × Option String)) : ClassGraph :=
  edits.foldl (fun g edit => g.setParent edit.1 edit.2) g

section Named

theorem namedOfClasses (classes : List ClassRecord) (externals : List String) :
    (ofClasses classes externals).classes.All fun key c => c.name = key := by
  have filled (m : OrderedMap ClassRecord) (h : m.All fun key c => c.name = key) :
      ((classes.map fun c => (c.name, c)).foldl (fun m pair => m.insert pair.1 pair.2) m).All fun key c => c.name = key := by
    induction classes generalizing m with
    | nil => exact h
    | cons c rest ih => exact ih _ (OrderedMap.allInsert h rfl)
  exact filled .empty OrderedMap.allEmpty

theorem namedReparented {g : ClassGraph} (named : g.classes.All fun key c => c.name = key)
    (edits : List (String × Option String)) : (g.reparented edits).classes.All fun key c => c.name = key := by
  induction edits generalizing g with
  | nil => exact named
  | cons edit rest ih => exact ih (OrderedMap.allModify named fun _ same => same)

end Named

section Walk
variable {g : ClassGraph} {met : List String} {name : String} {c : ClassRecord} {line : List ClassRecord}

theorem walksUnique (walk : g.Walks met c line) {other : List ClassRecord} (walk' : g.Walks met c other) : line = other := by
  induction walk generalizing other with
  | rootless none => cases walk' <;> simp_all
  | again given known => cases walk' <;> simp_all
  | elsewhere given fresh undocumented => cases walk' <;> simp_all
  | above given fresh documented rest ih =>
    cases walk' with
    | rootless none => simp_all
    | again given' known => simp_all
    | elsewhere given' fresh' undocumented => simp_all
    | above given' fresh' documented' rest' =>
      cases given.symm.trans given'
      cases documented.symm.trans documented'
      rw [ih rest']

/- The names still left are those of the classes that the walk has not met. -/
theorem walkEnds (g : ClassGraph) (met : List String) (c : ClassRecord) : g.Walks met c (g.ancestorsFrom (g.left met) c) := by
  generalize same : g.left met = names
  fun_induction ancestorsFrom g names c generalizing met with
  | case1 names c rootless => exact .rootless rootless
  | case2 names c parent given left undocumented =>
    rw [← same, memLeft] at left
    exact .elsewhere given left.2 undocumented
  | case3 names c parent given left p documented ih =>
    have entered : g.left (parent :: met) = names.erase parent := by rw [← same, leftEntered]
    rw [← same, memLeft] at left
    exact .above given left.2 documented (ih _ entered)
  | case4 names c parent given gone =>
    by_cases known : parent ∈ met
    · exact .again given known
    · refine .elsewhere given known (OrderedMap.getNone.mpr fun documented => gone ?_)
      rw [← same]
      exact memLeft.mpr ⟨documented, known⟩

theorem ancestorsLeft (documented : g.get? name = some c) : g.ancestors name = g.ancestorsFrom (g.left [name]) c := by
  rw [ancestors, documented, ← leftEntered, leftAll]

theorem ascendsIff : g.Ascends name line ↔ line = g.ancestors name := by
  constructor
  · intro ascent
    cases ascent with
    | elsewhere undocumented => rw [ancestors, undocumented]
    | here documented walk => rw [ancestorsLeft documented, walksUnique walk (walkEnds ..)]
  · rintro rfl
    cases documented : g.get? name with
    | none =>
      rw [ancestors, documented]
      exact .elsewhere documented
    | some c =>
      rw [ancestorsLeft documented]
      exact .here documented (walkEnds ..)

theorem extendsParent (known : g.get? name = some c) {n : String} : g.Extends name n ↔ c.parent? = some n ∧ n ∈ g.names := by
  constructor
  · rintro ⟨c', known', given, documented⟩
    cases known.symm.trans known'
    exact ⟨given, documented⟩
  · exact fun ⟨given, documented⟩ => ⟨c, known, given, documented⟩

theorem walkNew (named : g.classes.All fun key c => c.name = key) (walk : g.Walks met c line) :
    New met (line.map ClassRecord.name) := by
  induction walk with
  | rootless => exact newNone _
  | again => exact newNone _
  | elsewhere => exact newNone _
  | above given fresh documented rest ih =>
    cases named _ _ documented
    exact newFirst fresh ih

theorem walkSteps (named : g.classes.All fun key c => c.name = key) (walk : g.Walks met c line) (known : g.get? c.name = some c) :
    (c.name :: line.map ClassRecord.name).IsChain g.Extends := by
  induction walk with
  | rootless => exact .singleton _
  | again => exact .singleton _
  | elsewhere => exact .singleton _
  | above given fresh documented rest ih =>
    cases named _ _ documented
    exact .cons_cons ⟨_, known, given, OrderedMap.memKeysOfGet documented⟩ (ih documented)

theorem walkRecords (walk : g.Walks met c line) : ∀ a ∈ line, a ∈ g.records := by
  induction walk with
  | rootless => simp
  | again => simp
  | elsewhere => simp
  | above given fresh documented rest ih =>
    intro a ha
    rcases List.mem_cons.mp ha with rfl | later
    · exact memRecords.mpr ⟨_, documented⟩
    · exact ih a later

/- At every class the next step of a way up is the step of the walk, so the walk can only go further. -/
theorem walkLongest (named : g.classes.All fun key c => c.name = key) (walk : g.Walks met c line) (known : g.get? c.name = some c)
    {names : List String} (steps : (c.name :: names).IsChain g.Extends) (unmet : New met names) :
    names <+: line.map ClassRecord.name := by
  induction names generalizing met c line with
  | nil => exact List.nil_prefix
  | cons n later ih =>
    obtain ⟨step, steps⟩ := List.isChain_cons_cons.mp steps
    obtain ⟨given, documented⟩ := (extendsParent known).mp step
    obtain ⟨distinct, unmet⟩ := unmet
    have fresh := unmet n List.mem_cons_self
    cases walk with
    | rootless none => simp_all
    | again given' again => simp_all
    | elsewhere given' fresh' undocumented =>
      cases given.symm.trans given'
      exact absurd documented (OrderedMap.getNone.mp undocumented)
    | @above _ _ p _ line given' fresh' above rest =>
      cases given.symm.trans given'
      cases named n p above
      obtain ⟨apart, distinct⟩ := List.nodup_cons.mp distinct
      refine List.cons_prefix_cons.mpr ⟨rfl, ih rest above steps ⟨distinct, fun m hm => ?_⟩⟩
      rw [List.mem_cons, not_or]
      exact ⟨fun same => apart (same ▸ hm), unmet m (List.mem_cons_of_mem _ hm)⟩

end Walk

section Lineage
variable {g : ClassGraph} {c : ClassRecord} {line : List ClassRecord} (h : g.Lineage c line)
include h

theorem lineageReaches (known : g.get? c.name = some c) {b : String} (reached : Relation.TransGen g.Extends c.name b) : b ∈ line.map ClassRecord.name := by
  induction h with
  | top last =>
    obtain ⟨n, step, -⟩ := Relation.TransGen.head'_iff.mp reached
    obtain ⟨given, documented⟩ := (extendsParent known).mp step
    exact absurd documented (OrderedMap.getNone.mp (last n given))
  | above given above rest ih =>
    obtain ⟨n, step, further⟩ := Relation.TransGen.head'_iff.mp reached
    cases given.symm.trans ((extendsParent known).mp step).1
    rcases Relation.reflTransGen_iff_eq_or_transGen.mp further with rfl | further
    · exact List.mem_cons_self
    · exact List.mem_cons_of_mem _ (ih above further)

theorem lineageTop {parent : String} (given : ((c :: line).getLast (List.cons_ne_nil c line)).parent? = some parent) : g.get? parent = none := by
  induction h with
  | top last => exact last parent given
  | above _ _ rest ih => exact ih (by simpa using given)

end Lineage

section Order
variable {g : ClassGraph} (named : g.classes.All fun key c => c.name = key)
include named

theorem wayUpAncestors (name : String) : g.WayUp name ((g.ancestors name).map ClassRecord.name) := by
  cases documented : g.get? name with
  | none =>
    rw [ancestors, documented]
    exact ⟨.singleton name, by simp⟩
  | some c =>
    cases named name c documented
    have walk := walkEnds g [c.name] c
    obtain ⟨distinct, unmet⟩ := walkNew named walk
    rw [ancestorsLeft documented]
    exact ⟨walkSteps named walk documented, List.nodup_cons.mpr ⟨fun again => unmet _ again List.mem_cons_self, distinct⟩⟩

omit named in
theorem ancestorsRecords (name : String) : ∀ a ∈ g.ancestors name, a ∈ g.records := by
  cases documented : g.get? name with
  | none => simp [ancestors, documented]
  | some c =>
    rw [ancestorsLeft documented]
    exact walkRecords (walkEnds ..)

theorem ancestorsLongest {name : String} {line : List String} (way : g.WayUp name line) :
    line <+: (g.ancestors name).map ClassRecord.name := by
  obtain ⟨steps, apart⟩ := way
  obtain ⟨apart, distinct⟩ := List.nodup_cons.mp apart
  cases documented : g.get? name with
  | none =>
    cases line with
    | nil => exact List.nil_prefix
    | cons n later =>
      obtain ⟨c, known, -⟩ := (List.isChain_cons_cons.mp steps).1
      rw [documented] at known
      contradiction
  | some c =>
    cases named name c documented
    rw [ancestorsLeft documented]
    refine walkLongest named (walkEnds ..) documented steps ⟨distinct, fun n hn met => apart ?_⟩
    rwa [← List.mem_singleton.mp met]

theorem firstAncestor {c p : ClassRecord} (hc : c ∈ g.records) (hp : p ∈ g.records) (different : c ≠ p) :
    (g.ancestors c.name).head? = some p ↔ c ∈ g.subclasses p.name := by
  have known := getRecord named hc
  have above := getRecord named hp
  have apart : p.name ≠ c.name := fun same => different (by
    rw [same] at above
    exact Option.some.inj (known.symm.trans above))
  have child : c ∈ g.subclasses p.name ↔ c.parent? = some p.name := by simp [subclasses, hc]
  rw [child]
  constructor
  · intro first
    have walk := walkEnds g [c.name] c
    obtain ⟨line, ancestors⟩ := List.head?_eq_some_iff.mp first
    rw [← ancestorsLeft known, ancestors] at walk
    cases walk with
    | above given fresh documented rest =>
      cases named _ _ documented
      exact given
  · intro given
    have left : p.name ∈ g.left [c.name] := memLeftFresh above (by simpa using apart)
    rw [ancestorsLeft known, ancestorsFrom, given]
    simp [left, above]

theorem aboveReached {a b : String} (above : g.Above a b) : Relation.TransGen g.Extends a b := by
  have steps : (a :: (g.ancestors a).map ClassRecord.name).IsChain (Relation.TransGen g.Extends) :=
    (wayUpAncestors named a).steps.imp fun _ _ => .single
  exact steps.rel_cons above

variable {followMixins : Bool} (accepted : (g.checkCycles followMixins).value = .ok ())
include accepted

theorem acceptedLineage {c : ClassRecord} (hc : c ∈ g.records) : g.Lineage c (g.ancestors c.name) := by
  have acyclic : ¬g.Cyclic followMixins := by
    intro cyclic
    obtain ⟨_, _, _, -, failed⟩ := (checkCyclesVerdict g followMixins).2 cyclic
    rw [failed] at accepted
    contradiction
  exact lineageAncestors acyclic named (getRecord named hc)

theorem aboveIff {a b : String} : g.Above a b ↔ Relation.TransGen g.Extends a b := by
  refine ⟨aboveReached named, fun reached => ?_⟩
  obtain ⟨n, ⟨c, known, -⟩, -⟩ := Relation.TransGen.head'_iff.mp reached
  cases named a c known
  exact lineageReaches (acceptedLineage named accepted (memRecords.mpr ⟨_, known⟩)) known reached

end Order

/-- On every graph, whatever parents its classes have been given, the walk up from a class ends with its ancestors. These
are the longest way up, and the first of them is the class of which it is a subclass. Where the check for cycles
passes, to be an ancestor is a strict order, and above the last ancestor nothing is documented. -/
theorem parentOrder {g : ClassGraph} (named : g.classes.All fun key c => c.name = key) (edits : List (String × Option String)) :
    let g := g.reparented edits
    (∀ name line, g.Ascends name line ↔ line = g.ancestors name) ∧
    (∀ name, (∀ a ∈ g.ancestors name, a ∈ g.records) ∧ g.WayUp name ((g.ancestors name).map ClassRecord.name) ∧
      ∀ line, g.WayUp name line → line <+: (g.ancestors name).map ClassRecord.name) ∧
    (∀ c ∈ g.records, ∀ p ∈ g.records, c ≠ p → ((g.ancestors c.name).head? = some p ↔ c ∈ g.subclasses p.name)) ∧
    ∀ followMixins, (g.checkCycles followMixins).value = .ok () →
      (∀ a, ¬g.Above a a) ∧ (∀ a b c, g.Above a b → g.Above b c → g.Above a c) ∧
      ∀ c ∈ g.records, ∀ parent, ((c :: g.ancestors c.name).getLast (List.cons_ne_nil _ _)).parent? = some parent →
        g.get? parent = none := by
  intro g
  have named := namedReparented named edits
  refine ⟨fun name line => ascendsIff, fun name => ⟨ancestorsRecords name, wayUpAncestors named name, fun line =>
    ancestorsLongest named⟩, fun c hc p hp => firstAncestor named hc hp, fun followMixins accepted => ⟨fun a above => ?_,
      fun a b c ab bc => ?_, fun c hc parent => lineageTop (acceptedLineage named accepted hc)⟩⟩
  · exact (List.nodup_cons.mp (wayUpAncestors named a).distinct).1 above
  · rw [aboveIff named accepted] at ab bc ⊢
    exact ab.trans bc

/- What the component extends is documented elsewhere; an edit can send it back to the panel that extends it. -/
def dialogs : List ClassRecord := [
  { name := "Component", info := { classInfo := { parent := some "Ext.Base" } } },
  { name := "Panel", info := { classInfo := { parent := some "Component" } } },
  { name := "Window", info := { classInfo := { parent := some "Panel" } } },
  { name := "Dialog", info := { classInfo := { parent := some "Window" } } }]

def dialogChain : ClassGraph := .ofClasses dialogs []

def backToPanel : List (String × Option String) := [("Component", some "Panel")]

theorem dialogOrder : (dialogChain.classes.All fun key c => c.name = key) ∧
    ((dialogChain.reparented backToPanel).ancestors "Dialog").map ClassRecord.name = ["Window", "Panel", "Component"] ∧
    ((dialogChain.reparented backToPanel).checkCycles false).value ≠ .ok () ∧
    ((dialogChain.reparented []).checkCycles false).value = .ok () ∧ dialogChain.Above "Dialog" "Component" ∧
    ¬dialogChain.Above "Component" "Dialog" := by
  have named : dialogChain.classes.All fun key c => c.name = key := namedOfClasses dialogs []
  let looped := dialogChain.reparented backToPanel
  have refused : looped.firstCycle? false [] looped.names = some ("Component", ["Component", "Panel", "Component"]) := by cbv
  have run : ∃ line, looped.Ascends "Dialog" line ∧ line.map ClassRecord.name = ["Window", "Panel", "Component"] :=
    ⟨_, .here rfl (.above rfl (by simp) rfl (.above rfl (by simp) rfl (.above rfl (by simp) rfl (.again rfl (by simp))))), rfl⟩
  obtain ⟨line, ascent, names⟩ := run
  obtain ⟨walks, -, -, -⟩ := parentOrder named backToPanel
  cases (walks "Dialog" line).mp ascent
  have accepted : (dialogChain.checkCycles false).value = .ok () := by cbv
  have above : dialogChain.Above "Dialog" "Component" := by
    have line : (dialogChain.ancestors "Dialog").map ClassRecord.name = ["Window", "Panel", "Component"] := by cbv
    rw [Above, line]
    simp
  obtain ⟨irreflexive, transitive, -⟩ := (parentOrder named []).2.2.2 false accepted
  refine ⟨named, names, by simp [checkCycles, looped, refused], accepted, above, fun below => ?_⟩
  exact irreflexive "Dialog" (transitive _ _ _ above below)

end ClassGraph
end ClassDocs
