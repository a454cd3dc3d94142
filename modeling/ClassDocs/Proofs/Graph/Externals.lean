import ClassDocs.Proofs.Graph.Building
import ClassDocs.Proofs.Graph.Revision
import ClassDocs.Proofs.Registry.Related
import ClassDocs.Proofs.Run.Findings

/-! More names of classes documented elsewhere. Searches look at documented classes alone, so they come out as before;
look-up finds at least what it found, and then fewer types of members are unknown. -/
namespace ClassDocs

def Lint.unknownTypes (g : ClassGraph) (m : Declaration) : List String :=
  (m.types.flatMap TypeText.names).filter (!isKnownType g ·)

namespace ClassGraph

/-- What is found in a graph when it is built: its classes, their bases, and what is listed as documented elsewhere. -/
theorem resolvesOfClasses {classes : List ClassRecord} {externals : List String} {name : String} :
    ((ofClasses classes externals).lookup? name).isSome = true ↔ name ∈ (ofClasses classes externals).names ∨
      (∃ c ∈ (ofClasses classes externals).records, name ∈ c.bases) ∨ ∃ entry ∈ externals, matchesExternal entry name = true := by
  have patterns : ((ofClasses classes externals).patterns.any (matchesExternal · name)) = true ↔
      ∃ entry ∈ externals, (patternStem? entry).isSome = true ∧ matchesExternal entry name = true := by
    simp only [ofClasses, List.any_eq_true, List.mem_filter, and_assoc]
  have exact {entry : String} (whole : patternStem? entry = none) : matchesExternal entry name = true ↔ entry = name := by
    simp only [matchesExternal, whole, beq_iff_eq]
  unfold lookup?
  cases known : (ofClasses classes externals).get? name with
  | some c => exact iff_of_true rfl (Or.inl (OrderedMap.memKeysOfGet known))
  | none =>
    have unknown : name ∉ (ofClasses classes externals).names := OrderedMap.getNone.mp known
    simp only [Option.isSome_ite, Bool.or_eq_true, NameSet.containsIff, memStubsOfClasses, patterns]
    constructor
    · rintro (⟨-, ⟨listed, whole⟩ | base⟩ | ⟨entry, listed, -, covers⟩)
      · exact Or.inr (Or.inr ⟨name, listed, (exact whole).mpr rfl⟩)
      · exact Or.inr (Or.inl base)
      · exact Or.inr (Or.inr ⟨entry, listed, covers⟩)
    · rintro (documented | base | ⟨entry, listed, covers⟩)
      · exact absurd documented unknown
      · exact Or.inl ⟨unknown, Or.inr base⟩
      · cases whole : patternStem? entry with
        | some stem => exact Or.inr ⟨entry, listed, by rw [whole]; rfl, covers⟩
        | none =>
          cases (exact whole).mp covers
          exact Or.inl ⟨unknown, Or.inl ⟨listed, whole⟩⟩

/-- The same classes, and more names and patterns of classes documented elsewhere: just what the listed entries cover is
found in addition. -/
structure Widened (entries : List String) (g g' : ClassGraph) : Prop where
  classes : g'.classes = g.classes
  stubs : ∀ name ∈ g.stubs.names, name ∈ g'.stubs.names
  patterns : ∀ pattern ∈ g.patterns, pattern ∈ g'.patterns
  resolves : ∀ name, (g'.lookup? name).isSome = true ↔
    (g.lookup? name).isSome = true ∨ ∃ entry ∈ entries, matchesExternal entry name = true

theorem widenedOfClasses {entries externals externals' : List String} (classes : List ClassRecord)
    (listed : ∀ name, name ∈ externals' ↔ name ∈ externals ∨ name ∈ entries) :
    (ofClasses classes externals).Widened entries (ofClasses classes externals') := by
  have names : (ofClasses classes externals').names = (ofClasses classes externals).names := rfl
  have records : (ofClasses classes externals').records = (ofClasses classes externals).records := rfl
  refine ⟨rfl, fun name hn => ?_, fun pattern hp => ?_, fun name => ?_⟩
  · obtain ⟨fresh, given⟩ := memStubsOfClasses.mp hn
    rw [memStubsOfClasses, names, records]
    exact ⟨fresh, given.imp_left fun configured => ⟨(listed name).mpr (Or.inl configured.1), configured.2⟩⟩
  · obtain ⟨given, stem⟩ := List.mem_filter.mp hp
    exact List.mem_filter.mpr ⟨(listed pattern).mpr (Or.inl given), stem⟩
  · rw [resolvesOfClasses, resolvesOfClasses, names, records, or_assoc, or_assoc]
    refine or_congr_right (or_congr_right ?_)
    simp only [listed, or_and_right, exists_or]

section Widened
variable {entries : List String} {g g' : ClassGraph} (h : g.Widened entries g')
include h

theorem getWidened (name : String) : g'.get? name = g.get? name := by rw [get?, get?, h.classes]

theorem namesWidened : g'.names = g.names := congrArg OrderedMap.keys h.classes

theorem recordsWidened : g'.records = g.records := congrArg OrderedMap.values h.classes

theorem widenedMap (f : ClassRecord → ClassRecord) : (g.mapClasses f).Widened entries (g'.mapClasses f) where
  classes := by rw [mapClasses, mapClasses, h.classes]
  stubs := h.stubs
  patterns := h.patterns
  resolves := by
    have same (g : ClassGraph) (name : String) : ((g.mapClasses f).lookup? name).isSome = (g.lookup? name).isSome := by
      simp only [lookup?, get?, mapClasses, OrderedMap.getMap]
      cases g.classes.get? name <;> rfl
    intro name
    rw [same, same]
    exact h.resolves name

theorem revisesWidened : g.Revises (fun _ m => m) g' where
  names := namesWidened h
  classes := fun key c known => ⟨c, (getWidened h key).trans known, rfl, rfl, (List.map_id' c.members).symm⟩
  outline := fun _ _ => rfl
  wish := fun _ _ => rfl

theorem findWidened (fits : Declaration → Bool) (unvisited waiting : List String) :
    g'.findInHierarchy fits unvisited waiting = g.findInHierarchy fits unvisited waiting := by
  rw [findRevised (revisesWidened h) (fun _ _ => rfl)]
  exact Option.map_id_apply

theorem documentedFromWidened (kind : Kind) (name : String) (unsearched : List String) (className : String) :
    g'.findDocumentedFrom kind name unsearched className = g.findDocumentedFrom kind name unsearched className := by
  fun_induction findDocumentedFrom g kind name unsearched className with
  | case1 unsearched className unseen unknown =>
    rw [findDocumentedFrom, if_pos unseen, getWidened h, unknown]
  | case2 unsearched className unseen c known nothing =>
    rw [findDocumentedFrom, if_pos unseen, getWidened h, known]
    simp only [namesWidened h, findWidened h, nothing]
  | case3 unsearched className unseen c known found first documented =>
    rw [findDocumentedFrom, if_pos unseen, getWidened h, known]
    simp only [namesWidened h, findWidened h, first, documented, if_true]
  | case4 unsearched className unseen c known found first undocumented ih =>
    rw [findDocumentedFrom, if_pos unseen, getWidened h, known]
    simp only [namesWidened h, findWidened h, first, undocumented, if_false, ih, Bool.false_eq_true]
  | case5 unsearched className seen => rw [findDocumentedFrom, if_neg seen]

theorem cyclesWidened (followMixins : Bool) :
    (∀ unvisited path finished name, g'.findCycle followMixins unvisited path finished name =
      g.findCycle followMixins unvisited path finished name) ∧
    ∀ unvisited path finished names, g'.findCycleAmong followMixins unvisited path finished names =
      g.findCycleAmong followMixins unvisited path finished names := by
  apply findCycle.mutual_induct g followMixins
  case case1 =>
    intro unvisited path finished name again
    rw [findCycle, findCycle, if_pos again, if_pos again]
  case case2 =>
    intro unvisited path finished name fresh done
    rw [findCycle, findCycle, if_neg fresh, if_neg fresh, if_pos done, if_pos done]
  case case3 =>
    intro unvisited path finished name fresh new unknown
    rw [findCycle, findCycle, getWidened h, unknown]
  case case4 =>
    intro unvisited path finished name fresh new c known isLeft chain done found ih
    rw [findCycle, findCycle, getWidened h, known]
    simp only [ih]
  case case5 =>
    intro unvisited path finished name fresh new c known isLeft done found ih
    rw [findCycle, findCycle, getWidened h, known]
    simp only [ih]
  case case6 =>
    intro unvisited path finished name fresh new c known gone
    rw [findCycle, findCycle, getWidened h, known]
    simp only [gone, if_false]
  case case7 =>
    intro unvisited path finished
    rw [findCycleAmong, findCycleAmong]
  case case8 =>
    intro unvisited path finished name rest chain done found ih
    rw [findCycleAmong, findCycleAmong, ih, found]
  case case9 =>
    intro unvisited path finished name rest done found ih later
    rw [findCycleAmong, findCycleAmong, ih, found]
    exact later

theorem checkCyclesWidened (followMixins : Bool) : g'.checkCycles followMixins = g.checkCycles followMixins := by
  have first (finished names : List String) : g'.firstCycle? followMixins finished names =
      g.firstCycle? followMixins finished names := by
    induction names generalizing finished with
    | nil => rfl
    | cons name rest ih => simp only [firstCycle?, namesWidened h, (cyclesWidened h followMixins).1, ih]
  simp only [checkCycles, first, namesWidened h, getWidened h]

theorem sourceWidened (c : ClassRecord) (m : Declaration) : g'.source? c m = g.source? c m := by
  simp only [source?, resolve, findDocumented, namesWidened h, findWidened h, documentedFromWidened h]

theorem inheritWidened : Reported.Related (Widened entries) g.inheritDocs g'.inheritDocs := by
  have members : g'.inheritMember = g.inheritMember := by
    funext c m
    rw [inheritMember, inheritMember, sourceWidened h]
  have findings : g'.inheritFindings = g.inheritFindings := by
    funext c m
    rw [inheritFindings, inheritFindings, sourceWidened h]
  constructor
  · rw [inheritDocs, inheritDocs, members]
    exact widenedMap h _
  · rw [inheritDocs, inheritDocs, recordsWidened h, findings]

theorem historyWidened (releases : List Release) : (g.withHistory releases).Widened entries (g'.withHistory releases) := by
  unfold withHistory
  split
  · exact h
  · exact widenedMap h _

theorem returnsWidened : g.withReturns.Widened entries g'.withReturns := widenedMap h _

end Widened

/-- The types that members name and that are not known, in the order of the members. -/
def unknownTypes (g : ClassGraph) : List String := g.records.flatMap fun c => c.members.flatMap (Lint.unknownTypes g)

/-- The name is found in the second graph only. -/
def NewlyResolved (g g' : ClassGraph) (name : String) : Prop := (g.lookup? name).isSome = false ∧ (g'.lookup? name).isSome = true

end ClassGraph

/-- The second list of findings is the first one without its warnings of types that are resolved. `types` are the types
that the first list warns of, one for each such warning. -/
inductive Silenced (resolved : String → Prop) : List String → List Diagnostic → List Diagnostic → Prop where
  | nil : Silenced resolved [] [] []
  | other {d types ds ds'} (another : d.category ≠ .typeName) (rest : Silenced resolved types ds ds') :
      Silenced resolved types (d :: ds) (d :: ds')
  | kept {type fullName location types ds ds'} (unknown : ¬resolved type) (rest : Silenced resolved types ds ds') :
      Silenced resolved (type :: types) (.warning .typeName ("Unknown type " ++ type ++ " in " ++ fullName) location :: ds)
        (.warning .typeName ("Unknown type " ++ type ++ " in " ++ fullName) location :: ds')
  | dropped {type fullName location types ds ds'} (known : resolved type) (rest : Silenced resolved types ds ds') :
      Silenced resolved (type :: types) (.warning .typeName ("Unknown type " ++ type ++ " in " ++ fullName) location :: ds) ds'

section Silenced
variable {resolved : String → Prop} {types more : List String} {ds ds' es es' : List Diagnostic}

theorem silencedAppend (first : Silenced resolved types ds ds') (second : Silenced resolved more es es') :
    Silenced resolved (types ++ more) (ds ++ es) (ds' ++ es') := by
  induction first with
  | nil => exact second
  | other another _ ih => exact .other another ih
  | kept unknown _ ih => exact .kept unknown ih
  | dropped known _ ih => exact .dropped known ih

theorem silencedOthers {cs : List Category} (warns : Warns cs ds) (others : .typeName ∉ cs) : Silenced resolved [] ds ds := by
  induction ds with
  | nil => exact .nil
  | cons d rest ih =>
    obtain ⟨here, later⟩ := List.forall_mem_cons.mp warns
    exact .other (fun same => others (same ▸ here.2)) (ih later)

theorem silencedBehind {cs : List Category} (warns : Warns cs ds) (others : .typeName ∉ cs) (rest : Silenced resolved types es es') :
    Silenced resolved types (ds ++ es) (ds ++ es') :=
  silencedAppend (silencedOthers warns others) rest

theorem silencedFlatMap {α : Type} {f : α → List String} {g g' : α → List Diagnostic} (items : List α)
    (each : ∀ a ∈ items, Silenced resolved (f a) (g a) (g' a)) :
    Silenced resolved (items.flatMap f) (items.flatMap g) (items.flatMap g') := by
  induction items with
  | nil => exact .nil
  | cons a rest ih =>
    obtain ⟨here, later⟩ := List.forall_mem_cons.mp each
    rw [List.flatMap_cons, List.flatMap_cons, List.flatMap_cons]
    exact silencedAppend here (ih later)

end Silenced

namespace Lint
variable {entries : List String} {g g' : ClassGraph} (h : g.Widened entries g')
include h

theorem silencedTypes (m : Declaration) (fullName : String) :
    Silenced (g.NewlyResolved g') (unknownTypes g m) (typeFindings g m fullName) (typeFindings g' m fullName) := by
  unfold unknownTypes typeFindings
  induction m.types.flatMap TypeText.names with
  | nil => exact .nil
  | cons type rest ih =>
    have wider := (h.resolves type).mpr
    rw [List.filter_cons, List.filter_cons]
    unfold isKnownType
    cases builtinTypes.contains type with
    | true => exact ih
    | false =>
      cases before : (g.lookup? type).isSome <;> cases after : (g'.lookup? type).isSome
      · exact .kept (fun newly => absurd (newly.2.symm.trans after) nofun) ih
      · exact .dropped ⟨before, after⟩ ih
      · rw [wider (Or.inl before)] at after
        contradiction
      · exact ih

theorem silencedMember (c : ClassRecord) (m : Declaration) :
    Silenced (g.NewlyResolved g') (unknownTypes g m) (memberFindings g c m) (memberFindings g' c m) := by
  have docs : Warns [.noDoc] (if m.wantsDoc && !m.hasDoc then
      [.warning .noDoc ("No documentation for " ++ (c.name ++ "#" ++ m.name)) m.location?] else []) :=
    warnsIf (warnsOne (by decide)) warnsNil
  have params : Warns [.dupParam, .noDocParam, .reqAfterOpt] (if m.kind = .method ∨ m.kind = .event then
      paramsFindings m (c.name ++ "#" ++ m.name) [] none m.info.params else []) := warnsIf (warnsParams _ _ _ _ _) warnsNil
  exact silencedAppend (silencedAppend (silencedOthers docs (by decide)) (silencedOthers params (by decide)))
    (silencedTypes h m _)

theorem silencedMembers (c : ClassRecord) (seen : List (Kind × String)) (ms : List Declaration) :
    Silenced (g.NewlyResolved g') (ms.flatMap (unknownTypes g)) (membersFindings g c seen ms)
      (membersFindings g' c seen ms) := by
  induction ms generalizing seen with
  | nil => exact .nil
  | cons m rest ih =>
    have repeated : Warns [.dupMember] (if (m.kind, m.name) ∈ seen then
        [.warning .dupMember ("Duplicate " ++ m.kind.name ++ " name " ++ c.name ++ "#" ++ m.name) m.location?] else []) :=
      warnsIf (warnsOne (by decide)) warnsNil
    rw [List.flatMap_cons]
    exact silencedAppend (silencedAppend (silencedOthers repeated (by decide)) (silencedMember h c m)) (ih _)

end Lint

theorem ClassGraph.silencedLint {entries : List String} {g g' : ClassGraph} (h : g.Widened entries g') :
    Silenced (g.NewlyResolved g') g.unknownTypes g.lint g'.lint := by
  rw [lint, lint, recordsWidened h]
  refine silencedFlatMap g.records fun c _ => ?_
  have docs : Warns [.noDoc] (if c.info.visibility ≠ .privateAccess ∧ !c.info.hasDoc then
      [.warning .noDoc ("No documentation for " ++ c.name) c.location?] else []) := warnsIf (warnsOne (by decide)) warnsNil
  exact silencedBehind docs (by decide) (Lint.silencedMembers h c [] c.members)

end ClassDocs
