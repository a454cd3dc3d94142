import ClassDocs.Proofs.Graph.Documented
import ClassDocs.Proofs.Graph.Outline

/-! Searches among members that have changed. As long as classes keep their names and bases, and members
their kinds and names, a search ends at the member where it ended before. -/
namespace ClassDocs

def Found.revised (revise : String → Declaration → Declaration) (found : Found) : Found :=
  ⟨found.className, revise found.className found.member⟩

namespace ClassGraph

/-- The graph `g'` has the classes of `g`, with every member changed by what its class is called. -/
structure Revises (revise : String → Declaration → Declaration) (g g' : ClassGraph) : Prop where
  names : g'.names = g.names
  classes : ∀ key c, g.get? key = some c → ∃ c', g'.get? key = some c' ∧ c'.name = c.name ∧ c'.bases = c.bases ∧
    c'.members = c.members.map (revise c.name)
  outline : ∀ className m, (revise className m).outline = m.outline
  wish : ∀ className m, (revise className m).info.inheritDoc = m.info.inheritDoc

variable {revise : String → Declaration → Declaration} {g g' : ClassGraph} (revises : g.Revises revise g')
  {kind : Kind} {name : String}
include revises

theorem undocumentedRevised {key : String} (unknown : g.get? key = none) : g'.get? key = none := by
  have absent : key ∉ g'.classes.keys := by
    have names : g'.classes.keys = g.classes.keys := revises.names
    rw [names]
    exact OrderedMap.getNone.mp unknown
  exact OrderedMap.getNone.mpr absent

theorem findRevised {fits : Declaration → Bool} (keeps : ∀ className m, fits (revise className m) = fits m)
    (unvisited waiting : List String) : g'.findInHierarchy fits unvisited waiting =
      (g.findInHierarchy fits unvisited waiting).map (Found.revised revise) := by
  fun_induction findInHierarchy g fits unvisited waiting with
  | case1 => simp only [findInHierarchy, Option.map_none]
  | case2 unvisited name waiting unseen known ih =>
    rw [findInHierarchy, if_pos unseen, undocumentedRevised revises known]
    exact ih
  | case3 unvisited name waiting unseen c known m first =>
    obtain ⟨c', known', sameName, -, members⟩ := revises.classes name c known
    have same : fits ∘ revise c.name = fits := funext (keeps c.name)
    rw [findInHierarchy, if_pos unseen, known']
    simp only [members, List.find?_map, same, first, Option.map_some, sameName]
    rfl
  | case4 unvisited name waiting unseen c known nothing ih =>
    obtain ⟨c', known', -, bases, members⟩ := revises.classes name c known
    have same : fits ∘ revise c.name = fits := funext (keeps c.name)
    rw [findInHierarchy, if_pos unseen, known']
    simp only [members, List.find?_map, same, nothing, Option.map_none, bases]
    exact ih
  | case5 unvisited name waiting seen ih =>
    rw [findInHierarchy, if_neg seen]
    exact ih

theorem overriddenRevised (className : String) : g'.overridden? className kind name =
    (g.overridden? className kind name).map (Found.revised revise) := by
  have keeps (className : String) (m : Declaration) : (revise className m).isFor kind name = m.isFor kind name :=
    Declaration.isForOutline (revises.outline className m)
  rw [overridden?, overridden?, revises.names]
  cases known : g.get? className with
  | none =>
    rw [undocumentedRevised revises known]
    rfl
  | some c =>
    obtain ⟨c', known', -, bases, -⟩ := revises.classes className c known
    rw [known', Option.bind_some, Option.bind_some, bases]
    exact findRevised revises keeps (g.names.erase className) c.bases

/- The members above that were passed over in vain are passed over again, if the change leaves them without
documentation. -/
theorem nothingRevised {P : String → Declaration → Prop}
    (passes : ∀ c ∈ g.records, ∀ m ∈ c.members, P c.name m → g.findDocumented c.name m.kind m.name = none → ∀ passed,
      g.overridden? c.name m.kind m.name = some passed →
      (revise passed.className passed.member).hasDoc = false ∧ P passed.className passed.member)
    {steps : Nat} {className : String} {found : Found} (above : g'.DocumentedAbove kind name steps className found)
    (origin : ∃ c ∈ g.records, c.name = className ∧ ∃ m ∈ c.members, m.kind = kind ∧ m.name = name ∧ P className m)
    (nothing : g.findDocumented className kind name = none) : False := by
  induction above with
  | here overridden documented =>
    rw [overriddenRevised revises] at overridden
    obtain ⟨passed, before, rfl⟩ := Option.map_eq_some_iff.mp overridden
    obtain ⟨c, hc, rfl, m, hm, rfl, rfl, start⟩ := origin
    rw [Found.revised, (passes c hc m hm start nothing passed before).1] at documented
    contradiction
  | further overridden _ _ ih =>
    rw [overriddenRevised revises] at overridden
    obtain ⟨passed, before, rfl⟩ := Option.map_eq_some_iff.mp overridden
    obtain ⟨c, hc, rfl, m, hm, rfl, rfl, start⟩ := origin
    obtain ⟨c', hc', named, hm', fits⟩ := overriddenFound before
    obtain ⟨kind, name⟩ := Declaration.isForIff.mp fits
    have next := (passes c hc m hm start nothing passed before).2
    exact ih ⟨c', hc', named, passed.member, hm', kind, name, next⟩ (nothingFurther nothing before).2

end ClassGraph
end ClassDocs
