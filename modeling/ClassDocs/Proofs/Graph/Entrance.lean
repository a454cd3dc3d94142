import Mathlib.Data.List.Permutation
import ClassDocs.Proofs.Graph.Cycles

/-! The class that a cycle is reported for. It is the first one with a cycle above it, which need not be a class on the
cycle: a walk that starts off the cycle has a way into it, and what is reported of that way is its end. -/
namespace ClassDocs
namespace ClassGraph

/-- The way on which a walk has met a cycle. It begins with `path`, and no class comes twice until the cycle closes. -/
def Meets (g : ClassGraph) (followMixins : Bool) (path chain : List String) : Prop :=
  ∃ stem, path <+: stem ++ chain ∧ (stem ++ chain).IsChain (g.Inherits followMixins) ∧ (stem ++ chain.dropLast).Nodup

section Walk
variable {g : ClassGraph} {followMixins : Bool} {unvisited path finished : List String} {name : String}

theorem meetsAgain (h : g.Underway followMixins unvisited path finished) (way : g.LeadsOn followMixins path [name])
    (again : name ∈ path) : g.Meets followMixins (path ++ [name]) (path.dropWhile (· != name) ++ [name]) := by
  have parts : path.takeWhile (· != name) ++ path.dropWhile (· != name) = path := List.takeWhile_append_dropWhile
  have whole : path.takeWhile (· != name) ++ (path.dropWhile (· != name) ++ [name]) = path ++ [name] := by
    rw [← List.append_assoc, parts]
  refine ⟨path.takeWhile (· != name), ?_, ?_, ?_⟩
  · exact whole ▸ List.prefix_rfl
  · rw [whole]
    exact way name (by simp) (h.documented name again)
  · rw [List.dropLast_concat, parts]
    exact h.distinct

theorem meetsEarlier {more chain : List String} (h : g.Meets followMixins (path ++ more) chain) :
    g.Meets followMixins path chain := by
  obtain ⟨stem, begins, steps, simple⟩ := h
  exact ⟨stem, (List.prefix_append path more).trans begins, steps, simple⟩

/- The induction follows the search. What is finished plays no part in it, so nothing is said of it. -/
theorem searchMeets (g : ClassGraph) (followMixins : Bool) :
    (∀ unvisited path finished name, g.Underway followMixins unvisited path [] → g.LeadsOn followMixins path [name] →
      ∀ chain, (g.findCycle followMixins unvisited path finished name).1 = some chain →
        g.Meets followMixins (path ++ [name]) chain) ∧
    ∀ unvisited path finished names, g.Underway followMixins unvisited path [] → g.LeadsOn followMixins path names →
      ∀ chain, (g.findCycleAmong followMixins unvisited path finished names).1 = some chain →
        g.Meets followMixins path chain := by
  apply findCycle.mutual_induct g followMixins
  case case1 =>
    intro unvisited path finished name again h way chain found
    rw [findCycleAgain again] at found
    cases found
    exact meetsAgain h way again
  case case2 =>
    intro unvisited path finished name fresh done h way chain found
    rw [findCycleDone fresh done] at found
    contradiction
  case case3 =>
    intro unvisited path finished name fresh new unknown h way chain found
    rw [findCycleUnknown fresh unknown] at found
    contradiction
  case case4 =>
    intro unvisited path finished name fresh new c known isLeft chain done search ih h way other found
    rw [findCycleAbove fresh new known isLeft search] at found
    cases found
    exact ih (underwayStep h fresh isLeft) (leadsOnStep way known) chain (by rw [search])
  case case5 =>
    intro unvisited path finished name fresh new c known isLeft done search ih h way chain found
    rw [findCycleClear fresh new known isLeft search] at found
    contradiction
  case case6 =>
    intro unvisited path finished name fresh new c known gone h way
    exact absurd ((h.leftIff name).mpr ⟨OrderedMap.memKeysOfGet known, fresh⟩) gone
  case case7 =>
    intro unvisited path finished h way chain found
    rw [findCycleAmong] at found
    contradiction
  case case8 =>
    intro unvisited path finished name rest chain done search ih h way other found
    rw [findCycleFirst search] at found
    cases found
    have first : g.LeadsOn followMixins path [name] := fun n hn => way n (by simp_all)
    -- the way to a base begins with the way to the class
    exact meetsEarlier (ih h first chain (by rw [search]))
  case case9 =>
    intro unvisited path finished name rest done search ih later h way chain found
    rw [findCycleLater search] at found
    exact later h (fun n hn => way n (List.mem_cons_of_mem _ hn)) chain found

end Walk

/-- What is reported as a cycle. The class that is named is the first one with a cycle above it, and the walk that starts
at it ends in the cycle; the cycle is told from that class on exactly if it runs through the class. -/
structure Tells (g : ClassGraph) (followMixins : Bool) (className : String) (chain : List String) : Prop where
  cycle : g.IsCycle followMixins chain
  first : ∃ before after, g.names = before ++ className :: after ∧ ∀ n ∈ before, g.Clear followMixins n
  wayIn : ∃ stem, (stem ++ chain).head? = some className ∧ (stem ++ chain).IsChain (g.Inherits followMixins) ∧
    (stem ++ chain.dropLast).Nodup
  closes : (chain.head? = some className ∧ chain.getLast? = some className) ↔ className ∈ chain

section Report
variable {g : ClassGraph} {followMixins : Bool} {finished : List String} {className : String} {chain : List String}

theorem meetsFirst (h : g.Meets followMixins [className] chain) : ∃ stem, (stem ++ chain).head? = some className ∧
    (stem ++ chain).IsChain (g.Inherits followMixins) ∧ (stem ++ chain.dropLast).Nodup := by
  obtain ⟨stem, ⟨rest, whole⟩, steps, simple⟩ := h
  exact ⟨stem, by rw [← whole]; rfl, steps, simple⟩

/- A class that stands before the cycle does not come again on it. -/
theorem closesIff (cycle : g.IsCycle followMixins chain) {stem : List String}
    (start : (stem ++ chain).head? = some className) (simple : (stem ++ chain.dropLast).Nodup) :
    (chain.head? = some className ∧ chain.getLast? = some className) ↔ className ∈ chain := by
  obtain ⟨first, rest, rfl⟩ := cycle.closed
  refine ⟨fun closed => List.mem_of_getLast? closed.2, fun on => ?_⟩
  rw [List.dropLast_concat] at simple
  cases stem with
  | nil =>
    cases start
    exact ⟨rfl, List.getLast?_concat ..⟩
  | cons top stem =>
    cases start
    obtain ⟨absent, -⟩ := List.nodup_cons.mp simple
    have off : className ∉ first :: rest := fun on => absent (List.mem_append_right _ on)
    rcases List.mem_append.mp on with inside | last
    · exact absurd inside off
    · exact absurd (List.mem_singleton.mp last ▸ List.mem_cons_self) off

theorem firstCycleTold (names : List String) (done : ∀ n ∈ finished, g.Clear followMixins n)
    (found : g.firstCycle? followMixins finished names = some (className, chain)) :
    g.Meets followMixins [className] chain ∧
      ∃ before after, names = before ++ className :: after ∧ ∀ n ∈ before, g.Clear followMixins n := by
  induction names generalizing finished with
  | nil => contradiction
  | cons name rest ih =>
    have told := (searchTells g followMixins).1 g.names [] finished name (underwayStart done) fun n _ _ => .singleton n
    rw [firstCycle?] at found
    split at found
    · rename_i cycle after search
      cases found
      have meets := (searchMeets g followMixins).1 g.names [] finished className (underwayStart (by simp))
        (fun n _ _ => .singleton n) chain (by rw [search])
      exact ⟨meets, [], rest, rfl, by simp⟩
    · rename_i after search
      rw [search] at told
      obtain ⟨meets, before, later, rfl, clear⟩ := ih (told.finished rfl) found
      refine ⟨meets, name :: before, later, rfl, fun n hn => ?_⟩
      rcases List.mem_cons.mp hn with rfl | hn
      · exact told.clear rfl n (by simp)
      · exact clear n hn

theorem failedIff : (g.checkCycles followMixins).value = .error (.circularDependency className chain) ↔
    g.firstCycle? followMixins [] g.names = some (className, chain) := by
  unfold checkCycles
  cases found : g.firstCycle? followMixins [] g.names with
  | none => simp only [reduceCtorEq]
  | some report => simp only [Except.error.injEq, Failure.circularDependency.injEq, Option.some.injEq, Prod.ext_iff]

/-- A report of a cycle tells the truth about it, but names the class at which the walk into it has started. -/
theorem namedForCycle (failed : (g.checkCycles followMixins).value = .error (.circularDependency className chain)) :
    g.Tells followMixins className chain := by
  have found := failedIff.mp failed
  have cycle := (firstCycleTells g.names (by simp)).1 _ found
  obtain ⟨meets, first⟩ := firstCycleTold g.names (by simp) found
  obtain ⟨stem, start, steps, simple⟩ := meetsFirst meets
  exact ⟨cycle, first, ⟨stem, start, steps, simple⟩, closesIff cycle start simple⟩

end Report

/- The base is done with before the panel, whose mixin extends it, is looked at. -/
def mixedGraph : ClassGraph := .ofClasses [
  { name := "Base", info := { classInfo := { parent := some "Ext.Base" } } },
  { name := "Panel", info := { classInfo := { parent := some "Base", mixins := ["Floating"] } } },
  { name := "Floating", info := { classInfo := { parent := some "Panel" } } }] []

theorem panelOnCycle : (mixedGraph.checkCycles true).value = .error (.circularDependency "Panel" ["Panel", "Floating", "Panel"]) ∧
    mixedGraph.Clear true "Base" ∧ ["Panel", "Floating", "Panel"].head? = some "Panel" ∧
    ["Panel", "Floating", "Panel"].getLast? = some "Panel" := by
  have found : mixedGraph.firstCycle? true [] mixedGraph.names = some ("Panel", ["Panel", "Floating", "Panel"]) := by cbv
  have told := namedForCycle (failedIff.mpr found)
  have base : mixedGraph.Clear true "Base" := by
    obtain ⟨before, after, names, clear⟩ := told.first
    have order : mixedGraph.names = ["Base", "Panel", "Floating"] := by rfl
    rw [order] at names
    cases before with
    | nil => simp at names
    | cons name rest =>
      obtain ⟨rfl, -⟩ := List.cons.inj names
      exact clear "Base" List.mem_cons_self
  obtain ⟨head, last⟩ := told.closes.mpr List.mem_cons_self
  exact ⟨failedIff.mpr found, base, head, last⟩

def strayGraph : ClassGraph := .ofClasses [
  { name := "Window", info := { classInfo := { parent := some "Panel" } } },
  { name := "Panel", info := { classInfo := { parent := some "Component" } } },
  { name := "Component", info := { classInfo := { parent := some "Panel" } } }] []

/- The window is reported, but only the panel and the component extend each other. -/
theorem windowOffCycle : (strayGraph.checkCycles true).value =
      .error (.circularDependency "Window" ["Panel", "Component", "Panel"]) ∧
    ¬(["Panel", "Component", "Panel"].head? = some "Window" ∧ ["Panel", "Component", "Panel"].getLast? = some "Window") := by
  have found : strayGraph.firstCycle? true [] strayGraph.names = some ("Window", ["Panel", "Component", "Panel"]) := by cbv
  refine ⟨failedIff.mpr found, fun ends => ?_⟩
  have first := Option.some.inj ends.1
  exact absurd first (by decide)

end ClassGraph
end ClassDocs
