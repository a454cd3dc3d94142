import Mathlib.Data.List.Chain
import Mathlib.Logic.Relation
import ClassDocs.Graph.Cycles

/-! Cycles of inheritance, said with paths through the graph. What the search leaves out reaches no
cycle, and what it reports is one. -/
namespace ClassDocs
namespace ClassGraph

/-- The documented class `b` is the parent or, if these count, a mixin of the class `a`. -/
def Inherits (g : ClassGraph) (followMixins : Bool) (a b : String) : Prop :=
  ∃ c, g.get? a = some c ∧ b ∈ searched followMixins c ∧ b ∈ g.names

def Cyclic (g : ClassGraph) (followMixins : Bool) : Prop :=
  ∃ name, Relation.TransGen (g.Inherits followMixins) name name

/-- A chain from a class back to itself, on which no other class comes twice. -/
structure IsCycle (g : ClassGraph) (followMixins : Bool) (chain : List String) : Prop where
  closed : ∃ first rest, chain = first :: rest ++ [first]
  steps : chain.IsChain (g.Inherits followMixins)
  simple : chain.dropLast.Nodup

/-- No cycle is on the class or above it. -/
def Clear (g : ClassGraph) (followMixins : Bool) (name : String) : Prop :=
  ∀ n, Relation.ReflTransGen (g.Inherits followMixins) name n → ¬Relation.TransGen (g.Inherits followMixins) n n

section Cycles
variable {g : ClassGraph} {followMixins : Bool} {unvisited path finished : List String} {name : String}

/- A cycle through the class itself is above every class on it, so it is enough to look at what
the class inherits from. -/
theorem clearAbove (above : ∀ n, g.Inherits followMixins name n → g.Clear followMixins n) : g.Clear followMixins name := by
  intro n reached cycle
  rcases Relation.ReflTransGen.cases_head reached with rfl | ⟨next, inherits, rest⟩
  · obtain ⟨next, inherits, back⟩ := Relation.TransGen.head'_iff.mp cycle
    exact above next inherits name back cycle
  · exact above next inherits n rest cycle

theorem clearUndocumented (unknown : g.get? name = none) : g.Clear followMixins name := by
  refine clearAbove fun n inherits => ?_
  obtain ⟨c, known, -⟩ := inherits
  rw [unknown] at known
  contradiction

theorem cyclicOfCycle {chain : List String} (h : g.IsCycle followMixins chain) : g.Cyclic followMixins := by
  obtain ⟨first, rest, rfl⟩ := h.closed
  have steps : (first :: (rest ++ [first])).IsChain (Relation.TransGen (g.Inherits followMixins)) :=
    h.steps.imp fun _ _ => .single
  exact ⟨first, steps.rel_cons (by simp)⟩

/-- The state of a search: the classes on the way, those that are left and those that are done. -/
structure Underway (g : ClassGraph) (followMixins : Bool) (unvisited path finished : List String) : Prop where
  distinct : path.Nodup
  documented : ∀ n ∈ path, n ∈ g.names
  left : unvisited.Nodup
  leftIff : ∀ n, n ∈ unvisited ↔ n ∈ g.names ∧ n ∉ path
  finished : ∀ n ∈ finished, g.Clear followMixins n

/-- The way goes on to each of the names that is a documented class. -/
def LeadsOn (g : ClassGraph) (followMixins : Bool) (path names : List String) : Prop :=
  ∀ n ∈ names, n ∈ g.names → (path ++ [n]).IsChain (g.Inherits followMixins)

/-- What the search from some names tells, with the classes that are done after it. -/
structure Told (g : ClassGraph) (followMixins : Bool) (names : List String)
    (result : Option (List String) × List String) : Prop where
  cycle : ∀ chain, result.1 = some chain → g.IsCycle followMixins chain
  clear : result.1 = none → ∀ n ∈ names, g.Clear followMixins n
  finished : result.1 = none → ∀ n ∈ result.2, g.Clear followMixins n

theorem toldCycle {names chain done : List String} (cycle : g.IsCycle followMixins chain) :
    g.Told followMixins names (some chain, done) where
  cycle := fun _ found => Option.some.inj found ▸ cycle
  clear := nofun
  finished := nofun

theorem toldClear {names done : List String} (clear : ∀ n ∈ names, g.Clear followMixins n)
    (finished : ∀ n ∈ done, g.Clear followMixins n) : g.Told followMixins names (none, done) where
  cycle := nofun
  clear := fun _ => clear
  finished := fun _ => finished

theorem underwayStart (done : ∀ n ∈ finished, g.Clear followMixins n) : g.Underway followMixins g.names [] finished :=
  ⟨.nil, by simp, g.classes.distinct, by simp, done⟩

theorem underwayStep (h : g.Underway followMixins unvisited path finished) (fresh : name ∉ path) (known : name ∈ unvisited) :
    g.Underway followMixins (unvisited.erase name) (path ++ [name]) finished := by
  refine ⟨?_, ?_, h.left.erase name, fun n => ?_, h.finished⟩
  · exact List.nodup_append.mpr ⟨h.distinct, by simp, fun n hn other ho same =>
      fresh (List.mem_singleton.mp ho ▸ same ▸ hn)⟩
  · intro n hn
    rcases List.mem_append.mp hn with old | new
    · exact h.documented n old
    · cases List.mem_singleton.mp new
      exact ((h.leftIff name).mp known).1
  · rw [h.left.mem_erase_iff, h.leftIff]
    simp only [List.mem_append, List.mem_singleton, not_or]
    tauto

theorem leadsOnStep {c : ClassRecord} (way : g.LeadsOn followMixins path [name]) (known : g.get? name = some c) :
    g.LeadsOn followMixins (path ++ [name]) (searched followMixins c) := by
  intro n hn documented
  have here := way name (by simp) (OrderedMap.memKeysOfGet known)
  have step : g.Inherits followMixins name n := ⟨c, known, hn, documented⟩
  rw [List.append_assoc]
  exact List.isChain_split.mpr ⟨here, List.isChain_pair.mpr step⟩

theorem cycleOfPath (h : g.Underway followMixins unvisited path finished) (way : g.LeadsOn followMixins path [name])
    (again : name ∈ path) : g.IsCycle followMixins (path.dropWhile (· != name) ++ [name]) := by
  have steps := way name (by simp) (h.documented name again)
  have distinct := h.distinct
  obtain ⟨before, after, rfl, first⟩ := List.eq_append_cons_of_mem again
  have passed : ∀ n ∈ before, (n != name) = true := fun n hn =>
    bne_iff_ne.mpr fun same => first (same ▸ hn)
  have chain : (before ++ name :: after).dropWhile (· != name) = name :: after := by
    rw [List.dropWhile_append_of_pos passed]
    simp
  rw [chain]
  refine ⟨⟨name, after, rfl⟩, ?_, ?_⟩
  · rw [List.append_assoc] at steps
    exact steps.right_of_append
  · rw [List.dropLast_concat]
    exact (List.nodup_append.mp distinct).2.1

/- The induction follows the search. Its invariant is `Underway`: what is left are the documented
classes off the way, so a class that is neither on it nor left is documented elsewhere. -/
theorem searchTells (g : ClassGraph) (followMixins : Bool) :
    (∀ unvisited path finished name, g.Underway followMixins unvisited path finished →
      g.LeadsOn followMixins path [name] →
      g.Told followMixins [name] (g.findCycle followMixins unvisited path finished name)) ∧
    ∀ unvisited path finished names, g.Underway followMixins unvisited path finished →
      g.LeadsOn followMixins path names →
      g.Told followMixins names (g.findCycleAmong followMixins unvisited path finished names) := by
  apply findCycle.mutual_induct g followMixins
  case case1 =>
    intro unvisited path finished name again h way
    rw [findCycleAgain again]
    exact toldCycle (cycleOfPath h way again)
  case case2 =>
    intro unvisited path finished name fresh done h way
    rw [findCycleDone fresh done]
    exact toldClear (List.forall_mem_singleton.mpr (h.finished name done)) h.finished
  case case3 =>
    intro unvisited path finished name fresh new unknown h way
    rw [findCycleUnknown fresh unknown]
    exact toldClear (List.forall_mem_singleton.mpr (clearUndocumented unknown)) h.finished
  case case4 =>
    intro unvisited path finished name fresh new c known isLeft chain done found ih h way
    have told := ih (underwayStep h fresh isLeft) (leadsOnStep way known)
    rw [found] at told
    rw [findCycleAbove fresh new known isLeft found]
    exact toldCycle (told.cycle chain rfl)
  case case5 =>
    intro unvisited path finished name fresh new c known isLeft done found ih h way
    have told := ih (underwayStep h fresh isLeft) (leadsOnStep way known)
    rw [found] at told
    -- all that the class inherits from has been searched, and none of it reaches a cycle
    have clear : g.Clear followMixins name := by
      refine clearAbove fun n inherits => ?_
      obtain ⟨c', known', base, -⟩ := inherits
      cases known.symm.trans known'
      exact told.clear rfl n base
    rw [findCycleClear fresh new known isLeft found]
    exact toldClear (List.forall_mem_singleton.mpr clear) (List.forall_mem_cons.mpr ⟨clear, told.finished rfl⟩)
  case case6 =>
    intro unvisited path finished name fresh new c known gone h way
    -- a documented class that is not on the way is left
    exact absurd ((h.leftIff name).mpr ⟨OrderedMap.memKeysOfGet known, fresh⟩) gone
  case case7 =>
    intro unvisited path finished h way
    rw [findCycleAmong]
    exact toldClear (by simp) h.finished
  case case8 =>
    intro unvisited path finished name rest chain done found ih h way
    have told := ih h fun n hn => way n (by simp_all)
    rw [found] at told
    rw [findCycleFirst found]
    exact toldCycle (told.cycle chain rfl)
  case case9 =>
    intro unvisited path finished name rest done found ih later h way
    have told := ih h fun n hn => way n (by simp_all)
    rw [found] at told
    have restTold := later ⟨h.distinct, h.documented, h.left, h.leftIff, told.finished rfl⟩ fun n hn =>
      way n (List.mem_cons_of_mem _ hn)
    rw [findCycleLater found]
    exact ⟨restTold.cycle, fun none => List.forall_mem_cons.mpr ⟨told.clear rfl name (by simp), restTold.clear none⟩,
      restTold.finished⟩

theorem firstCycleTells (names : List String) (done : ∀ n ∈ finished, g.Clear followMixins n) :
    (∀ found, g.firstCycle? followMixins finished names = some found → g.IsCycle followMixins found.2) ∧
    (g.firstCycle? followMixins finished names = none → ∀ n ∈ names, g.Clear followMixins n) := by
  induction names generalizing finished with
  | nil => exact ⟨nofun, by simp⟩
  | cons name rest ih =>
    have told := (searchTells g followMixins).1 g.names [] finished name (underwayStart done) fun n _ _ => .singleton n
    rw [firstCycle?]
    split
    · rename_i chain after search
      rw [search] at told
      refine ⟨fun found some => ?_, nofun⟩
      cases some
      exact told.cycle chain rfl
    · rename_i after search
      rw [search] at told
      obtain ⟨cycle, clear⟩ := ih (told.finished rfl)
      refine ⟨cycle, fun none n hn => ?_⟩
      rcases List.mem_cons.mp hn with rfl | later
      · exact told.clear rfl n (by simp)
      · exact clear none n later

theorem namesOfInherits {a b : String} (h : g.Inherits followMixins a b) : a ∈ g.names := by
  obtain ⟨c, known, -⟩ := h
  exact OrderedMap.memKeysOfGet known

variable (g followMixins)

/-- The check finds a cycle exactly when there is one, and then reports it once, as fatal. -/
theorem checkCyclesVerdict :
    (¬g.Cyclic followMixins → g.checkCycles followMixins = ⟨.ok (), []⟩) ∧
    (g.Cyclic followMixins → ∃ className chain location, g.IsCycle followMixins chain ∧
      g.checkCycles followMixins = ⟨.error (.circularDependency className chain),
        [.located .fatal .cycle (Failure.circularDependency className chain).message location]⟩) := by
  obtain ⟨cycle, clear⟩ := @firstCycleTells g followMixins [] g.names (by simp)
  unfold checkCycles
  split
  · rename_i name chain found
    have isCycle := cycle _ found
    exact ⟨fun acyclic => absurd (cyclicOfCycle isCycle) acyclic, fun _ => ⟨name, chain, _, isCycle, rfl⟩⟩
  · rename_i none
    refine ⟨fun _ => rfl, fun ⟨name, loop⟩ => ?_⟩
    obtain ⟨next, inherits, -⟩ := Relation.TransGen.head'_iff.mp loop
    exact absurd loop (clear none name (namesOfInherits inherits) name .refl)

end Cycles

section Check
variable {g : ClassGraph} {followMixins : Bool}

theorem checkPassed (passed : (g.checkCycles followMixins).value = .ok ()) : g.checkCycles followMixins = ⟨.ok (), []⟩ := by
  unfold checkCycles at passed ⊢
  split at passed
  · contradiction
  · rfl

theorem checkFailed {failure : Failure} (failed : (g.checkCycles followMixins).value = .error failure) :
    ∃ location, g.checkCycles followMixins = ⟨.error failure, [.located .fatal .cycle failure.message location]⟩ := by
  unfold checkCycles at failed ⊢
  split at failed
  · cases failed
    exact ⟨_, rfl⟩
  · contradiction

end Check
end ClassGraph
end ClassDocs
