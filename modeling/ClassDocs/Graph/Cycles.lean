import ClassDocs.Graph
import ClassDocs.Failure

/-! Cycles of inheritance. The search goes depth first from every class and leaves out what is
known to reach no cycle. -/
namespace ClassDocs
namespace ClassGraph

def searched (followMixins : Bool) (c : ClassRecord) : List String :=
  c.parent?.toList ++ if followMixins then c.mixins else []

mutual
/-- Searches on from `name`. `path` holds the classes on the way here, first one first, `unvisited`
those that are not on it, `finished` those that reach no cycle; it grows on the way. -/
def findCycle (g : ClassGraph) (followMixins : Bool) (unvisited path finished : List String)
    (name : String) : Option (List String) × List String :=
  if name ∈ path then (some (path.dropWhile (· != name) ++ [name]), finished)
  else if name ∈ finished then (none, finished)
  else
    match g.get? name with
    | none => (none, finished)
    | some c =>
      if name ∈ unvisited then
        match findCycleAmong g followMixins (unvisited.erase name) (path ++ [name]) finished
            (searched followMixins c) with
        | (some chain, finished) => (some chain, finished)
        | (none, finished) => (none, name :: finished)
      else (none, finished)
termination_by (unvisited.length, 0)
decreasing_by exact Prod.Lex.left _ _ (Names.eraseShorter (by assumption))

def findCycleAmong (g : ClassGraph) (followMixins : Bool) (unvisited path finished : List String) :
    List String → Option (List String) × List String
  | [] => (none, finished)
  | name :: rest =>
    match findCycle g followMixins unvisited path finished name with
    | (some chain, finished) => (some chain, finished)
    | (none, finished) => findCycleAmong g followMixins unvisited path finished rest
termination_by names => (unvisited.length, names.length + 1)
end

section Steps
variable {g : ClassGraph} {followMixins : Bool} {unvisited path finished done chain : List String} {name : String} {c : ClassRecord}

theorem findCycleAgain (again : name ∈ path) : g.findCycle followMixins unvisited path finished name =
    (some (path.dropWhile (· != name) ++ [name]), finished) := by
  rw [findCycle, if_pos again]

theorem findCycleDone (fresh : name ∉ path) (finishes : name ∈ finished) :
    g.findCycle followMixins unvisited path finished name = (none, finished) := by
  rw [findCycle, if_neg fresh, if_pos finishes]

theorem findCycleUnknown (fresh : name ∉ path) (unknown : g.get? name = none) :
    g.findCycle followMixins unvisited path finished name = (none, finished) := by
  rw [findCycle, if_neg fresh, unknown]
  exact ite_self _

section Entered
variable (fresh : name ∉ path) (new : name ∉ finished) (known : g.get? name = some c) (isLeft : name ∈ unvisited)
include fresh new known isLeft

theorem findCycleAbove (above : g.findCycleAmong followMixins (unvisited.erase name) (path ++ [name]) finished
    (searched followMixins c) = (some chain, done)) :
    g.findCycle followMixins unvisited path finished name = (some chain, done) := by
  rw [findCycle, if_neg fresh, if_neg new, known]
  simp only [isLeft, if_true, above]

theorem findCycleClear (above : g.findCycleAmong followMixins (unvisited.erase name) (path ++ [name]) finished
    (searched followMixins c) = (none, done)) :
    g.findCycle followMixins unvisited path finished name = (none, name :: done) := by
  rw [findCycle, if_neg fresh, if_neg new, known]
  simp only [isLeft, if_true, above]

end Entered

theorem findCycleFirst {rest : List String} (here : g.findCycle followMixins unvisited path finished name = (some chain, done)) :
    g.findCycleAmong followMixins unvisited path finished (name :: rest) = (some chain, done) := by
  rw [findCycleAmong, here]

theorem findCycleLater {rest : List String} (here : g.findCycle followMixins unvisited path finished name = (none, done)) :
    g.findCycleAmong followMixins unvisited path finished (name :: rest) =
      g.findCycleAmong followMixins unvisited path done rest := by
  rw [findCycleAmong, here]

end Steps

def firstCycle? (g : ClassGraph) (followMixins : Bool) (finished : List String) :
    List String → Option (String × List String)
  | [] => none
  | name :: rest =>
    match g.findCycle followMixins g.names [] finished name with
    | (some chain, _) => some (name, chain)
    | (none, finished) => firstCycle? g followMixins finished rest

def checkCycles (g : ClassGraph) (followMixins : Bool) : Reported (Except Failure Unit) :=
  match g.firstCycle? followMixins [] g.names with
  | some (name, chain) =>
    let failure := Failure.circularDependency name chain
    ⟨.error failure, [.located .fatal .cycle failure.message ((g.get? name).bind ClassRecord.location?)]⟩
  | none => ⟨.ok (), []⟩

end ClassGraph
end ClassDocs
