import ClassDocs.OrderedMap
import ClassDocs.Declaration
import ClassDocs.NameSet

/-! Classes with their members, by name, in the order in which the names were first seen. -/
namespace ClassDocs

def Declaration.alterFirst (p : Declaration → Bool) (f : Declaration → Declaration) :
    List Declaration → List Declaration
  | [] => []
  | m :: rest => if p m then f m :: rest else m :: alterFirst p f rest

structure ClassEntry where
  record : Declaration
  members : List Declaration := []
  deriving Inhabited

namespace ClassEntry

def name (e : ClassEntry) : String := e.record.name

def findMember? (e : ClassEntry) (kind : Kind) (name : String) : Option Declaration :=
  e.members.find? (·.isFor kind name)

def hasMember (e : ClassEntry) (kind : Kind) (name : String) : Bool :=
  e.members.any (·.isFor kind name)

/-- A member belongs to the class it is put into, whatever it said before. -/
def push (e : ClassEntry) (member : Declaration) : ClassEntry :=
  { e with members := e.members ++ [{ member with owner := some e.record.name }] }

@[simp] theorem recordPush (e : ClassEntry) (member : Declaration) : (e.push member).record = e.record := rfl

end ClassEntry

/-- The name under which an entry stands is the name its class had when it was put in. -/
abbrev Registry := OrderedMap ClassEntry

namespace Registry

def ensure (r : Registry) (name : String) : Registry :=
  if fresh : name ∈ r.keys then r else r.append name ⟨.emptyClass name, []⟩ fresh

theorem memEnsure (r : Registry) (name n : String) :
    n ∈ (ensure r name).keys ↔ n ∈ r.keys ∨ n = name := by
  unfold ensure
  split
  · constructor
    · exact Or.inl
    · rintro (h | rfl) <;> assumption
  · simp [OrderedMap.append, OrderedMap.keys]

theorem keysEnsure (r : Registry) (name : String) :
    (ensure r name).keys = if name ∈ r.keys then r.keys else r.keys ++ [name] := by
  unfold ensure
  split
  · rfl
  · simp [OrderedMap.append, OrderedMap.keys]

theorem getEnsure (r : Registry) (name k : String) :
    (ensure r name).get? k =
      if k = name then some ((r.get? name).getD ⟨.emptyClass name, []⟩) else r.get? k := by
  unfold ensure
  split
  · rename_i known
    obtain ⟨e, h⟩ := OrderedMap.memKeys.mp known
    split
    · rename_i same
      simp [same, h]
    · rfl
  · rename_i fresh
    rw [OrderedMap.getAppend, OrderedMap.getNone.mpr fresh]
    rfl

theorem allEnsure {r : Registry} {name : String} {P : String → ClassEntry → Prop} (h : r.All P)
    (new : P name ⟨.emptyClass name, []⟩) : (ensure r name).All P := by
  intro k e found
  rw [getEnsure] at found
  split at found
  · rename_i same
    subst same
    cases Option.some.inj found
    cases known : r.get? k with
    | none => exact new
    | some old => exact h k old known
  · exact h k e found

def insertEntry (r : Registry) (e : ClassEntry) : Registry := r.insert e.record.name e

def pushMember (r : Registry) (className : String) (member : Declaration) : Registry :=
  r.modify className (·.push member)

end Registry

/-- Classes on their way into the graph, with the names that count as external by then. -/
structure Draft where
  registry : Registry
  externals : NameSet

end ClassDocs
