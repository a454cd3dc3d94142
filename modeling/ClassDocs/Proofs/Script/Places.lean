import ClassDocs.Script.Parse.Program
import ClassDocs.Script.Walk

/-! Where code begins in a tree: the offsets of its properties, and those of its calls, assignments, declarations and named
functions. -/
namespace ClassDocs.Script

namespace Tree
attribute [simp] parts
variable {β : Type} (own : Tree → List β)

/-- What every node of a tree has of its own, outer nodes first. -/
def gather (t : Tree) : List β := (t.subtrees fun _ => true).flatMap own

theorem subtreesNode (t : Tree) : t.subtrees (fun _ => true) = t :: t.parts.flatMap fun part => part.subtrees fun _ => true := by
  rw [subtrees]
  simp

theorem gatherNode (t : Tree) : gather own t = own t ++ t.parts.flatMap (gather own) := by
  rw [gather, subtreesNode, List.flatMap_cons, List.flatMap_assoc]
  rfl

/-- The offset of a property, and whether it has a name unless its key is computed. -/
@[simp] def keyPlace : Tree → List (Nat × Bool)
  | .property start key computed _ => [(start, computed || (keyName? computed key).isSome)]
  | _ => []

@[simp] def codePlace : Tree → List Nat
  | .call start .. => [start]
  | .assign start .. => [start]
  | .declare start _ => [start]
  | .function start (some _) .. => [start]
  | _ => []

/-- Nothing begins with the node itself. -/
@[simp] def silent (t : Tree) : Bool := (keyPlace t).isEmpty && (codePlace t).isEmpty

end Tree

/-- The places passed so far. -/
structure Places where
  keys : List (Nat × Bool)
  codes : List Nat

namespace Places

def add (k : Places) (ts : List Tree) : Places :=
  ⟨k.keys ++ ts.flatMap (Tree.gather Tree.keyPlace), k.codes ++ ts.flatMap (Tree.gather Tree.codePlace)⟩

/-- A property begins. -/
def key (k : Places) (place : Nat × Bool) : Places := { k with keys := k.keys ++ [place] }

/-- Code that is no property begins. -/
def code (k : Places) (offset : Nat) : Places := { k with codes := k.codes ++ [offset] }

section
variable (k : Places) (t u : Tree) (ts us : List Tree)

@[simp] theorem addNil : k.add [] = k := by simp [add]

@[simp] theorem addAppend : k.add (ts ++ us) = (k.add ts).add us := by simp [add]

@[simp] theorem addCons : k.add (t :: u :: us) = (k.add [t]).add (u :: us) := addAppend k [t] (u :: us)

theorem addNode : k.add [t] = add ⟨k.keys ++ t.keyPlace, k.codes ++ t.codePlace⟩ t.parts := by
  simp [add, Tree.gatherNode Tree.keyPlace t, Tree.gatherNode Tree.codePlace t]

@[simp] theorem addSilent (nothing : t.silent = true) : k.add [t] = k.add t.parts := by
  simp only [Tree.silent, Bool.and_eq_true, List.isEmpty_iff] at nothing
  rw [addNode, nothing.1, nothing.2, List.append_nil, List.append_nil]

@[simp] theorem addProperty (start : Nat) (computed : Bool) :
    k.add [.property start t computed u] = ((k.key (start, computed || (Tree.keyName? computed t).isSome)).add [t]).add [u] := by
  simp [addNode k (.property start t computed u), key]

@[simp] theorem addFunction (start : Nat) (name : String) : k.add [.function start (some name) ts us] = ((k.code start).add ts).add us := by
  simp [addNode k (.function start (some name) ts us), code]

@[simp] theorem addCall (start : Nat) : k.add [.call start t ts] = ((k.code start).add [t]).add ts := by
  rw [addNode]
  cases ts <;> simp [code]

@[simp] theorem addAssign (start : Nat) (operator : String) : k.add [.assign start operator t u] = ((k.code start).add [t]).add [u] := by
  simp [addNode k (.assign start operator t u), code]

@[simp] theorem addDeclare (start : Nat) : k.add [.declare start ts] = (k.code start).add ts := by
  simp [addNode k (.declare start ts), code]

end

/-- Properties begin at offsets of their own, and where they begin no other code does. -/
structure Laid (k : Places) (keyEnd codeEnd : Nat) : Prop where
  distinct : (k.keys.map Prod.fst).Nodup
  named : ∀ place ∈ k.keys, place.2 = true
  apart : ∀ place ∈ k.keys, place.1 ∉ k.codes
  keysPassed : ∀ place ∈ k.keys, place.1 < keyEnd
  codesPassed : ∀ offset ∈ k.codes, offset < codeEnd

/-- Some places are left out, and places of code may come again. -/
structure Under (k l : Places) : Prop where
  keys : k.keys.Sublist l.keys
  codes : k.codes ⊆ l.codes

@[simp] theorem Under.refl (k : Places) : k.Under k := ⟨.refl _, fun _ h => h⟩

theorem Under.add {k l : Places} (under : k.Under l) (ts : List Tree) : (k.add ts).Under (l.add ts) :=
  ⟨under.keys.append_right _, fun _ here => by
    simp only [Places.add, List.mem_append] at here ⊢
    exact here.imp_left fun h => under.codes h⟩

theorem addHead (k : Places) (t : Tree) (ts : List Tree) : k.add (t :: ts) = (k.add [t]).add ts := addAppend k [t] ts

/-- Trees that are passed over. -/
theorem Under.skip {k l : Places} (under : k.Under l) (ts : List Tree) : k.Under (l.add ts) :=
  ⟨under.keys.trans (List.sublist_append_left _ _), fun _ here => List.mem_append_left _ (under.codes here)⟩

theorem Under.code {k l : Places} (under : k.Under l) (n : Nat) : k.Under (l.code n) :=
  ⟨under.keys, fun _ here => List.mem_append_left _ (under.codes here)⟩

/-- Code may begin where other code does. -/
theorem Under.again (k : Places) (n : Nat) : ((k.code n).code n).Under (k.code n) :=
  ⟨.refl _, fun _ here => by simpa [Places.code] using here⟩

theorem Under.key {k l : Places} (under : k.Under l) (place : Nat × Bool) : k.Under (l.key place) :=
  ⟨under.keys.trans (List.sublist_append_left _ _), under.codes⟩

theorem Laid.under {k l : Places} {keyEnd codeEnd : Nat} (laid : l.Laid keyEnd codeEnd) (under : k.Under l) : k.Laid keyEnd codeEnd where
  distinct := laid.distinct.sublist (under.keys.map _)
  named place here := laid.named place (under.keys.subset here)
  apart place here code := laid.apart place (under.keys.subset here) (under.codes code)
  keysPassed place here := laid.keysPassed place (under.keys.subset here)
  codesPassed offset here := laid.codesPassed offset (under.codes here)

theorem Laid.later {k : Places} {keyEnd codeEnd keyEnd' codeEnd' : Nat} (laid : k.Laid keyEnd codeEnd) (keys : keyEnd ≤ keyEnd')
    (codes : codeEnd ≤ codeEnd') : k.Laid keyEnd' codeEnd' where
  distinct := laid.distinct
  named := laid.named
  apart := laid.apart
  keysPassed place here := Nat.lt_of_lt_of_le (laid.keysPassed place here) keys
  codesPassed offset here := Nat.lt_of_lt_of_le (laid.codesPassed offset here) codes

end Places

namespace Tree
open Places
variable {k l : Places}

theorem simpleTargetUnder {t t' : Tree} (h : t.simpleTarget? = some t') (under : k.Under l) : (k.add [t']).Under (l.add [t]) := by
  fun_induction simpleTarget? t with
  | case1 | case2 | case3 =>
    cases h
    exact under.add _
  | case4 parts =>
    cases h
    simpa using under.add parts
  | case5 inner ih => simpa using ih h
  | case6 => contradiction

mutual
theorem targetUnder (t : Tree) {t' : Tree} {shorts : List Nat} (h : t.target? = some (t', shorts)) {k l : Places} (under : k.Under l) :
    (k.add [t']).Under (l.add [t]) := by
  unfold target? at h
  split at h
  · rename_i elements
    simp only [Option.map_eq_some_iff, Prod.mk.injEq] at h
    obtain ⟨⟨ts, shorts'⟩, parts, rfl, -⟩ := h
    simpa using elementTargetsUnder elements parts under
  · rename_i members
    simp only [Option.map_eq_some_iff, Prod.mk.injEq] at h
    obtain ⟨⟨ts, shorts'⟩, parts, rfl, -⟩ := h
    simpa using memberTargetsUnder members parts under
  · simp only [Option.map_eq_some_iff, Prod.mk.injEq] at h
    obtain ⟨_, simple, rfl, -⟩ := h
    exact simpleTargetUnder simple under

theorem elementTargetUnder (t : Tree) {t' : Tree} {shorts : List Nat} (h : t.elementTarget? = some (t', shorts)) {k l : Places}
    (under : k.Under l) : (k.add [t']).Under (l.add [t]) := by
  unfold elementTarget? at h
  split at h
  · rename_i start operator target value
    simp only [Option.ite_none_right_eq_some, Option.some.injEq, Prod.mk.injEq] at h
    obtain ⟨-, rfl, -⟩ := h
    simpa using ((under.code start).add [target]).add [value]
  · rename_i elements
    simp only [Option.map_eq_some_iff, Prod.mk.injEq] at h
    obtain ⟨⟨ts, shorts'⟩, parts, rfl, -⟩ := h
    simpa using elementTargetsUnder elements parts under
  · rename_i members
    simp only [Option.map_eq_some_iff, Prod.mk.injEq] at h
    obtain ⟨⟨ts, shorts'⟩, parts, rfl, -⟩ := h
    simpa using memberTargetsUnder members parts under
  · simp only [Option.map_eq_some_iff, Prod.mk.injEq] at h
    obtain ⟨_, simple, rfl, -⟩ := h
    exact simpleTargetUnder simple under

theorem elementTargetsUnder (ts : List Tree) {ts' : List Tree} {shorts : List Nat} (h : elementTargets? ts = some (ts', shorts))
    {k l : Places} (under : k.Under l) : (k.add ts').Under (l.add ts) := by
  unfold elementTargets? at h
  split at h
  · cases h
    simpa using under
  · rename_i ts
    rw [addHead l]
    simpa using elementTargetsUnder ts h under
  · rename_i argument ts
    simp only [Option.bind_eq_bind, Option.bind_eq_some_iff, Option.ite_none_right_eq_some, Option.some.injEq, Prod.mk.injEq] at h
    obtain ⟨⟨t, shorts'⟩, target, -, rfl, -⟩ := h
    rw [addHead l]
    simpa using (targetUnder argument target under).skip ts
  · rename_i t ts _ _
    simp only [Option.bind_eq_bind, Option.bind_eq_some_iff, Option.some.injEq, Prod.mk.injEq] at h
    obtain ⟨⟨t', shorts'⟩, target, ⟨ts', more⟩, rest, rfl, -⟩ := h
    rw [addHead l, addHead k]
    exact elementTargetsUnder ts rest (elementTargetUnder t target under)

theorem memberTargetsUnder (ts : List Tree) {ts' : List Tree} {shorts : List Nat} (h : memberTargets? ts = some (ts', shorts))
    {k l : Places} (under : k.Under l) : (k.add ts').Under (l.add ts) := by
  have whole := h
  unfold memberTargets? at h
  split at h
  · cases h
    simpa using under
  · rename_i argument ts
    simp only [Option.bind_eq_bind, Option.bind_eq_some_iff, Option.ite_none_right_eq_some, Option.some.injEq, Prod.mk.injEq] at h
    obtain ⟨t, target, -, rfl, -⟩ := h
    rw [addHead l]
    simpa using (simpleTargetUnder target under).skip ts
  · rename_i start key computed value ts
    obtain ⟨t, rest, more, targets, same, valueUnder⟩ : ∃ t rest more, memberTargets? ts = some (rest, more) ∧
        ts' = (if computed then key :: t :: rest else t :: rest) ∧ ∀ {k l : Places}, k.Under l → (k.add [t]).Under (l.add [value]) := by
      -- a pattern is a target as it is, without being looked into
      by_cases pattern : ∃ parts, value = .pattern parts
      · obtain ⟨parts, rfl⟩ := pattern
        rw [memberTargets?.eq_3] at whole
        simp only [Option.bind_eq_bind, Option.bind_some, Option.bind_eq_some_iff, Option.some.injEq, Prod.mk.injEq] at whole
        obtain ⟨⟨rest, more⟩, targets, rfl, -⟩ := whole
        exact ⟨_, _, _, targets, rfl, fun under => under.add _⟩
      · rw [memberTargets?.eq_4 _ _ _ _ _ fun parts same => pattern ⟨parts, same⟩] at whole
        simp only [Option.bind_eq_bind, Option.bind_eq_some_iff, Option.some.injEq, Prod.mk.injEq] at whole
        obtain ⟨⟨t, shorts'⟩, target, ⟨rest, more⟩, targets, rfl, -⟩ := whole
        exact ⟨_, _, _, targets, rfl, elementTargetUnder value target⟩
    rw [addHead l, addProperty]
    have passed : k.Under (l.key (start, computed || (keyName? computed key).isSome)) := under.key _
    rw [same]
    cases computed with
    | true =>
      rw [if_pos rfl, addHead k, addHead (k.add [key])]
      exact memberTargetsUnder ts targets (valueUnder (passed.add [key]))
    | false =>
      rw [if_neg Bool.false_ne_true, addHead k]
      exact memberTargetsUnder ts targets (valueUnder (passed.skip [key]))
  · contradiction
end

end Tree
end ClassDocs.Script
