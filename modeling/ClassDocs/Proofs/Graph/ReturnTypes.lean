import Mathlib.Data.Set.Insert
import ClassDocs.Proofs.Graph.Additions
import ClassDocs.Proofs.Registry.Related

/-! Types of return values. What is inferred from return statements depends on nothing but the set of their classes: it takes
a set of one class to infer anything. -/
namespace ClassDocs

theorem commonClassIff {es : List Expression} {c : ResultClass} :
    commonClass es = some c ↔ {k | ∃ e ∈ es, e.classify = k} = {c} := by
  cases es with
  | nil =>
    refine iff_of_false nofun fun only => ?_
    obtain ⟨e, he, -⟩ : c ∈ {k | ∃ e ∈ [], Expression.classify e = k} := only ▸ rfl
    contradiction
  | cons first rest =>
    have agree : (rest.all fun e => e.classify == first.classify) = true ↔ ∀ e ∈ rest, e.classify = first.classify := by simp
    rw [commonClass]
    constructor
    · intro common
      split at common
      · rename_i same
        cases common
        ext k
        constructor
        · rintro ⟨e, he, rfl⟩
          rcases List.mem_cons.mp he with rfl | later
          · rfl
          · exact agree.mp same e later
        · rintro rfl
          exact ⟨first, List.mem_cons_self, rfl⟩
      · contradiction
    · intro only
      have each (e : Expression) (he : e ∈ first :: rest) : e.classify = c := by
        have there : e.classify ∈ {k | ∃ e ∈ first :: rest, e.classify = k} := ⟨e, he, rfl⟩
        rwa [only] at there
      have here := each first List.mem_cons_self
      rw [if_pos (agree.mpr fun e he => (each e (List.mem_cons_of_mem _ he)).trans here.symm), here]

namespace ResultClass

theorem typeNameIff {c : ResultClass} {type : String} :
    c.typeName? = some type ↔ (c, type) ∈ [(boolean, "Boolean"), (string, "String"), (regexp, "RegExp")] := by
  cases c <;> simp [typeName?, eq_comm]

theorem thisUnnamed {c : ResultClass} (inferable : c ∈ [thisReference, boolean, string, regexp]) (unnamed : c.typeName? = none) :
    c = thisReference := by
  cases c <;> first | rfl | contradiction

end ResultClass

namespace Metadata

def resultClasses (m : Metadata) : Set ResultClass := {k | ∃ e ∈ m.returnExpressions, e.classify = k}

def returnType? (m : Metadata) : Option String := m.returns.bind ReturnDoc.typeName

def returnText? (m : Metadata) : Option String := m.returns.bind ReturnDoc.doc

/-- A method before and after its return value is looked at. -/
inductive Inferred (owner : String) (m : Metadata) : Metadata → Prop where
  | chains (chainable : m.chainable = true) :
      Inferred owner m { m with returns := some ⟨m.returnType?.or (some owner), m.returnText?.or (some "this")⟩ }
  | declared {type} (plain : m.chainable = false) (given : m.returnType? = some type) : Inferred owner m m
  | thisOnly (plain : m.chainable = false) (undeclared : m.returnType? = none) (only : m.resultClasses = {.thisReference}) :
      Inferred owner m { m with chainable := true, returns := some ⟨some owner, m.returnText?.or (some "this")⟩ }
  | typed {c type} (plain : m.chainable = false) (undeclared : m.returnType? = none)
      (called : (c, type) ∈ [(ResultClass.boolean, "Boolean"), (.string, "String"), (.regexp, "RegExp")])
      (only : m.resultClasses = {c}) : Inferred owner m { m with returns := some ⟨some type, m.returnText?⟩ }
  | untold (plain : m.chainable = false) (undeclared : m.returnType? = none)
      (several : ∀ c ∈ [ResultClass.thisReference, .boolean, .string, .regexp], m.resultClasses ≠ {c}) : Inferred owner m m

theorem chainedReturns (m : Metadata) (owner : String) :
    m.chained owner = { m with returns := some ⟨m.returnType?.or (some owner), m.returnText?.or (some "this")⟩ } := by
  unfold chained returnType? returnText?
  cases m.returns <;> rfl

theorem typedReturns (m : Metadata) (type : String) :
    { m.returns.getD {} with typeName := some type } = ReturnDoc.mk (some type) m.returnText? := by
  unfold returnText?
  cases m.returns <;> rfl

theorem inferred (m : Metadata) (owner : String) : m.Inferred owner (m.withReturns owner) := by
  have common (c : ResultClass) : commonClass m.returnExpressions = some c ↔ m.resultClasses = {c} := commonClassIff
  unfold withReturns
  by_cases chainable : m.chainable = true
  · rw [if_pos chainable, chainedReturns]
    exact .chains chainable
  · have plain : m.chainable = false := Bool.eq_false_iff.mpr chainable
    rw [if_neg chainable]
    cases given : m.returnType? with
    | some type =>
      have declares : m.declaresReturn = true := Option.isSome_iff_exists.mpr ⟨type, given⟩
      rw [if_pos declares]
      exact .declared plain given
    | none =>
      have undeclared : ¬m.declaresReturn = true := by
        rw [declaresReturn, ← returnType?, given]
        exact Bool.false_ne_true
      rw [if_neg undeclared]
      split
      · rename_i only
        have untyped : returnType? { m with chainable := true } = none := given
        rw [chainedReturns, untyped, Option.none_or]
        exact .thisOnly plain given ((common _).mp only)
      · rename_i c other only
        split
        · rename_i type called
          rw [typedReturns]
          exact .typed plain given (ResultClass.typeNameIff.mp called) ((common c).mp only)
        · rename_i unnamed
          refine .untold plain given fun k hk single => other ?_
          cases Set.singleton_eq_singleton_iff.mp (((common c).mp only).symm.trans single)
          exact ResultClass.thisUnnamed hk unnamed
      · rename_i none
        refine .untold plain given fun k _ single => ?_
        rw [(common k).mpr single] at none
        contradiction

/-- The same but for the return statements, which may come in another order and more or less often. -/
structure SameResults (m m' : Metadata) : Prop where
  rest : m' = { m with returnExpressions := m'.returnExpressions }
  classes : m'.resultClasses = m.resultClasses

theorem statementsKept (m : Metadata) (owner : String) : (m.withReturns owner).returnExpressions = m.returnExpressions := by
  obtain ⟨returns, chainable, filled⟩ := m.returnsOnly owner
  rw [filled]

theorem otherStatements {m : Metadata} {es : List Expression} (common : commonClass es = commonClass m.returnExpressions)
    (owner : String) :
    { m with returnExpressions := es }.withReturns owner = { m.withReturns owner with returnExpressions := es } := by
  have chainable : { m with returnExpressions := es }.chainable = m.chainable := rfl
  have declares : { m with returnExpressions := es }.declaresReturn = m.declaresReturn := rfl
  rw [withReturns, withReturns, chainable, declares, common]
  split
  · rfl
  · split
    · rfl
    · split
      · rfl
      · split <;> rfl
      · rfl

theorem sameResultsReturns {m m' : Metadata} (same : m.SameResults m') (owner : String) :
    (m.withReturns owner).SameResults (m'.withReturns owner) := by
  have common : commonClass m'.returnExpressions = commonClass m.returnExpressions := Option.ext fun c => by
    rw [commonClassIff, commonClassIff]
    exact Eq.congr_left same.classes
  constructor
  · rw [statementsKept, ← otherStatements common, ← same.rest]
  · rw [resultClasses, resultClasses, statementsKept, statementsKept]
    exact same.classes

end Metadata

namespace Declaration

/-- Methods alone have their return values looked at. -/
inductive InfersReturns (owner : String) (m : Declaration) : Declaration → Prop where
  | method {info} (kind : m.kind = .method) (inferred : m.info.Inferred owner info) : InfersReturns owner m { m with info }
  | other (kind : m.kind ≠ .method) : InfersReturns owner m m

structure SameResults (m m' : Declaration) : Prop where
  info : m.info.SameResults m'.info
  rest : m' = { m with info := m'.info }

theorem infersReturns (m : Declaration) (owner : String) : m.InfersReturns owner (m.returning owner) := by
  unfold returning
  split
  · rename_i kind
    exact .method kind (m.info.inferred owner)
  · rename_i kind
    exact .other kind

theorem sameResultsReturning {m m' : Declaration} (same : m.SameResults m') (owner : String) :
    (m.returning owner).SameResults (m'.returning owner) := by
  have kind : m'.kind = m.kind := by rw [same.rest]
  unfold returning
  rw [kind]
  split
  · exact ⟨Metadata.sameResultsReturns same.info owner, by conv => lhs; rw [same.rest]⟩
  · exact same

end Declaration

namespace ClassRecord

structure InfersReturns (c c' : ClassRecord) : Prop where
  members : List.Forall₂ (Declaration.InfersReturns c.name) c.members c'.members
  rest : c' = { c with members := c'.members }

structure SameResults (c c' : ClassRecord) : Prop where
  members : List.Forall₂ Declaration.SameResults c.members c'.members
  rest : c' = { c with members := c'.members }

theorem infersReturns (c : ClassRecord) : c.InfersReturns c.returning :=
  ⟨relatedImage (fun m => m.infersReturns c.name) c.members, rfl⟩

theorem sameResultsReturning {c c' : ClassRecord} (same : c.SameResults c') : c.returning.SameResults c'.returning := by
  have name : c'.name = c.name := by rw [same.rest]
  refine ⟨List.rel_map (fun m m' h => ?_) same.members, ?_⟩
  · rw [name]
    exact Declaration.sameResultsReturning h c.name
  · exact congrArg (fun c : ClassRecord => { c with members := c'.returning.members }) same.rest

end ClassRecord

namespace ClassGraph

structure SameResults (g g' : ClassGraph) : Prop where
  classes : g.classes.Related ClassRecord.SameResults g'.classes
  stubs : g'.stubs = g.stubs
  patterns : g'.patterns = g.patterns

/-- A method returns what it is said to return, and else its class if it is chainable or returns `this` alone, or the one type
that its statements agree on. Nothing else is touched, there is nothing to add a second time, and which statements there are
counts only by their classes. -/
theorem returnsInferred (g : ClassGraph) :
    (g.classes.Related ClassRecord.InfersReturns g.withReturns.classes ∧ g.withReturns.stubs = g.stubs ∧
      g.withReturns.patterns = g.patterns) ∧
    g.withReturns.withReturns = g.withReturns ∧
    ∀ g', g.SameResults g' → g.withReturns.SameResults g'.withReturns := by
  refine ⟨⟨?_, rfl, rfl⟩, ?_, fun g' same => ⟨?_, same.stubs, same.patterns⟩⟩
  · exact OrderedMap.relatedImage ClassRecord.infersReturns g.classes
  · exact congrArg (fun classes => { g with classes }) (OrderedMap.mapTwice ClassRecord.returningTwice g.classes)
  · exact OrderedMap.relatedMap same.classes fun c c' => ClassRecord.sameResultsReturning

/- A method whose paths end in a negation and in a literal. -/
def answers : List Expression := [.unary "!" (.identifier "hidden"), .literal "false" (.boolean false)]

def visibleGraph (statements : List Expression) : ClassGraph :=
  .ofClasses [{ name := "Panel", members := [
    { kind := .method, name := "isVisible", files := [], info := { returnExpressions := statements } }] }] []

theorem orderOfPaths : (visibleGraph answers).SameResults (visibleGraph (answers.reverse ++ answers)) ∧
    (visibleGraph answers).withReturns.SameResults (visibleGraph (answers.reverse ++ answers)).withReturns := by
  have classes : Metadata.resultClasses { returnExpressions := answers.reverse ++ answers } =
      Metadata.resultClasses { returnExpressions := answers } := by
    ext c
    simp only [Metadata.resultClasses, List.mem_append, List.mem_reverse, or_self]
  have member : Declaration.SameResults
      { kind := .method, name := "isVisible", files := [], info := { returnExpressions := answers } }
      { kind := .method, name := "isVisible", files := [], info := { returnExpressions := answers.reverse ++ answers } } :=
    ⟨⟨rfl, classes⟩, rfl⟩
  have same : (visibleGraph answers).SameResults (visibleGraph (answers.reverse ++ answers)) :=
    ⟨.cons ⟨rfl, .cons member .nil, rfl⟩ .nil, rfl, rfl⟩
  exact ⟨same, (returnsInferred (visibleGraph answers)).2.2 _ same⟩

end ClassGraph
end ClassDocs
