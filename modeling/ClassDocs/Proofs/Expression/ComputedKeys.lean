import ClassDocs.SourceFile
import ClassDocs.Proofs.Script.Equality

/-! Keys that are computed. Whether a key stands in square brackets is lost when a tree becomes an expression, so its
evaluation refuses a computed key for its form alone: a variable in brackets passes for a name. -/
namespace ClassDocs

namespace Script.Tree

/-- A tree without the parentheses around it. -/
def bare : Tree → Tree
  | .paren inner => bare inner
  | t => t

/-- Strings, numbers, booleans, `null` and regular expressions. -/
def isLiteral : Tree → Bool
  | .literal .. => true
  | _ => false

/-- Somewhere in the array and object literals of the tree stands a property with the computed key `key`. -/
inductive ComputedIn (key : Tree) : Tree → Prop where
  | here {members : List Tree} {start : Nat} {value : Tree} (member : .property start key true value ∈ members) :
      ComputedIn key (.object members)
  | value {members : List Tree} {start : Nat} {name value : Tree} {computed : Bool}
      (member : .property start name computed value ∈ members) (inside : ComputedIn key value) : ComputedIn key (.object members)
  | element {elements : List Tree} {t : Tree} (member : t ∈ elements) (inside : ComputedIn key t) : ComputedIn key (.array elements)
  | spread {members : List Tree} {t : Tree} (member : .spread t ∈ members) (inside : ComputedIn key t) : ComputedIn key (.object members)
  | spreadElement {elements : List Tree} {t : Tree} (member : .spread t ∈ elements) (inside : ComputedIn key t) :
      ComputedIn key (.array elements)
  | paren {inner : Tree} (inside : ComputedIn key inner) : ComputedIn key (.paren inner)

theorem lowerBare (t : Tree) : t.bare.lower = t.lower := by
  induction t using bare.induct with
  | case1 inner ih => rw [bare, ih, lowerParen]
  | case2 t other => rw [bare.eq_2 t other]

theorem lowerMember {members : List Tree} {start : Nat} {key value : Tree} {computed : Bool}
    (member : .property start key computed value ∈ members) : (key.lower, value.lower) ∈ lowerMembers members := by
  induction members with
  | nil => exact absurd member List.not_mem_nil
  | cons first rest ih =>
    cases List.mem_cons.mp member with
    | inl same => simp [← same, lowerMembers]
    | inr later => cases first <;> simp [lowerMembers, ih later]

theorem lowerSpread {members : List Tree} {t : Tree} (member : .spread t ∈ members) :
    (.other "SpreadElement", t.lower) ∈ lowerMembers members := by
  induction members with
  | nil => exact absurd member List.not_mem_nil
  | cons first rest ih =>
    cases List.mem_cons.mp member with
    | inl same => simp [← same, lowerMembers]
    | inr later => cases first <;> simp [lowerMembers, ih later]

theorem lowerElement {elements : List Tree} {t : Tree} (member : t ∈ elements) : t.lower ∈ lowerAll elements := by
  induction elements with
  | nil => exact absurd member List.not_mem_nil
  | cons first rest ih =>
    rw [lowerAll]
    exact (List.mem_cons.mp member).elim (fun same => same ▸ List.mem_cons_self) fun later => List.mem_cons_of_mem _ (ih later)

end Script.Tree

namespace Expression
open Script

def Fails (e : Expression) : Prop := ∃ error, e.evaluate = .error error

theorem failsInArray {elements : List Expression} {e : Expression} (member : e ∈ elements) (fails : e.Fails) :
    (array elements).Fails := by
  obtain ⟨error, failed⟩ := fails
  have all : ∃ error, evaluateAll elements = .error error := by
    induction elements with
    | nil => exact absurd member List.not_mem_nil
    | cons first rest ih =>
      rw [evaluateAll]
      cases first' : first.evaluate with
      | error error => exact ⟨error, rfl⟩
      | ok v =>
        rcases List.mem_cons.mp member with rfl | later
        · rw [first'] at failed
          contradiction
        · obtain ⟨error, rest'⟩ := ih later
          exact ⟨error, by rw [rest']; rfl⟩
  obtain ⟨error, failed⟩ := all
  exact ⟨error, by rw [evaluate, failed]; rfl⟩

theorem failsInObject {entries : List (Expression × Expression)} {key value : Expression} (member : (key, value) ∈ entries)
    (fails : (∃ error, key.keyText = .error error) ∨ value.Fails) : (object entries).Fails := by
  have all (done : List (String × Value)) : ∃ error, evaluateEntries done entries = .error error := by
    induction entries generalizing done with
    | nil => exact absurd member List.not_mem_nil
    | cons first rest ih =>
      obtain ⟨firstKey, firstValue⟩ := first
      rw [evaluateEntries]
      cases hk : firstKey.keyText with
      | error error => exact ⟨error, rfl⟩
      | ok k =>
        cases hv : firstValue.evaluate with
        | error error => exact ⟨error, rfl⟩
        | ok v =>
          rcases List.mem_cons.mp member with same | later
          · cases same
            obtain ⟨error, failed⟩ | ⟨error, failed⟩ := fails
            · rw [hk] at failed
              contradiction
            · rw [hv] at failed
              contradiction
          · exact ih later _
  obtain ⟨error, failed⟩ := all []
  exact ⟨error, by rw [evaluate, failed]; rfl⟩

/- Only names and literals are keys. -/
theorem keyRefused {t : Tree} (noLiteral : t.bare.isLiteral = false) (noName : ∀ name, t.bare ≠ .identifier name) :
    ∃ error, t.lower.keyText = .error error := by
  induction t using Tree.bare.induct with
  | case1 inner ih =>
    rw [Tree.bare] at noLiteral noName
    rw [Tree.lowerParen]
    exact ih noLiteral noName
  | case2 t other =>
    rw [Tree.bare.eq_2 t other] at noLiteral noName
    cases t with
    | literal => contradiction
    | identifier name => exact absurd rfl (noName name)
    | paren inner => exact absurd rfl (other inner)
    | _ => simp [Tree.lower, Expression.dot, keyText]

theorem computedFails {t key : Tree} (computes : key.ComputedIn t) (refused : ∃ error, key.lower.keyText = .error error) :
    t.lower.Fails := by
  induction computes with
  | here member =>
    rw [Tree.lower]
    exact failsInObject (Tree.lowerMember member) (.inl refused)
  | value member _ ih =>
    rw [Tree.lower]
    exact failsInObject (Tree.lowerMember member) (.inr ih)
  | element member _ ih =>
    rw [Tree.lower]
    exact failsInArray (Tree.lowerElement member) ih
  | spread member _ ih =>
    rw [Tree.lower]
    exact failsInObject (Tree.lowerSpread member) (.inr ih)
  | spreadElement member _ _ =>
    rw [Tree.lower]
    exact failsInArray (Tree.lowerElement member) ⟨_, by rw [Tree.lower]; rfl⟩
  | paren _ ih => rwa [Tree.lowerParen]

/-- An expression with a computed key that is no literal has no value, unless the key is a variable: then the name of the
variable is taken for the key. -/
theorem computedKeysRefused {text : String} {program : Program} {t key : Tree}
    (read : Program.read ("(" ++ text ++ ");") = .ok program) (single : program.statements = [.effect t])
    (computes : key.ComputedIn t) (noLiteral : key.bare.isLiteral = false) :
    ∃ e, parse text = .ok e ∧ ((∀ name, key.bare ≠ .identifier name) → e.Fails) ∧
      ∀ name, key.bare = .identifier name → key.lower.keyText = .ok name := by
  refine ⟨t.lower, by rw [parse, read]; simp only [single], fun noName => computedFails computes (keyRefused noLiteral noName), ?_⟩
  intro name named
  rw [← Tree.lowerBare, named, Tree.lower, keyText]

def sizesText : String := "\x7bsizes: [\x7b[step * 2]: 'l'\x7d]\x7d"

def sizesKey : Tree := .binary "*" (.identifier "step") (.literal "2" (.number 2.0))

def sizes : Tree :=
  .paren (.object [.property 2 (.identifier "sizes") false
    (.array [.object [.property 11 sizesKey true (.literal "'l'" (.string "l"))]])])

theorem sizesRefused : Program.read ("(" ++ sizesText ++ ");") = .ok ⟨[.effect sizes], []⟩ ∧ sizesKey.ComputedIn sizes ∧
    sizesKey.bare.isLiteral = false ∧ ∃ e, parse sizesText = .ok e ∧ e.Fails := by
  have read : Program.read ("(" ++ sizesText ++ ");") = .ok ⟨[.effect sizes], []⟩ := by decide +kernel
  have computed : sizesKey.ComputedIn sizes :=
    .paren (.value List.mem_cons_self (.element List.mem_cons_self (.here List.mem_cons_self)))
  obtain ⟨e, parsed, refused, -⟩ := computedKeysRefused read rfl computed rfl
  exact ⟨read, computed, rfl, e, parsed, refused nofun⟩

def alignText : String := "\x7b[side]: 'l'\x7d"

def align : Tree := .paren (.object [.property 2 (.identifier "side") true (.literal "'l'" (.string "l"))])

/-- The name of a variable becomes a key. -/
theorem alignNamed : Program.read ("(" ++ alignText ++ ");") = .ok ⟨[.effect align], []⟩ ∧ (Tree.identifier "side").ComputedIn align ∧
    (Tree.identifier "side").bare.isLiteral = false ∧ (parse alignText).toOption.map evaluate = some (.ok (.object [("side", .string "l")])) := by
  have read : Program.read ("(" ++ alignText ++ ");") = .ok ⟨[.effect align], []⟩ := by decide +kernel
  refine ⟨read, .paren (.here List.mem_cons_self), rfl, ?_⟩
  rw [parse, read]
  rfl

end Expression
end ClassDocs
