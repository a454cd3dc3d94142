import Mathlib.Data.List.Basic
import ClassDocs.Expression.Evaluate
import ClassDocs.Proofs.Registry.Members

/-! The grammar of what can be evaluated. A kind is read off an expression without its value, and exactly the expressions with a kind
have a value, which is of that kind. -/
namespace ClassDocs

inductive ValueKind where
  | string
  | number
  | boolean
  | regex
  | unclassified
  | array
  | object
  deriving DecidableEq

namespace ValueKind

/-- What `+` makes of two kinds. -/
def plus? : ValueKind → ValueKind → Option ValueKind
  | number, number => some number
  | string, string | string, number | number, string => some string
  | _, _ => none

end ValueKind

def Value.kind : Value → ValueKind
  | .string _ => .string
  | .number _ => .number
  | .boolean _ => .boolean
  | .regex _ => .regex
  | .unclassified _ => .unclassified
  | .array _ => .array
  | .object _ => .object

def Literal.kind (raw : String) (value : Literal) : ValueKind :=
  if raw.toList.head? = some '/' then .regex
  else match value with
    | .string _ => .string
    | .number _ => .number
    | .boolean _ => .boolean
    | .regex _ => .regex
    | .null => .unclassified

namespace Expression

def isKey : Expression → Bool
  | .identifier _ | .literal .. => true
  | _ => false

mutual
def kind? : Expression → Option ValueKind
  | .literal raw value => some (value.kind raw)
  | .array elements => if allKinds elements then some .array else none
  | .object entries => if entryKinds entries then some .object else none
  | .binary operator left right =>
    if operator = "+" then do
      let l ← kind? left
      let r ← kind? right
      l.plus? r
    else none
  | .member (.identifier "Ext") (.identifier "baseCSSPrefix") false => some .string
  | _ => none

def allKinds : List Expression → Bool
  | [] => true
  | e :: es => (kind? e).isSome && allKinds es

def entryKinds : List (Expression × Expression) → Bool
  | [] => true
  | (key, e) :: rest => isKey key && (kind? e).isSome && entryKinds rest
end

/-- The text of each key with the value behind it, as they are written. -/
def pairs? : List (Expression × Expression) → Option (List (String × Value))
  | [] => some []
  | (key, e) :: rest => do
    let k ← (keyText key).toOption
    let v ← e.evaluate.toOption
    let more ← pairs? rest
    some ((k, v) :: more)

/-- The last of the pairs with the key. -/
def lastOf? (pairs : List (String × Value)) (key : String) : Option (String × Value) := pairs.reverse.find? (·.1 == key)

/-- Every key once, where it comes first, and each with the last value it is given. -/
def laidOut (pairs : List (String × Value)) : List (String × Value) :=
  (pairs.map Prod.fst).eraseDups.filterMap (lastOf? pairs)

theorem kindOfConcat (l r : Value) : (l.concat r).toOption.map Value.kind = l.kind.plus? r.kind := by
  cases l <;> cases r <;> rfl

theorem kindOfLiteral (raw : String) (value : Literal) : (value.evaluate raw).kind = value.kind raw := by
  by_cases slash : raw.toList.head? = some '/'
  · simp [Literal.evaluate, Literal.kind, startsWithSlash, slash, Value.kind]
  · cases value <;> simp [Literal.evaluate, Literal.kind, startsWithSlash, slash, Value.kind]

theorem keyTextIsKey (key : Expression) : (keyText key).toOption.isSome = key.isKey := by
  cases key with
  | literal raw value => cases value <;> rfl
  | _ => rfl

mutual
theorem kindOfValue (e : Expression) : e.evaluate.toOption.map Value.kind = e.kind? := by
  cases e with
  | literal raw value => exact congrArg some (kindOfLiteral raw value)
  | array elements =>
    have all := kindsOfAll elements
    rw [evaluate, kind?, ← all]
    cases evaluateAll elements <;> rfl
  | object entries =>
    have all := kindsOfEntries [] entries
    rw [evaluate, kind?, ← all]
    cases evaluateEntries [] entries <;> rfl
  | binary operator left right =>
    have l := kindOfValue left
    have r := kindOfValue right
    rw [evaluate, kind?, ← l, ← r]
    by_cases plus : operator = "+"
    · rw [if_pos plus, if_pos plus]
      cases left.evaluate with
      | error => rfl
      | ok l =>
        cases right.evaluate with
        | error => rfl
        | ok r => exact kindOfConcat l r
    · rw [if_neg plus, if_neg plus]
      rfl
  | member owner property computed =>
    by_cases constant : member owner property computed = .member (.identifier "Ext") (.identifier "baseCSSPrefix") false
    · rw [constant]
      rfl
    · have unknown : isBaseCssPrefix (member owner property computed) = false := by
        unfold isBaseCssPrefix
        split
        · exact absurd ‹_› constant
        · rfl
      rw [evaluate, unknown, kind?.eq_6]
      · rfl
      all_goals
        intros
        simp_all
  | _ => rfl

theorem kindsOfAll (es : List Expression) : (evaluateAll es).toOption.isSome = allKinds es := by
  cases es with
  | nil => rfl
  | cons e es =>
    have first := kindOfValue e
    have rest := kindsOfAll es
    rw [evaluateAll, allKinds, ← first, ← rest]
    cases e.evaluate with
    | error => rfl
    | ok => cases evaluateAll es <;> rfl

theorem kindsOfEntries (done : List (String × Value)) (entries : List (Expression × Expression)) :
    (evaluateEntries done entries).toOption.isSome = entryKinds entries := by
  cases entries with
  | nil => rfl
  | cons entry entries =>
    obtain ⟨key, e⟩ := entry
    have first := kindOfValue e
    rw [evaluateEntries, entryKinds, ← keyTextIsKey, ← first]
    cases keyText key with
    | error => rfl
    | ok k =>
      cases e.evaluate with
      | error => rfl
      | ok v => exact kindsOfEntries (Value.setEntry done k v) entries
end

theorem lastOfConcat (pairs : List (String × Value)) (pair : String × Value) (key : String) :
    lastOf? (pairs ++ [pair]) key = if pair.1 = key then some pair else lastOf? pairs key := by
  by_cases same : pair.1 = key <;> simp [lastOf?, same]

theorem lastOfKnown {pairs : List (String × Value)} {key : String} (known : key ∈ pairs.map Prod.fst) :
    ∃ v, lastOf? pairs key = some (key, v) := by
  obtain ⟨pair, listed, same⟩ := List.mem_map.mp known
  have found : (lastOf? pairs key).isSome := List.find?_isSome.mpr ⟨pair, List.mem_reverse.mpr listed, beq_iff_eq.mpr same⟩
  obtain ⟨⟨k, v⟩, last⟩ := Option.isSome_iff_exists.mp found
  have own : k = key := by simpa using List.find?_some last
  exact ⟨v, own ▸ last⟩

theorem keysLaidOut (pairs : List (String × Value)) : (laidOut pairs).map Prod.fst = (pairs.map Prod.fst).eraseDups := by
  rw [laidOut, List.map_filterMap]
  refine (List.filterMap_eq_map_iff_forall_eq_some (g := id).mpr fun key listed => ?_).trans (List.map_id _)
  obtain ⟨v, last⟩ := lastOfKnown (List.mem_eraseDups.mp listed)
  rw [last]
  rfl

theorem laidOutConcat (pairs : List (String × Value)) (key : String) (v : Value) :
    laidOut (pairs ++ [(key, v)]) = Value.setEntry (laidOut pairs) key v := by
  have listed : key ∈ (laidOut pairs).map Prod.fst ↔ key ∈ pairs.map Prod.fst := by rw [keysLaidOut, List.mem_eraseDups]
  by_cases known : key ∈ pairs.map Prod.fst
  · have there : (laidOut pairs).any (·.1 == key) = true := by simpa using listed.mpr known
    rw [Value.setEntry, if_pos there, laidOut, laidOut, List.map_filterMap, List.map_append, List.map_singleton,
      Registry.eraseDupsConcat, if_pos known]
    refine List.filterMap_congr fun name listed => ?_
    obtain ⟨w, last⟩ := lastOfKnown (List.mem_eraseDups.mp listed)
    rw [lastOfConcat, last]
    by_cases same : key = name
    · simp [same]
    · simp [same, Ne.symm same]
  · have fresh : ∀ entry ∈ laidOut pairs, entry.1 ≠ key := fun entry there same =>
      known (listed.mp (List.mem_map.mpr ⟨entry, there, same⟩))
    rw [Value.setEntryFresh v fresh, laidOut, List.map_append, List.map_singleton, Registry.eraseDupsConcat, if_neg known,
      List.filterMap_append]
    have earlier : (pairs.map Prod.fst).eraseDups.filterMap (lastOf? (pairs ++ [(key, v)])) = laidOut pairs := by
      refine List.filterMap_congr fun name there => ?_
      have other : key ≠ name := fun same => known (same ▸ List.mem_eraseDups.mp there)
      rw [lastOfConcat, if_neg other]
    rw [earlier, List.filterMap_cons, lastOfConcat, if_pos rfl]
    rfl

theorem entriesLaidOut (done : List (String × Value)) (entries : List (Expression × Expression)) :
    (evaluateEntries (laidOut done) entries).toOption = (pairs? entries).map fun pairs => laidOut (done ++ pairs) := by
  induction entries generalizing done with
  | nil => simp [evaluateEntries, pairs?, Except.toOption]
  | cons entry entries ih =>
    obtain ⟨key, e⟩ := entry
    rw [evaluateEntries, pairs?]
    cases keyText key with
    | error => rfl
    | ok k =>
      cases e.evaluate with
      | error => rfl
      | ok v =>
        have rest := ih (done ++ [(k, v)])
        rw [laidOutConcat] at rest
        refine Eq.trans rest ?_
        cases pairs? entries <;> simp [Except.toOption]

/-- Exactly the expressions with a kind have a value, and it is of that kind. The value of an object has each key where it comes first,
with the last value that is given for it. -/
theorem evaluatedByKind :
    (∀ e : Expression, e.evaluate.toOption.map Value.kind = e.kind?) ∧
      ∀ entries, (object entries).evaluate.toOption = (pairs? entries).map fun pairs => .object (laidOut pairs) := by
  refine ⟨kindOfValue, fun entries => ?_⟩
  have laid := entriesLaidOut [] entries
  have none : laidOut [] = [] := rfl
  rw [none] at laid
  calc (object entries).evaluate.toOption
      = (evaluateEntries [] entries).toOption.map Value.object := by
        rw [evaluate]
        cases evaluateEntries [] entries <;> rfl
    _ = (pairs? entries).map fun pairs => .object (laidOut pairs) := by
        rw [laid, Option.map_map]
        rfl

end Expression
end ClassDocs
