import ClassDocs.Proofs.Json.Fields

/-! Expressions that are written and read again. The type of a form decides which fields it is read by, none of them is named
like the type itself, and every expression within an expression is written less deep than the whole. -/
namespace ClassDocs
open Json (Keeps)
open Json.Given

/- A number is lost when it is written as null, and that happens to the infinite ones and to NaN. -/
def Literal.numbers : Literal → List Float
  | .number x => [x]
  | _ => []

namespace Expression

mutual
/-- The numbers among the literals of an expression, however deep they stand. -/
def numbers : Expression → List Float
  | .literal _ value => value.numbers
  | .array elements => numbersAll elements
  | .object entries => numbersEntries entries
  | .binary _ left right | .logical _ left right => numbers left ++ numbers right
  | .member owner property _ => numbers owner ++ numbers property
  | .unary _ argument => numbers argument
  | .conditional test consequent alternate => numbers test ++ numbers consequent ++ numbers alternate
  | .assignment _ target value => numbers target ++ numbers value
  | .identifier _ | .this | .other _ => []

def numbersAll : List Expression → List Float
  | [] => []
  | e :: es => numbers e ++ numbersAll es

def numbersEntries : List (Expression × Expression) → List Float
  | [] => []
  | (key, value) :: rest => numbers key ++ numbers value ++ numbersEntries rest
end

theorem numbersOfElement {elements : List Expression} {e : Expression} (he : e ∈ elements) :
    numbers e ⊆ numbersAll elements := by
  induction elements with
  | nil => contradiction
  | cons first rest ih =>
    rw [numbersAll]
    rcases List.mem_cons.mp he with rfl | later
    · exact List.subset_append_left ..
    · exact List.Subset.trans (ih later) (List.subset_append_right ..)

theorem numbersOfEntry {entries : List (Expression × Expression)} {key value : Expression} (he : (key, value) ∈ entries) :
    numbers key ++ numbers value ⊆ numbersEntries entries := by
  induction entries with
  | nil => contradiction
  | cons first rest ih =>
    rw [numbersEntries]
    rcases List.mem_cons.mp he with rfl | later
    · exact List.subset_append_left ..
    · exact List.Subset.trans (ih later) (List.subset_append_right ..)

theorem toJsonAllMap (elements : List Expression) : toJsonAll elements = elements.map toJson := by
  induction elements with
  | nil => rfl
  | cons e rest ih => rw [toJsonAll, ih, List.map_cons]

def entrySlots (entry : Expression × Expression) : List (String × Option Json) :=
  [("key", some entry.1.toJson), ("value", some entry.2.toJson)]

def entryJson (entry : Expression × Expression) : Json := .object (Json.fieldsOf (entrySlots entry))

theorem toJsonEntriesMap (entries : List (Expression × Expression)) : toJsonEntries entries = entries.map entryJson := by
  induction entries with
  | nil => rfl
  | cons entry rest ih => rw [toJsonEntries, ih, List.map_cons]; rfl

/- The type of a form stands apart from its fields. -/
theorem typeApart (type : String) : ("type" :: fieldNames type).Nodup := by
  unfold fieldNames
  split <;> decide

end Expression

section Passed
variable {pass : Json → Json} (h : Keeps pass)
include h

namespace Literal

theorem taggedBack (kind : String) (value : Option Json) :
    ofJson? (pass (toJson.tagged kind value)) = ofKind? kind (value.map pass) := by
  let slots := [("kind", some (.string kind)), ("value", value)]
  have distinct : (slots.map Prod.fst).Nodup := (by decide : ["kind", "value"].Nodup)
  have written : toJson.tagged kind value = .object (Json.fieldsOf slots) := by cases value <;> rfl
  obtain ⟨g, given, -, found⟩ := Json.givenBack h ["kind", "value"] (by decide) slots rfl
  obtain ⟨fields, object⟩ := Json.objectPassed h distinct
  simp only [slots, List.forall_mem_cons, Option.map_some] at found
  obtain ⟨kindAt, valueAt, -⟩ := found
  have name : g.required "kind" Json.name? = some kind := requiredBack kindAt (by rw [h.string]; rfl)
  rw [object] at given
  simp only [written, object, ofJson?, given, Option.bind_eq_bind, Option.bind_some, name, valueAt]

theorem readBack {l : Literal} (finite : ∀ x ∈ l.numbers, x.isFinite = true) : ofJson? (pass l.toJson) = some l := by
  cases l with
  | string s => rw [toJson, taggedBack h, Option.map_some, h.string]; rfl
  | number x =>
    have float : Json.ofFloat x = .float x := if_pos (finite x (List.mem_singleton_self x))
    rw [toJson, taggedBack h, Option.map_some, float, h.float]
    rfl
  | boolean b => rw [toJson, taggedBack h, Option.map_some, h.bool]; rfl
  | null => rw [toJson, taggedBack h]; rfl
  | regex source => rw [toJson, taggedBack h, Option.map_some, h.string]; rfl

end Literal

namespace Expression

/- A form is read by the fields of its type, and each of them is less deep. -/
theorem formBack {n : Nat} (type : String) (fields : List (String × Json)) (declared : fields.map Prod.fst = fieldNames type)
    (deep : (pass (.object (("type", .string type) :: fields))).depth ≤ n + 1) :
    ∃ g, form? (pass (.object (("type", .string type) :: fields))) = some (type, g) ∧
      ∀ f ∈ fields, g.lookup f.1 = some (pass f.2) ∧ (pass f.2).depth ≤ n := by
  let slots := (("type", Json.string type) :: fields).map fun f => (f.1, some f.2)
  have there : Json.fieldsOf slots = ("type", .string type) :: fields := Json.allThere _
  have distinct : (slots.map Prod.fst).Nodup := by
    rw [List.map_map]
    change ("type" :: fields.map Prod.fst).Nodup
    rw [declared]
    exact typeApart type
  obtain ⟨typed, readType, -, foundType⟩ := Json.givenAmong h distinct ["type"]
  obtain ⟨g, read, -, found⟩ := Json.givenAmong h distinct (fieldNames type)
  have smaller {name : String} {j : Json} (hj : (name, some j) ∈ slots) := Json.depthInObject h distinct hj
  obtain ⟨passed, object⟩ := Json.objectPassed h distinct
  rw [there] at readType read object smaller
  refine ⟨g, ?_, fun f hf => ?_⟩
  · have typeAt := foundType ("type", some (.string type)) (List.mem_cons_self ..) (List.mem_singleton_self _)
    rw [object] at readType read ⊢
    rw [form?, bindBack readType, bindBack (stringBack h typeAt), bindBack read]
  · have slot : (f.1, some f.2) ∈ slots := List.mem_map_of_mem (List.mem_cons_of_mem _ hf)
    exact ⟨found _ slot (declared ▸ List.mem_map_of_mem hf), Nat.le_of_lt_succ (Nat.lt_of_lt_of_le (smaller slot) deep)⟩

section Entry
variable {entry : Expression × Expression}

theorem entryDeep {n : Nat} (deep : (pass (entryJson entry)).depth ≤ n) :
    (pass entry.1.toJson).depth ≤ n ∧ (pass entry.2.toJson).depth ≤ n := by
  have distinct : ((entrySlots entry).map Prod.fst).Nodup := (by decide : ["key", "value"].Nodup)
  have key : ("key", some entry.1.toJson) ∈ entrySlots entry := List.mem_cons_self ..
  have value : ("value", some entry.2.toJson) ∈ entrySlots entry := List.mem_cons_of_mem _ (List.mem_singleton_self _)
  exact ⟨Nat.le_trans (Nat.le_of_lt (Json.depthInObject h distinct key)) deep,
    Nat.le_trans (Nat.le_of_lt (Json.depthInObject h distinct value)) deep⟩

theorem entryBack {decode : Json → Option Expression} (key : decode (pass entry.1.toJson) = some entry.1)
    (value : decode (pass entry.2.toJson) = some entry.2) :
    keyAndValue? decode (pass (entryJson entry)) = some entry := by
  obtain ⟨g, given, -, found⟩ := Json.givenBack h ["key", "value"] (by decide) (entrySlots entry) rfl
  simp only [entrySlots, List.forall_mem_cons, Option.map_some] at found
  obtain ⟨keyAt, valueAt, -⟩ := found
  rw [entryJson, keyAndValue?, bindBack given, bindBack (requiredBack keyAt key), bindBack (requiredBack valueAt value)]

end Entry

/- The induction follows the reading: what stands within an expression is read with one step less. -/
theorem readWithin {n : Nat} {e : Expression} (deep : (pass e.toJson).depth ≤ n) (finite : ∀ x ∈ e.numbers, x.isFinite = true) :
    ofJsonWithin n (pass e.toJson) = some e := by
  induction n generalizing e with
  | zero => exact absurd deep (Nat.not_le_of_gt (Json.depthPos _))
  | succ n ih =>
    cases e with
    | literal raw value =>
      rw [toJson] at deep ⊢
      obtain ⟨g, form, found⟩ := formBack h "literal" _ rfl deep
      simp only [List.forall_mem_cons] at found
      obtain ⟨⟨rawAt, -⟩, ⟨valueAt, -⟩, -⟩ := found
      simp only [ofJsonWithin, form, Option.bind_eq_bind, Option.bind_some, stringBack h rawAt,
        requiredBack valueAt (Literal.readBack h finite)]
    | array elements =>
      rw [toJson, toJsonAllMap] at deep ⊢
      obtain ⟨g, form, found⟩ := formBack h "array" _ rfl deep
      obtain ⟨elementsAt, elementsDeep⟩ := List.forall_mem_singleton.mp found
      -- the elements are less deep than their list, which is less deep than the whole
      have back : ∀ e ∈ elements, ofJsonWithin n (pass e.toJson) = some e := fun e he =>
        ih (Json.depthOfPassed h elementsDeep he) fun x hx => finite x (numbersOfElement he hx)
      simp only [ofJsonWithin, form, Option.bind_eq_bind, Option.bind_some, itemsBack h elementsAt back, Option.map_some]
    | object entries =>
      rw [toJson, toJsonEntriesMap] at deep ⊢
      obtain ⟨g, form, found⟩ := formBack h "object" _ rfl deep
      obtain ⟨entriesAt, entriesDeep⟩ := List.forall_mem_singleton.mp found
      -- between the list and a key or a value stands the object of the entry
      have back : ∀ entry ∈ entries, keyAndValue? (ofJsonWithin n) (pass (entryJson entry)) = some entry := by
        rintro ⟨key, value⟩ he
        obtain ⟨keyDeep, valueDeep⟩ := entryDeep h (Json.depthOfPassed h entriesDeep he)
        have finite := fun x hx => finite x (numbersOfEntry he hx)
        rw [List.forall_mem_append] at finite
        exact entryBack h (ih keyDeep finite.1) (ih valueDeep finite.2)
      simp only [ofJsonWithin, form, Option.bind_eq_bind, Option.bind_some, itemsBack h entriesAt back, Option.map_some]
    | binary operator left right =>
      rw [toJson] at deep ⊢
      rw [numbers, List.forall_mem_append] at finite
      obtain ⟨g, form, found⟩ := formBack h "binary" _ rfl deep
      simp only [List.forall_mem_cons] at found
      obtain ⟨⟨operatorAt, -⟩, ⟨leftAt, leftDeep⟩, ⟨rightAt, rightDeep⟩, -⟩ := found
      simp only [ofJsonWithin, form, Option.bind_eq_bind, Option.bind_some, stringBack h operatorAt,
        requiredBack leftAt (ih leftDeep finite.1), requiredBack rightAt (ih rightDeep finite.2)]
    | member owner property computed =>
      rw [toJson] at deep ⊢
      rw [numbers, List.forall_mem_append] at finite
      obtain ⟨g, form, found⟩ := formBack h "member" _ rfl deep
      simp only [List.forall_mem_cons] at found
      obtain ⟨⟨ownerAt, ownerDeep⟩, ⟨propertyAt, propertyDeep⟩, ⟨computedAt, -⟩, -⟩ := found
      simp only [ofJsonWithin, form, Option.bind_eq_bind, Option.bind_some, requiredBack ownerAt (ih ownerDeep finite.1),
        requiredBack propertyAt (ih propertyDeep finite.2), boolBack h computedAt]
    | identifier name =>
      obtain ⟨g, form, found⟩ := formBack h "identifier" _ rfl deep
      obtain ⟨nameAt, -⟩ := List.forall_mem_singleton.mp found
      simp only [toJson, ofJsonWithin, form, Option.bind_eq_bind, Option.bind_some, stringBack h nameAt, Option.map_some]
    | this =>
      obtain ⟨g, form, -⟩ := formBack h "this" [] rfl deep
      simp only [toJson, ofJsonWithin, form, Option.bind_eq_bind, Option.bind_some]
    | unary operator argument =>
      rw [toJson] at deep ⊢
      obtain ⟨g, form, found⟩ := formBack h "unary" _ rfl deep
      simp only [List.forall_mem_cons] at found
      obtain ⟨⟨operatorAt, -⟩, ⟨argumentAt, argumentDeep⟩, -⟩ := found
      simp only [ofJsonWithin, form, Option.bind_eq_bind, Option.bind_some, stringBack h operatorAt,
        requiredBack argumentAt (ih argumentDeep finite)]
    | logical operator left right =>
      rw [toJson] at deep ⊢
      rw [numbers, List.forall_mem_append] at finite
      obtain ⟨g, form, found⟩ := formBack h "logical" _ rfl deep
      simp only [List.forall_mem_cons] at found
      obtain ⟨⟨operatorAt, -⟩, ⟨leftAt, leftDeep⟩, ⟨rightAt, rightDeep⟩, -⟩ := found
      simp only [ofJsonWithin, form, Option.bind_eq_bind, Option.bind_some, stringBack h operatorAt,
        requiredBack leftAt (ih leftDeep finite.1), requiredBack rightAt (ih rightDeep finite.2)]
    | conditional test consequent alternate =>
      rw [toJson] at deep ⊢
      simp only [numbers, List.forall_mem_append] at finite
      obtain ⟨g, form, found⟩ := formBack h "conditional" _ rfl deep
      simp only [List.forall_mem_cons] at found
      obtain ⟨⟨testAt, testDeep⟩, ⟨consequentAt, consequentDeep⟩, ⟨alternateAt, alternateDeep⟩, -⟩ := found
      simp only [ofJsonWithin, form, Option.bind_eq_bind, Option.bind_some, requiredBack testAt (ih testDeep finite.1.1),
        requiredBack consequentAt (ih consequentDeep finite.1.2), requiredBack alternateAt (ih alternateDeep finite.2)]
    | assignment operator target value =>
      rw [toJson] at deep ⊢
      rw [numbers, List.forall_mem_append] at finite
      obtain ⟨g, form, found⟩ := formBack h "assignment" _ rfl deep
      simp only [List.forall_mem_cons] at found
      obtain ⟨⟨operatorAt, -⟩, ⟨targetAt, targetDeep⟩, ⟨valueAt, valueDeep⟩, -⟩ := found
      simp only [ofJsonWithin, form, Option.bind_eq_bind, Option.bind_some, stringBack h operatorAt,
        requiredBack targetAt (ih targetDeep finite.1), requiredBack valueAt (ih valueDeep finite.2)]
    | other name =>
      obtain ⟨g, form, found⟩ := formBack h "other" _ rfl deep
      obtain ⟨nameAt, -⟩ := List.forall_mem_singleton.mp found
      simp only [toJson, ofJsonWithin, form, Option.bind_eq_bind, Option.bind_some, stringBack h nameAt, Option.map_some]

theorem readBack {e : Expression} (finite : ∀ x ∈ e.numbers, x.isFinite = true) : ofJson? (pass e.toJson) = some e :=
  readWithin h (Nat.le_refl _) finite

end Expression
end Passed
end ClassDocs
