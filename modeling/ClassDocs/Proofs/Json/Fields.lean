import Mathlib.Data.List.Nodup
import ClassDocs.Declaration.Json
import ClassDocs.OrderedMap

/-! Objects as they are written and read. A field with nothing to say is left out, reading goes by the names, and so it does
not matter in which order the fields of an object are handed on. -/
namespace ClassDocs.Json

/-- The fields of an object, without those that have nothing to say. -/
def fieldsOf (slots : List (String × Option Json)) : List (String × Json) := slots.flatMap fun s => field? s.1 s.2

/-- What `pass` hands on is the same data, but for the order of fields. -/
structure Keeps (pass : Json → Json) : Prop where
  bool : ∀ b, pass (.bool b) = .bool b
  int : ∀ n, pass (.int n) = .int n
  float : ∀ x, pass (.float x) = .float x
  string : ∀ s, pass (.string s) = .string s
  array : ∀ items, pass (.array items) = .array (items.map pass)
  object : ∀ fields, (fields.map Prod.fst).Nodup →
    ∃ fields', pass (.object fields) = .object fields' ∧ fields'.Perm (fields.map fun f => (f.1, pass f.2))

theorem keepsSame : Keeps id where
  bool _ := rfl
  int _ := rfl
  float _ := rfl
  string _ := rfl
  array items := by rw [List.map_id]; rfl
  object fields _ := ⟨fields, rfl, .of_eq (List.map_id fields).symm⟩

section Maps
variable {name : String} {value : Json} {done : List (String × Json)}

theorem asMapsItemsMap (items : List Json) : asMapsItems items = items.map asMaps := by
  induction items with
  | nil => rfl
  | cons j rest ih => rw [asMapsItems, ih, List.map_cons]

theorem putSortedFresh (fresh : name ∉ done.map Prod.fst) : (putSorted name value done).Perm ((name, value) :: done) := by
  induction done with
  | nil => exact .refl _
  | cons entry rest ih =>
    obtain ⟨n, v⟩ := entry
    simp only [List.map_cons, List.mem_cons, not_or] at fresh
    rw [putSorted, if_neg fresh.1]
    split
    · exact .refl _
    · exact ((ih fresh.2).cons _).trans (.swap _ _ _)

theorem asMapsFieldsPerm (fields : List (String × Json)) (distinct : ((done ++ fields).map Prod.fst).Nodup) :
    (asMapsFields done fields).Perm (done ++ fields.map fun f => (f.1, asMaps f.2)) := by
  induction fields generalizing done with
  | nil => rw [asMapsFields, List.map_nil, List.append_nil]
  | cons entry rest ih =>
    obtain ⟨n, v⟩ := entry
    have fresh : n ∉ done.map Prod.fst := by
      rw [List.map_append, List.nodup_append] at distinct
      exact fun known => distinct.2.2 n known n (by simp) rfl
    have placed : (putSorted n (asMaps v) done).Perm ((n, asMaps v) :: done) := putSortedFresh fresh
    have regrouped : (putSorted n (asMaps v) done ++ rest).Perm ((n, asMaps v) :: done ++ rest) := placed.append_right rest
    have still : ((putSorted n (asMaps v) done ++ rest).map Prod.fst).Nodup := by
      rw [(regrouped.map Prod.fst).nodup_iff]
      rw [List.map_append, List.map_cons] at distinct ⊢
      exact List.perm_middle.nodup_iff.mp distinct
    rw [asMapsFields]
    refine (ih still).trans ((placed.append_right _).trans ?_)
    exact List.perm_middle.symm

end Maps

theorem keepsMaps : Keeps asMaps where
  bool _ := rfl
  int _ := rfl
  float _ := rfl
  string _ := rfl
  array items := by rw [asMaps, asMapsItemsMap]
  object fields distinct := ⟨asMapsFields [] fields, rfl, asMapsFieldsPerm fields (by simpa using distinct)⟩

theorem memFieldsOf {slots : List (String × Option Json)} {name : String} {j : Json} :
    (name, j) ∈ fieldsOf slots ↔ (name, some j) ∈ slots := by
  rw [fieldsOf, List.mem_flatMap]
  constructor
  · rintro ⟨⟨n, value⟩, hs, hj⟩
    cases value with
    | none => contradiction
    | some v =>
      cases List.mem_singleton.mp hj
      exact hs
  · exact fun hs => ⟨_, hs, List.mem_singleton.mpr rfl⟩

theorem allThere (fields : List (String × Json)) : fieldsOf (fields.map fun f => (f.1, some f.2)) = fields := by
  rw [fieldsOf, List.flatMap_map]
  exact List.flatMap_singleton' fields

theorem namesOfFields (slots : List (String × Option Json)) : ((fieldsOf slots).map Prod.fst).Sublist (slots.map Prod.fst) := by
  induction slots with
  | nil => exact .slnil
  | cons s rest ih =>
    obtain ⟨name, value⟩ := s
    cases value with
    | none => exact ih.cons name
    | some v => exact ih.cons_cons name

theorem depthPos (j : Json) : 0 < j.depth := by
  cases j <;> exact Nat.succ_pos _

theorem depthOfItem {items : List Json} {j : Json} (h : j ∈ items) : j.depth ≤ depthItems items := by
  induction items with
  | nil => contradiction
  | cons first rest ih =>
    rw [depthItems]
    rcases List.mem_cons.mp h with rfl | later
    · exact Nat.le_max_left ..
    · exact Nat.le_trans (ih later) (Nat.le_max_right ..)

theorem depthOfField {fields : List (String × Json)} {name : String} {j : Json} (h : (name, j) ∈ fields) :
    j.depth ≤ depthFields fields := by
  induction fields with
  | nil => contradiction
  | cons first rest ih =>
    rw [depthFields]
    rcases List.mem_cons.mp h with rfl | later
    · exact Nat.le_max_left ..
    · exact Nat.le_trans (ih later) (Nat.le_max_right ..)

section Object
variable {pass : Json → Json} (h : Keeps pass) {slots : List (String × Option Json)} (distinct : (slots.map Prod.fst).Nodup)
include h distinct

/- What an object with the declared `names` is read by, wherever its fields stand and whatever else is there. -/
theorem givenAmong (names : List String) : ∃ g, given? names (pass (.object (fieldsOf slots))) = some g ∧
    g.positional = false ∧ ∀ s ∈ slots, s.1 ∈ names → g.lookup s.1 = s.2.map pass := by
  have written : ((fieldsOf slots).map Prod.fst).Nodup := distinct.sublist (namesOfFields slots)
  obtain ⟨fields, passed, same⟩ := h.object _ written
  have apart : (fields.map Prod.fst).Nodup := by
    rw [(same.map Prod.fst).nodup_iff, List.map_map]
    exact written
  let known : OrderedMap Json := ⟨fields.filter fun f => names.contains f.1, apart.sublist (List.filter_sublist.map _)⟩
  refine ⟨⟨false, known.entries⟩, by rw [passed, given?, if_pos known.distinct], rfl, fun s hs declared => ?_⟩
  refine Option.ext fun value => (OrderedMap.getIffMem (m := known)).trans ?_
  rw [List.mem_filter, same.mem_iff, List.mem_map, Option.map_eq_some_iff]
  constructor
  · rintro ⟨⟨⟨name, j⟩, hj, pair⟩, -⟩
    cases pair
    have one : s = (s.1, some j) := List.inj_on_of_nodup_map distinct hs (memFieldsOf.mp hj) rfl
    exact ⟨j, by rw [one], rfl⟩
  · rintro ⟨j, given, rfl⟩
    refine ⟨⟨(s.1, j), memFieldsOf.mpr ?_, rfl⟩, List.contains_iff_mem.mpr declared⟩
    rwa [← given]

theorem objectPassed : ∃ fields, pass (.object (fieldsOf slots)) = .object fields := by
  obtain ⟨fields, passed, -⟩ := h.object _ (distinct.sublist (namesOfFields slots))
  exact ⟨fields, passed⟩

theorem depthInObject {name : String} {j : Json} (hj : (name, some j) ∈ slots) :
    (pass j).depth < (pass (.object (fieldsOf slots))).depth := by
  obtain ⟨fields, passed, same⟩ := h.object _ (distinct.sublist (namesOfFields slots))
  have there : (name, pass j) ∈ fields := same.mem_iff.mpr (List.mem_map.mpr ⟨(name, j), memFieldsOf.mpr hj, rfl⟩)
  rw [passed, depth]
  exact Nat.lt_succ_of_le (depthOfField there)

end Object

/- All fields of a structure are declared. -/
theorem givenBack {pass : Json → Json} (h : Keeps pass) (names : List String) (distinct : names.Nodup)
    (slots : List (String × Option Json)) (all : slots.map Prod.fst = names) :
    ∃ g, given? names (pass (.object (fieldsOf slots))) = some g ∧ g.positional = false ∧
      ∀ s ∈ slots, g.lookup s.1 = s.2.map pass := by
  subst all
  obtain ⟨g, read, byName, found⟩ := givenAmong h distinct (slots.map Prod.fst)
  exact ⟨g, read, byName, fun s hs => found s hs (List.mem_map_of_mem hs)⟩

theorem depthOfPassed {α : Type} {pass : Json → Json} (h : Keeps pass) {n : Nat} {encode : α → Json} {items : List α} {a : α}
    (deep : (pass (.array (items.map encode))).depth ≤ n) (ha : a ∈ items) : (pass (encode a)).depth ≤ n := by
  rw [h.array, depth, List.map_map] at deep
  have item : pass (encode a) ∈ items.map (pass ∘ encode) := List.mem_map_of_mem ha
  exact Nat.le_trans (depthOfItem item) (Nat.le_of_succ_le deep)

/- Items come back one by one. -/
theorem listBack {α : Type} {encode : α → Json} {decode : Json → Option α} {items : List α}
    (back : ∀ a ∈ items, decode (encode a) = some a) : list? decode (.array (items.map encode)) = some items := by
  rw [list?]
  induction items with
  | nil => rfl
  | cons a rest ih =>
    obtain ⟨first, later⟩ := List.forall_mem_cons.mp back
    rw [List.map_cons, List.mapM_cons, first, ih later]
    rfl

theorem listPassed {α : Type} {pass : Json → Json} (h : Keeps pass) {encode : α → Json} {decode : Json → Option α}
    {items : List α} (back : ∀ a ∈ items, decode (pass (encode a)) = some a) :
    list? decode (pass (.array (items.map encode))) = some items := by
  rw [h.array, List.map_map]
  exact listBack back

theorem natBack {bound n : Nat} (small : n < bound) : natBelow? bound (.int n) = some n := by
  rw [natBelow?, if_pos ⟨Int.natCast_nonneg n, Int.ofNat_lt.mpr small⟩]
  rfl

theorem stringPassed {pass : Json → Json} (h : Keeps pass) (s : String) : string? (pass (.string s)) = some s := by
  rw [h.string]
  rfl

/-- A list that is left out when it is empty. -/
def listSlot (items : List Json) : Option Json := if items.isEmpty then none else some (.array items)

theorem listFieldSlot (name : String) (items : List Json) : listField name items = field? name (listSlot items) := by
  cases items <;> rfl

namespace Given
variable {α : Type} {g : Given} {name : String} {decode : Json → Option α} {a : α}

theorem bindBack {β : Type} {read : Option α} {next : α → Option β} (back : read = some a) : (read >>= next) = next a := by
  rw [back]
  rfl

theorem requiredBack {j : Json} (found : g.lookup name = some j) (back : decode j = some a) :
    g.required name decode = some a := by
  rw [required, found]
  exact back

theorem defaultBack {j : Json} {missing : α} (found : g.lookup name = some j) (back : decode j = some a) :
    g.withDefault name decode missing = some a := by
  rw [withDefault, found]
  exact back

section Passed
variable {pass : Json → Json} (h : Keeps pass)

theorem nullableBack {encode : α → Json} {value : Option α} (found : g.lookup name = (value.map encode).map pass)
    (null : decode .null = none) (back : ∀ a ∈ value, decode (pass (encode a)) = some a) :
    g.nullable name decode = some value := by
  rw [nullable, found]
  cases value with
  | none => rfl
  | some a =>
    have read := back a rfl
    cases seen : pass (encode a) with
    | null => rw [seen, null] at read; contradiction
    | _ => simp only [Option.map_some, seen] at read ⊢; rw [read]; rfl

theorem optionalBack {encode : α → Json} {value : Option α} (byName : g.positional = false)
    (found : g.lookup name = (value.map encode).map pass) (null : decode .null = none)
    (back : ∀ a ∈ value, decode (pass (encode a)) = some a) : g.optional name decode = some value := by
  rw [optional, byName, Bool.false_and, if_neg Bool.false_ne_true]
  exact nullableBack found null back

include h

theorem stringBack {s : String} (found : g.lookup name = some (pass (.string s))) : g.required name string? = some s :=
  requiredBack found (stringPassed h s)

theorem textBack {value : Option String} (byName : g.positional = false)
    (found : g.lookup name = (value.map Json.string).map pass) : g.optional name string? = some value :=
  optionalBack byName found rfl fun s _ => stringPassed h s

theorem boolBack {b : Bool} (found : g.lookup name = some (pass (.bool b))) : g.required name bool? = some b :=
  requiredBack found (by rw [h.bool]; rfl)

theorem flagBack {b : Bool} (found : g.lookup name = some (pass (.bool b))) : g.flag name = some b :=
  defaultBack found (by rw [h.bool]; rfl)

theorem itemsBack {encode : α → Json} {items : List α} (found : g.lookup name = some (pass (.array (items.map encode))))
    (back : ∀ a ∈ items, decode (pass (encode a)) = some a) : g.required name (list? decode) = some items :=
  requiredBack found (listPassed h back)

theorem listSlotBack {encode : α → Json} {items : List α} (found : g.lookup name = (listSlot (items.map encode)).map pass)
    (back : ∀ a ∈ items, decode (pass (encode a)) = some a) : g.withDefault name (list? decode) [] = some items := by
  cases items with
  | nil => rw [withDefault, found]; rfl
  | cons first rest => exact defaultBack found (listPassed h back)

end Passed
end Given
end ClassDocs.Json
