import Mathlib.Data.List.Perm.Basic
import Mathlib.Data.List.TakeWhile
import ClassDocs.Proofs.Registry.Expansion

/-! The type of an enumeration. The search for a common type ends with the first value that has none; what it
has met before decides, so that the order of the values can be told from their type. -/
namespace ClassDocs

/-- All of them are there, and the same. -/
def Shared (types : List (Option String)) (type : String) : Prop := ∀ t ∈ types, t = some type

def Differ (types : List (Option String)) : Prop := ∃ a b, some a ∈ types ∧ some b ∈ types ∧ a ≠ b

/-- Two of them differ before any is missing. -/
def DifferEarly (types : List (Option String)) : Prop := Differ (types.takeWhile Option.isSome)

def Settles (types : List (Option String)) (type : String) : Prop :=
  (types ≠ [] ∧ Shared types type) ∨ (type = mixedType ∧ DifferEarly types)

section Types
variable {types types' : List (Option String)} {a b type : String}

theorem differNil : ¬Differ [] := by
  rintro ⟨a, b, ha, -⟩
  contradiction

theorem differTwice : Differ (some a :: some a :: types) ↔ Differ (some a :: types) := by simp [Differ]

theorem sharedCons : Shared (some a :: types) type ↔ a = type ∧ Shared types type := by
  rw [Shared, List.forall_mem_cons, Option.some_inj, Shared]

theorem sharedMissing : ¬Shared (none :: types) type := by
  intro shared
  have missing := shared none List.mem_cons_self
  contradiction

theorem differOne : ¬Differ [some a] := by
  rintro ⟨b, c, hb, hc, apart⟩
  rw [List.mem_singleton, Option.some_inj] at hb hc
  exact apart (hb.trans hc.symm)

theorem earlyCons : DifferEarly (some a :: types) ↔ Differ (some a :: types.takeWhile Option.isSome) := by
  rw [DifferEarly, List.takeWhile_cons_of_pos (by rfl)]

theorem earlyMissing : ¬DifferEarly (none :: types) := differNil

/- The induction of the search: one type is known, and the rest is to agree with it. -/
theorem commonFrom : commonTypeFrom (some a) types = some type ↔ Settles (some a :: types) type := by
  induction types with
  | nil => simp [commonTypeFrom, Settles, earlyCons, differOne, Shared]
  | cons first rest ih =>
    cases first with
    | none =>
      have early : ¬DifferEarly (some a :: none :: rest) := by
        rw [earlyCons]
        exact differOne
      simp [commonTypeFrom, Settles, sharedCons, sharedMissing, early]
    | some b =>
      rw [commonTypeFrom]
      split
      · rename_i same
        cases same
        rw [ih]
        simp [Settles, sharedCons, earlyCons, differTwice]
      · rename_i apart
        have early : DifferEarly (some a :: some b :: rest) := ⟨a, b, by simp, by simp, apart⟩
        have unshared : ¬Shared (some a :: some b :: rest) type := by
          rw [sharedCons, sharedCons]
          rintro ⟨rfl, rfl, -⟩
          exact apart rfl
        simp only [Settles, early, unshared, and_false, false_or, and_true, Option.some_inj]
        exact eq_comm

theorem commonSettles : commonType types = some type ↔ Settles types type := by
  cases types with
  | nil => simp [commonType, commonTypeFrom, Settles, DifferEarly, differNil]
  | cons first rest =>
    cases first with
    | none => simp [commonType, commonTypeFrom, Settles, sharedMissing, earlyMissing]
    | some a => exact commonFrom

theorem unshared (h : none ∈ types ∨ Differ types) : ¬∃ type, Shared types type := by
  rintro ⟨type, shared⟩
  rcases h with missing | ⟨a, b, ha, hb, apart⟩
  · have there := shared none missing
    contradiction
  · exact apart (Option.some.inj ((shared _ ha).trans (shared _ hb).symm))

theorem sharedOrDiffer (whole : none ∉ types) (inhabited : types ≠ []) : (∃ type, Shared types type) ∨ Differ types := by
  obtain ⟨first, rest, rfl⟩ := List.exists_cons_of_ne_nil inhabited
  cases first with
  | none => exact absurd List.mem_cons_self whole
  | some a =>
    by_cases same : ∀ t ∈ rest, t = some a
    · exact Or.inl ⟨a, sharedCons.mpr ⟨rfl, same⟩⟩
    · obtain ⟨t, ht, apart⟩ : ∃ t ∈ rest, t ≠ some a := by simpa only [not_forall, exists_prop] using same
      cases t with
      | none => exact absurd (List.mem_cons_of_mem _ ht) whole
      | some b => exact Or.inr ⟨a, b, List.mem_cons_self, List.mem_cons_of_mem _ ht, fun here => apart (congrArg some here.symm)⟩

theorem earlyWhole (whole : none ∉ types) : DifferEarly types ↔ Differ types := by
  have all : ∀ t ∈ types, t.isSome = true := by
    intro t ht
    cases t with
    | none => exact absurd ht whole
    | some => rfl
  rw [DifferEarly, List.takeWhile_eq_self_iff.mpr all]

theorem differOfEarly (early : DifferEarly types) : Differ types := by
  obtain ⟨a, b, ha, hb, apart⟩ := early
  exact ⟨a, b, (List.takeWhile_subset _) ha, (List.takeWhile_subset _) hb, apart⟩

section Order
variable (order : types'.Perm types)
include order

theorem differOrder : Differ types' ↔ Differ types := by simp only [Differ, order.mem_iff]

theorem commonOrder (whole : none ∉ types) : commonType types' = commonType types := by
  have whole' : none ∉ types' := fun missing => whole (order.mem_iff.mp missing)
  refine Option.ext fun type => ?_
  have shared : Shared types' type ↔ Shared types type := by simp only [Shared, order.mem_iff]
  have empty : types' ≠ [] ↔ types ≠ [] := by
    rw [ne_eq, ne_eq, ← List.length_eq_zero_iff, order.length_eq, List.length_eq_zero_iff]
  rw [commonSettles, commonSettles, Settles, Settles, earlyWhole whole, earlyWhole whole', differOrder order, shared, empty]

end Order

theorem commonMissing (missing : none ∈ types) : commonType types = some type ↔ type = mixedType ∧ DifferEarly types := by
  rw [commonSettles, Settles, or_iff_right]
  rintro ⟨-, shared⟩
  exact unshared (.inl missing) ⟨type, shared⟩

theorem commonOrMixed (missing : none ∈ types) : (commonType types).or (some mixedType) = some mixedType := by
  cases common : commonType types with
  | none => rfl
  | some type => rw [((commonMissing missing).mp common).1, Option.some_or]

theorem commonAgreeing (missing : none ∈ types) (agreeing : ¬Differ types) : commonType types = none := by
  cases common : commonType types with
  | none => rfl
  | some type => exact absurd (differOfEarly ((commonMissing missing).mp common).2) agreeing

theorem mixedFirst (differ : Differ types) : ∃ types', types'.Perm types ∧ commonType types' = some mixedType := by
  obtain ⟨a, b, ha, hb, apart⟩ := differ
  have next : some b ∈ types.erase (some a) := (List.mem_erase_of_ne fun same => apart (Option.some.inj same).symm).mpr hb
  refine ⟨some a :: some b :: (types.erase (some a)).erase (some b), ?_, by simp [commonType, commonTypeFrom, apart]⟩
  exact ((List.perm_cons_erase ha).trans ((List.perm_cons_erase next).cons _)).symm

theorem missingFirst (missing : none ∈ types) : ∃ types', types'.Perm types ∧ commonType types' = none :=
  ⟨none :: types.erase none, (List.perm_cons_erase missing).symm, rfl⟩

/-- The type that those kinds ask for: the one that they share, `Mixed` when there is none. -/
def IsEnumType (kinds : List (Option String)) (type : String) : Prop :=
  Shared kinds type ∨ (¬∃ kind, Shared kinds kind) ∧ type = mixedType

theorem enumTypeIff {others : Option String} (inhabited : types ≠ []) :
    (∃ type, (commonType types).or others = some type ∧ IsEnumType types type) ↔
      none ∉ types ∨ DifferEarly types ∨ others = some mixedType := by
  by_cases missing : none ∈ types
  · have only (type : String) : IsEnumType types type ↔ type = mixedType := by
      rw [IsEnumType, or_iff_right fun shared => unshared (.inl missing) ⟨type, shared⟩, and_iff_right (unshared (.inl missing))]
    simp only [only, exists_eq_right]
    cases common : commonType types with
    | none =>
      have late : ¬DifferEarly types := by
        intro early
        rw [(commonMissing missing).mpr ⟨rfl, early⟩] at common
        contradiction
      simp [missing, late]
    | some type =>
      obtain ⟨rfl, early⟩ := (commonMissing missing).mp common
      simp [early]
  · refine iff_of_true ?_ (.inl missing)
    rcases sharedOrDiffer missing inhabited with ⟨type, shared⟩ | differ
    · exact ⟨type, by rw [commonSettles.mpr (.inl ⟨inhabited, shared⟩), Option.some_or], .inl shared⟩
    · have mixed : Settles types mixedType := .inr ⟨rfl, (earlyWhole missing).mpr differ⟩
      exact ⟨mixedType, by rw [commonSettles.mpr mixed, Option.some_or], .inr ⟨unshared (.inr differ), rfl⟩⟩

theorem anyOrderIff {others : Option String} :
    (∀ types', types'.Perm types → (commonType types').or others = (commonType types).or others) ↔
      none ∉ types ∨ ¬Differ types ∨ others = some mixedType := by
  by_cases missing : none ∈ types
  · constructor
    · intro same
      by_cases differ : Differ types
      · obtain ⟨mixed, mixedOrder, asMixed⟩ := mixedFirst differ
        obtain ⟨untyped, untypedOrder, asNone⟩ := missingFirst missing
        have ends := (same untyped untypedOrder).trans (same mixed mixedOrder).symm
        rw [asNone, asMixed] at ends
        exact .inr (.inr ends)
      · exact .inr (.inl differ)
    · rintro (whole | agreeing | rfl) types' order
      · exact absurd missing whole
      · rw [commonAgreeing missing agreeing,
          commonAgreeing (order.mem_iff.mpr missing) fun differ => agreeing ((differOrder order).mp differ)]
      · rw [commonOrMixed missing, commonOrMixed (order.mem_iff.mpr missing)]
  · exact iff_of_true (fun types' order => by rw [commonOrder order missing]) (.inl missing)

end Types

namespace Value

def kinds (v : Value) : List (Option String) := v.entries.map fun entry => entry.2.typeName?

theorem enumKinds (v : Value) : (EnumValue.ofValue v).map EnumValue.typeName = v.kinds := by
  rw [enumValues, List.map_map]
  rfl

inductive Reordered : Value → Value → Prop
  | items {given items : List Value} (order : items.Perm given) : Reordered (.array given) (.array items)
  | entries {given entries : List (String × Value)} (order : entries.Perm given) : Reordered (.object given) (.object entries)
  | alone (v : Value) : Reordered v v

variable {v v' : Value}

theorem arrayKinds (items : List Value) : (array items).kinds = items.map typeName? := by
  rw [kinds, Value.entries, List.map_map]
  rfl

theorem kindsReordered (h : v.Reordered v') : v'.kinds.Perm v.kinds := by
  cases h with
  | items order =>
    rw [arrayKinds, arrayKinds]
    exact order.map _
  | entries order => exact order.map _
  | alone => exact .refl _

theorem kindsOrder {α β : Type} {f : α → β} {bs : List β} {as : List α} (order : bs.Perm (as.map f)) :
    ∃ as' : List α, as'.Perm as ∧ as'.map f = bs := by
  have through : Relation.Comp (· = List.map f ·) List.Perm bs as := by rwa [List.eq_map_comp_perm]
  obtain ⟨as', rfl, perm⟩ := through
  exact ⟨as', perm, rfl⟩

theorem reorderedKinds {kinds : List (Option String)} (order : kinds.Perm v.kinds) : ∃ v', v.Reordered v' ∧ v'.kinds = kinds := by
  cases v with
  | array items =>
    rw [arrayKinds] at order
    obtain ⟨items', perm, rfl⟩ := kindsOrder order
    exact ⟨.array items', .items perm, arrayKinds items'⟩
  | object entries =>
    obtain ⟨entries', perm, rfl⟩ := kindsOrder order
    exact ⟨.object entries', .entries perm, rfl⟩
  | _ => exact ⟨_, .alone _, (List.perm_singleton.mp order).symm⟩

end Value

namespace ClassEntry
open Declaration

def enumType? (e : ClassEntry) : Option String := e.record.info.classInfo.enumSpec.bind EnumSpec.typeName

def statedTypes (e : ClassEntry) : List (Option String) := (e.members.filter (·.isProperty)).map (·.info.typeName)

/-- No property lacks a type, those aside that are ignored. -/
def Typed (ms : List Declaration) : Prop := ∀ m ∈ ms, m.kind = .property → m.ignored = false → m.info.typeName ≠ none

theorem typedGained {ms ms' : List Declaration} (h : List.Forall₂ GainsDefault ms ms') : Typed ms' ↔ Typed ms := by
  induction h with
  | nil => rfl
  | @cons m m' _ _ here _ ih =>
    have kind : m'.kind = m.kind := by rw [here.rest]
    have ignored : m'.ignored = m.ignored := by rw [here.rest]
    rw [Typed, List.forall_mem_cons, kind, ignored, here.sameType, Typed, List.forall_mem_cons]
    exact and_congr_right' ih

theorem typedWithType (type : String) (ms : List Declaration) : Typed (ms.map (·.withType type)) := by
  intro m hm property shown
  obtain ⟨m, -, rfl⟩ := List.mem_map.mp hm
  unfold withType at property shown ⊢
  split
  · simp
  · rename_i typed
    simp only [typed, Bool.false_eq_true, if_false] at property shown
    intro untyped
    exact typed (by simp [isProperty, property, shown, untyped])

theorem newNamesEmpty {e : ClassEntry} {names : List String} :
    e.newNames names = [] ↔ ∀ name ∈ names, e.hasMember .property name = true := by
  rw [List.eq_nil_iff_forall_not_mem]
  refine forall_congr' fun name => ?_
  rw [memNewNames, not_and, Bool.not_eq_false]

section Filled
variable {e : ClassEntry} {v : Value} {ms ps : List Declaration} (filled : e.FilledWith (EnumValue.ofValue v) (ms, ps))
include filled

theorem typedFilled : Typed (ms ++ ps) ↔ Typed e.members ∧ ∀ name ∈ v.entries.map Prod.fst, e.hasMember .property name = true := by
  have names := filled.names
  rw [Value.enumNames] at names
  rw [Typed, List.forall_mem_append, ← newNamesEmpty, ← names, List.map_eq_nil_iff]
  refine and_congr (typedGained filled.gains) ⟨fun typed => ?_, fun nothing d hd => ?_⟩
  · rw [List.eq_nil_iff_forall_not_mem]
    intro d hd
    obtain ⟨value, -, rfl⟩ := filled.each d hd
    exact typed _ hd rfl rfl rfl
  · cases nothing
    contradiction

end Filled

section Enumerates
variable {e : ClassEntry} {spec : EnumSpec} {x : Expression} {v : Value} (enum : e.Enumerates spec x) (value : x.evaluate = .ok v)
include enum value

theorem enumTypeEvaluated : e.withEnum.value.enumType? = e.enumType spec (EnumValue.ofValue v) := by
  rw [enumType?, recordExpanded enum, enumeratesEvaluated enum value]
  rfl

theorem typedExpanded : Typed e.withEnum.value.members ↔ e.enumType spec (EnumValue.ofValue v) ≠ none ∨
    Typed e.members ∧ ∀ name ∈ v.entries.map Prod.fst, e.hasMember .property name = true := by
  obtain ⟨ms, ps, filled, expanded⟩ := evaluatedFilled enum value
  rw [expanded, ← typedFilled filled]
  cases e.enumType spec (EnumValue.ofValue v) with
  | none => simp [withEnumType]
  | some type => exact iff_of_true (typedWithType type _) (.inl (Option.some_ne_none type))

end Enumerates

theorem undeclaredType {e : ClassEntry} {spec : EnumSpec} (undeclared : spec.typeName = none) (v : Value) :
    e.enumType spec (EnumValue.ofValue v) = (commonType v.kinds).or (commonType e.statedTypes) := by
  rw [enumType, undeclared, Option.none_or, Value.enumKinds]
  rfl

end ClassEntry

/-- An enumeration that is given no type has the one that its values share, and else `Mixed`, where each value has a kind, or
two kinds differ before a value without one, or what its properties are said to be comes to `Mixed`. Elsewhere it may depend
on the order of the values; and where no type is found, the properties keep what they have. -/
theorem sharedOrMixed (r : Registry) {key : String} {e : ClassEntry} {spec : EnumSpec} {x : Expression} {v : Value}
    (known : r.get? key = some e) (enum : e.Enumerates spec x) (undeclared : spec.typeName = none) (value : x.evaluate = .ok v)
    (inhabited : v.entries ≠ []) :
    ∃ e', r.withEnums.value.get? key = some e' ∧
      ((∃ type, e'.enumType? = some type ∧ IsEnumType v.kinds type) ↔
        none ∉ v.kinds ∨ DifferEarly v.kinds ∨ Settles e.statedTypes mixedType) ∧
      ((∀ v', v.Reordered v' → e.enumType spec (EnumValue.ofValue v') = e'.enumType?) ↔
        none ∉ v.kinds ∨ ¬Differ v.kinds ∨ Settles e.statedTypes mixedType) ∧
      (ClassEntry.Typed e'.members ↔ e'.enumType? ≠ none ∨
        ClassEntry.Typed e.members ∧ ∀ name ∈ v.entries.map Prod.fst, e.hasMember .property name = true) := by
  have type := ClassEntry.enumTypeEvaluated enum value
  have kinds : v.kinds ≠ [] := by rwa [ne_eq, Value.kinds, List.map_eq_nil_iff]
  refine ⟨e.withEnum.value, Registry.getEnums known, ?_, ?_, ?_⟩
  · rw [type, ClassEntry.undeclaredType undeclared, ← commonSettles]
    exact enumTypeIff kinds
  · rw [type, ← commonSettles, ← anyOrderIff]
    simp only [ClassEntry.undeclaredType undeclared]
    constructor
    · intro same types order
      obtain ⟨v', reordered, rfl⟩ := Value.reorderedKinds order
      exact same v' reordered
    · exact fun same v' reordered => same v'.kinds (Value.kindsReordered reordered)
  · rw [type]
    exact ClassEntry.typedExpanded enum value

/- The same three values in two orders: a text and a truth value, and a literal without a kind before or behind them. -/
def aligned (name : String) (values : Expression) : ClassEntry where
  record := {
    kind := .classKind, name := name, files := [⟨"align.js", 1⟩], info := { classInfo := { enumSpec := some { values := some values } } } }

def nullFirst : Expression := .array [.ofNull, .ofString "left", .ofBoolean true]

def nullLast : Expression := .array [.ofString "left", .ofBoolean true, .ofNull]

def alignments : Registry := (Registry.insertEntry .empty (aligned "Start" nullFirst)).insertEntry (aligned "End" nullLast)

theorem endMixed : alignments.get? "End" = some (aligned "End" nullLast) ∧
    (aligned "End" nullLast).Enumerates { values := some nullLast } nullLast ∧
    nullLast.evaluate = .ok (.array [.string "left", .boolean true, .unclassified "null"]) ∧
    ∃ e', alignments.withEnums.value.get? "End" = some e' ∧
      e'.enumType? = some mixedType ∧ ClassEntry.Typed e'.members ∧
      ∃ v', Value.Reordered (.array [.string "left", .boolean true, .unclassified "null"]) v' ∧
        (aligned "End" nullLast).enumType { values := some nullLast } (EnumValue.ofValue v') ≠ some mixedType := by
  have known : alignments.get? "End" = some (aligned "End" nullLast) := by rfl
  have enum : (aligned "End" nullLast).Enumerates { values := some nullLast } nullLast := ⟨rfl, rfl, rfl⟩
  have value : nullLast.evaluate = .ok (.array [.string "left", .boolean true, .unclassified "null"]) := by rfl
  obtain ⟨e', after, fits, order, typed⟩ := sharedOrMixed alignments known enum rfl value (List.cons_ne_nil _ _)
  have differ : Differ [some "String", some "Boolean"] := ⟨"String", "Boolean", by decide⟩
  have missing : none ∈ [some "String", some "Boolean", none] := by decide
  have unsettled : ¬Settles [] mixedType := by
    rintro (⟨some, -⟩ | ⟨-, early⟩)
    · exact some rfl
    · exact differNil early
  obtain ⟨type, found, shared | ⟨-, rfl⟩⟩ := fits.mpr (.inr (.inl differ))
  · exact absurd ⟨type, shared⟩ (unshared (.inl missing))
  · rw [found] at order typed
    refine ⟨known, enum, value, e', after, found, typed.mpr (.inl (Option.some_ne_none _)), ?_⟩
    by_contra steady
    simp only [not_exists, not_and, ne_eq, not_not] at steady
    rcases order.mp steady with whole | agreeing | settled
    · exact whole missing
    · exact agreeing (differOfEarly differ)
    · exact unsettled settled

theorem startUntyped : alignments.get? "Start" = some (aligned "Start" nullFirst) ∧
    (aligned "Start" nullFirst).Enumerates { values := some nullFirst } nullFirst ∧
    ∃ start mixed, nullFirst.evaluate = .ok start ∧ nullLast.evaluate = .ok mixed ∧ start.Reordered mixed ∧
      IsEnumType start.kinds mixedType ∧
      ∃ e f, alignments.withEnums.value.get? "Start" = some e ∧ alignments.withEnums.value.get? "End" = some f ∧
        e.enumType? = none ∧ ¬ClassEntry.Typed e.members ∧ f.enumType? = some mixedType := by
  have startKnown : alignments.get? "Start" = some (aligned "Start" nullFirst) := by rfl
  have endKnown : alignments.get? "End" = some (aligned "End" nullLast) := by rfl
  have startEnum : (aligned "Start" nullFirst).Enumerates { values := some nullFirst } nullFirst := ⟨rfl, rfl, rfl⟩
  have endEnum : (aligned "End" nullLast).Enumerates { values := some nullLast } nullLast := ⟨rfl, rfl, rfl⟩
  have first : nullFirst.evaluate = .ok (.array [.unclassified "null", .string "left", .boolean true]) := by rfl
  have last : nullLast.evaluate = .ok (.array [.string "left", .boolean true, .unclassified "null"]) := by rfl
  have untyped : (aligned "Start" nullFirst).withEnum.value.enumType? = none := ClassEntry.enumTypeEvaluated startEnum first
  have mixed : (aligned "End" nullLast).withEnum.value.enumType? = some mixedType := ClassEntry.enumTypeEvaluated endEnum last
  refine ⟨startKnown, startEnum, _, _, first, last, .items (List.perm_append_singleton _ [_, _]), ?_, _, _,
    Registry.getEnums startKnown, Registry.getEnums endKnown, untyped, ?_, mixed⟩
  · exact .inr ⟨unshared (.inl List.mem_cons_self), rfl⟩
  · rw [ClassEntry.typedExpanded startEnum first, ← ClassEntry.enumTypeEvaluated startEnum first, untyped]
    rintro (typed | ⟨-, all⟩)
    · exact typed rfl
    · have there := all "null" List.mem_cons_self
      contradiction

end ClassDocs
