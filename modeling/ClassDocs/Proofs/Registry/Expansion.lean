import Mathlib.Data.List.Nodup
import ClassDocs.Proofs.Expression.Classification
import ClassDocs.Proofs.Registry.Enumerations
import ClassDocs.Proofs.Registry.Related

/-! What becomes of an enumeration. Each name among its values is a property afterwards; those that were none are added,
in the order in which the values first name them, and the members that were there gain no more than a default and a type. -/
namespace ClassDocs

namespace Value

/-- The values of an enumeration with their names: an item of an array goes by its text, an entry of an object by its key,
and anything else stands alone. -/
def entries : Value → List (String × Value)
  | .array items => items.map fun v => (v.text, v)
  | .object entries => entries
  | v => [(v.text, v)]

theorem enumValues (v : Value) :
    EnumValue.ofValue v = v.entries.map fun entry => ⟨entry.1, entry.2.literal, entry.2.typeName?⟩ := by
  cases v with
  | array items => rw [EnumValue.ofValue, entries, List.map_map]; rfl
  | _ => rfl

theorem enumNames (v : Value) : (EnumValue.ofValue v).map EnumValue.name = v.entries.map Prod.fst := by
  rw [enumValues, List.map_map]
  rfl

def KeysDistinct (v : Value) : Prop := ∀ entries, v = .object entries → (entries.map Prod.fst).Nodup

theorem keysSetEntry {entries : List (String × Value)} (distinct : (entries.map Prod.fst).Nodup) (key : String) (v : Value) :
    ((setEntry entries key v).map Prod.fst).Nodup := by
  unfold setEntry
  split
  · have same : (entries.map fun entry => if entry.1 == key then (key, v) else entry).map Prod.fst = entries.map Prod.fst := by
      rw [List.map_map]
      refine List.map_congr_left fun entry _ => ?_
      by_cases here : entry.1 = key <;> simp [here]
    rwa [same]
  · rename_i fresh
    rw [List.map_append, List.map_singleton, ← List.concat_eq_append, List.nodup_concat]
    refine ⟨fun there => fresh ?_, distinct⟩
    obtain ⟨entry, he, same⟩ := List.mem_map.mp there
    exact List.any_eq_true.mpr ⟨entry, he, beq_iff_eq.mpr same⟩

end Value

namespace Expression

theorem keysOfEntries {done entries : List (String × Value)} {es : List (Expression × Expression)}
    (distinct : (done.map Prod.fst).Nodup) (h : evaluateEntries done es = .ok entries) : (entries.map Prod.fst).Nodup := by
  induction es generalizing done with
  | nil =>
    rw [evaluateEntries] at h
    cases h
    exact distinct
  | cons entry rest ih =>
    obtain ⟨key, e⟩ := entry
    rw [evaluateEntries] at h
    cases hk : keyText key with
    | error => rw [hk] at h; contradiction
    | ok k =>
      cases hv : evaluate e with
      | error => rw [hk, hv] at h; contradiction
      | ok v =>
        rw [hk, hv] at h
        exact ih (Value.keysSetEntry distinct k v) h

theorem evaluatedKeys {e : Expression} {v : Value} (h : e.evaluate = .ok v) : v.KeysDistinct := by
  rintro entries rfl
  cases e with
  | object es =>
    rw [evaluate] at h
    cases values : evaluateEntries [] es with
    | error => rw [values] at h; contradiction
    | ok entries' =>
      rw [values] at h
      cases h
      refine keysOfEntries ?_ values
      exact List.nodup_nil
  | literal raw value =>
    rw [evaluate, Literal.evaluate.eq_def] at h
    split at h
    · cases h
    · cases value <;> cases h
  | array elements =>
    rw [evaluate] at h
    cases items : evaluateAll elements <;> rw [items] at h <;> cases h
  | binary operator left right =>
    obtain ⟨-, l, r, -, -, both⟩ := evaluatePlus h
    unfold Value.concat at both
    split at both <;> cases both
  | member owner property computed =>
    rw [evaluate] at h
    split at h <;> cases h
  | _ => cases h

end Expression

/-- A member before and after an expansion. A property may gain a default and a type that it has not; nothing else changes. -/
structure Declaration.Gains (m m' : Declaration) : Prop where
  others : m.kind ≠ .property → m' = m
  rest : m' = { m with info := { m.info with defaultText := m'.info.defaultText, typeName := m'.info.typeName } }
  defaultKept : m.info.defaultText.isSome = true → m'.info.defaultText = m.info.defaultText
  typeKept : m.info.typeName.isSome = true → m'.info.typeName = m.info.typeName

structure Declaration.GainsType (m m' : Declaration) : Prop extends Declaration.Gains m m' where
  sameDefault : m'.info.defaultText = m.info.defaultText

structure Declaration.GainsDefault (m m' : Declaration) : Prop extends Declaration.Gains m m' where
  sameType : m'.info.typeName = m.info.typeName

namespace Declaration
variable {m m' m'' : Declaration}

theorem gainsSame (m : Declaration) : Gains m m := ⟨fun _ => rfl, rfl, fun _ => rfl, fun _ => rfl⟩

theorem gainsTrans (first : Gains m m') (second : Gains m' m'') : Gains m m'' := by
  have kind : m'.kind = m.kind := by rw [first.rest]
  refine ⟨fun other => ?_, ?_, fun given => ?_, fun given => ?_⟩
  · rw [second.others (kind.symm ▸ other), first.others other]
  · have rest := second.rest
    rw [first.rest] at rest
    exact rest
  · have same := first.defaultKept given
    rw [second.defaultKept (same ▸ given), same]
  · have same := first.typeKept given
    rw [second.typeKept (same ▸ given), same]

theorem gainsDefault (text : String) (property : m.kind = .property) : GainsDefault m (m.withDefault text) := by
  unfold withDefault
  split
  · exact ⟨gainsSame m, rfl⟩
  · rename_i missing
    exact ⟨⟨fun other => absurd property other, rfl, fun given => absurd given missing, fun _ => rfl⟩, rfl⟩

theorem gainsType (type : String) (m : Declaration) : GainsType m (m.withType type) := by
  unfold withType
  split
  · rename_i untyped
    have open' : m.kind = .property ∧ m.info.typeName = none := by
      simp only [isProperty, Bool.and_eq_true, beq_iff_eq, Option.isNone_iff_eq_none] at untyped
      exact ⟨untyped.1.1, untyped.2⟩
    refine ⟨⟨fun other => absurd open'.1 other, rfl, fun _ => rfl, fun given => ?_⟩, rfl⟩
    rw [open'.2] at given
    contradiction
  · exact ⟨gainsSame m, rfl⟩

theorem gainsIsFor (h : Gains m m') (kind : Kind) (name : String) : m'.isFor kind name = m.isFor kind name := by
  rw [h.rest]
  rfl

theorem hasGained {ms ms' : List Declaration} (h : List.Forall₂ Gains ms ms') (kind : Kind) (name : String) :
    ms'.any (·.isFor kind name) = ms.any (·.isFor kind name) := anySame h fun _ _ here => gainsIsFor here kind name

theorem gainsAltered {ms ms' : List Declaration} (h : List.Forall₂ GainsDefault ms ms') (name text : String) :
    List.Forall₂ GainsDefault ms (alterFirst (·.isFor .property name) (·.withDefault text) ms') := by
  induction h with
  | nil => exact .nil
  | cons here rest ih =>
    unfold alterFirst
    split
    · rename_i property
      have given := gainsDefault text (isForIff.mp property).1
      exact .cons ⟨gainsTrans here.toGains given.toGains, given.sameType.trans here.sameType⟩ rest
    · exact .cons here ih

end Declaration

namespace ClassEntry
open Declaration

structure Enumerates (e : ClassEntry) (spec : EnumSpec) (x : Expression) : Prop where
  shown : e.record.ignored = false
  declared : e.record.info.classInfo.enumSpec = some spec
  values : spec.values = some x

/-- The names that no property of the class has, each once, as they first come. -/
def newNames (e : ClassEntry) (names : List String) : List String := (names.filter (!e.hasMember .property ·)).eraseDups

/-- The members of a class before an expansion, `kept` and `added` those after it, and the named values between them. -/
structure Expands (e : ClassEntry) (entries : List (String × Value)) (kept added : List Declaration) : Prop where
  gains : List.Forall₂ Gains e.members kept
  present : ∀ name ∈ entries.map Prod.fst, ∃ m ∈ kept ++ added, m.kind = .property ∧ m.name = name
  names : added.map Declaration.name = e.newNames (entries.map Prod.fst)
  each : ∀ d ∈ added, d.kind = .property ∧ d.owner = some e.record.name ∧ d.files = e.record.files ∧
    ∃ entry, entries.find? (·.1 == d.name) = some entry ∧ d.info.defaultText = some entry.2.literal

/- The members and the properties added to them, once some values have had their turn. -/
structure FilledWith (e : ClassEntry) (values : List EnumValue) (state : List Declaration × List Declaration) : Prop where
  gains : List.Forall₂ GainsDefault e.members state.1
  names : state.2.map Declaration.name = e.newNames (values.map EnumValue.name)
  each : ∀ d ∈ state.2, ∃ v, values.find? (·.name == d.name) = some v ∧ d = e.enumProperty v

theorem memNewNames {e : ClassEntry} {names : List String} {name : String} :
    name ∈ e.newNames names ↔ name ∈ names ∧ e.hasMember .property name = false := by
  rw [newNames, List.mem_eraseDups, List.mem_filter, Bool.not_eq_true']

theorem newNamesConcat (e : ClassEntry) (names : List String) (name : String) : e.newNames (names ++ [name]) =
    if name ∈ e.newNames names ∨ e.hasMember .property name = true then e.newNames names else e.newNames names ++ [name] := by
  cases known : e.hasMember .property name with
  | true => simp [newNames, known]
  | false =>
    have last : [name].filter (!e.hasMember .property ·) = [name] := by simp [known]
    have new : name ∈ e.newNames names ↔ name ∈ names.filter (!e.hasMember .property ·) := List.mem_eraseDups
    rw [newNames, List.filter_append, last, Registry.eraseDupsConcat]
    simp only [new, Bool.false_eq_true, or_false]
    rfl

section Filled
variable {e : ClassEntry} {values : List EnumValue} {state : List Declaration × List Declaration}

theorem filledFirst (e : ClassEntry) : e.FilledWith [] (e.members, []) :=
  ⟨List.forall₂_same.mpr fun m _ => ⟨gainsSame m, rfl⟩, rfl, by simp⟩

theorem filledNext (h : e.FilledWith values state) (v : EnumValue) : e.FilledWith (values ++ [v]) (e.addEnumValue state v) := by
  obtain ⟨ms, ps⟩ := state
  obtain ⟨gains, names, each⟩ := h
  have known : ms.any (·.isFor .property v.name) = e.hasMember .property v.name :=
    hasGained (gains.imp fun _ _ => GainsDefault.toGains) .property v.name
  have added : v.name ∈ e.newNames (values.map EnumValue.name) ↔ ∃ d ∈ ps, d.name = v.name := by
    rw [← names, List.mem_map]
  have earlier : ∀ d ∈ ps, ∃ w, (values ++ [v]).find? (·.name == d.name) = some w ∧ d = e.enumProperty w := by
    intro d hd
    obtain ⟨w, found, rfl⟩ := each d hd
    exact ⟨w, by rw [List.find?_append, found, Option.some_or], rfl⟩
  have concat := e.newNamesConcat (values.map EnumValue.name) v.name
  rw [← List.map_singleton, ← List.map_append] at concat
  rcases e.addEnumValueCases ms ps v with ⟨repeated, step⟩ | ⟨-, property, step⟩ | ⟨fresh, missing, step⟩ <;> rw [step]
  · exact ⟨gains, by rw [concat, if_pos (Or.inl (added.mpr repeated)), names], earlier⟩
  · exact ⟨gainsAltered gains v.name v.literal, by rw [concat, if_pos (Or.inr (known ▸ property)), names], earlier⟩
  · have unknown : e.hasMember .property v.name = false := known ▸ missing
    have new : v.name ∉ e.newNames (values.map EnumValue.name) := fun there => by
      obtain ⟨d, hd, same⟩ := added.mp there
      exact fresh d hd same
    refine ⟨gains, ?_, fun d hd => ?_⟩
    · rw [concat, if_neg (by simp [new, unknown]), List.map_append, names]
      rfl
    · rcases List.mem_append.mp hd with old | last
      · exact earlier d old
      · cases List.mem_singleton.mp last
        refine ⟨v, ?_, rfl⟩
        -- no value before has the name, so the property is that of the first one
        have unnamed : values.find? (·.name == (e.enumProperty v).name) = none := by
          rw [List.find?_eq_none]
          intro w hw same
          exact new (memNewNames.mpr ⟨List.mem_map.mpr ⟨w, hw, eq_of_beq same⟩, unknown⟩)
        rw [List.find?_append, unnamed, Option.none_or]
        exact List.find?_cons_of_pos (beq_self_eq_true v.name)

theorem filledAll (h : e.FilledWith values state) (more : List EnumValue) :
    e.FilledWith (values ++ more) (more.foldl e.addEnumValue state) := by
  induction more generalizing values state with
  | nil => rwa [List.append_nil]
  | cons v rest ih =>
    have later := ih (filledNext h v)
    rwa [List.append_assoc] at later

end Filled

section Typed
variable {e : ClassEntry} {v : Value} {state : List Declaration × List Declaration} {f : Declaration → Declaration}
variable (filled : e.FilledWith (EnumValue.ofValue v) state) (typed : ∀ m, GainsType m (f m))
include filled typed

theorem keptTyped : List.Forall₂ Gains e.members (state.1.map f) :=
  List.forall₂_map_right_iff.mpr (filled.gains.imp fun _ m here => gainsTrans here.toGains (typed m).toGains)

theorem namesTyped : (state.2.map f).map Declaration.name = e.newNames (v.entries.map Prod.fst) := by
  rw [← Value.enumNames, ← filled.names, List.map_map]
  refine List.map_congr_left fun d _ => ?_
  rw [Function.comp_apply, (typed d).rest]

theorem addedTyped {d : Declaration} (hd : d ∈ state.2.map f) :
    d.kind = .property ∧ d.owner = some e.record.name ∧ d.files = e.record.files ∧
      ∃ entry, v.entries.find? (·.1 == d.name) = some entry ∧ d.info.defaultText = some entry.2.literal := by
  obtain ⟨d, made, rfl⟩ := List.mem_map.mp hd
  obtain ⟨value, first, rfl⟩ := filled.each d made
  rw [Value.enumValues, List.find?_map, Option.map_eq_some_iff] at first
  obtain ⟨entry, first, rfl⟩ := first
  rw [(typed _).sameDefault, (typed _).rest]
  exact ⟨rfl, rfl, rfl, entry, first, rfl⟩

theorem expandsTyped : e.Expands v.entries (state.1.map f) (state.2.map f) := by
  refine ⟨keptTyped filled typed, fun name there => ?_, namesTyped filled typed, fun d => addedTyped filled typed⟩
  cases known : e.hasMember .property name with
  | true =>
    rw [hasMember, ← hasGained (keptTyped filled typed)] at known
    obtain ⟨m, hm, property⟩ := List.any_eq_true.mp known
    exact ⟨m, List.mem_append_left _ hm, isForIff.mp property⟩
  | false =>
    have new : name ∈ e.newNames (v.entries.map Prod.fst) := memNewNames.mpr ⟨there, known⟩
    rw [← namesTyped filled typed] at new
    obtain ⟨d, hd, same⟩ := List.mem_map.mp new
    exact ⟨d, List.mem_append_right _ hd, (addedTyped filled typed hd).1, same⟩

end Typed

theorem withEnumTypeMembers (e : ClassEntry) (type : Option String) :
    ∃ f : Declaration → Declaration, (∀ m, GainsType m (f m)) ∧ (e.withEnumType type).members = e.members.map f := by
  cases type with
  | none => exact ⟨id, fun m => ⟨gainsSame m, rfl⟩, (List.map_id _).symm⟩
  | some t => exact ⟨withType t, gainsType t, rfl⟩

/-- The warning that a class brings when its values cannot be told. -/
def unevaluated? (e : ClassEntry) : Option Diagnostic :=
  match e.record.info.classInfo.enumSpec with
  | some spec =>
    if e.record.ignored then none
    else
      match spec.values.map Expression.evaluate with
      | some (.error error) =>
        some (.warning .enumeration ("Unable to evaluate values of enum " ++ e.name ++ ": " ++ error.message) e.record.location?)
      | _ => none
  | none => none

theorem findingsEnum (e : ClassEntry) : e.withEnum.findings = e.unevaluated?.toList := by
  cases declared : e.record.info.classInfo.enumSpec with
  | none => simp only [withEnum, unevaluated?, declared]; rfl
  | some spec =>
    simp only [withEnum, unevaluated?, declared]
    split
    · rfl
    · rw [expandEnum, Reported.findingsBind, enumValues]
      cases spec.values.map Expression.evaluate with
      | none => rfl
      | some result => cases result <;> rfl

def specified (e : ClassEntry) (spec : EnumSpec) : Declaration :=
  { e.record with info := { e.record.info with classInfo := { e.record.info.classInfo with enumSpec := some spec } } }

section Enumerates
variable {e : ClassEntry} {spec : EnumSpec} {x : Expression} (enum : e.Enumerates spec x)
include enum

theorem enumeratesEvaluated {v : Value} (value : x.evaluate = .ok v) : e.enumValues spec = pure (EnumValue.ofValue v) := by
  rw [enumValues, enum.values, Option.map_some, value]

theorem enumeratesFailed {error : EvalError} (failed : x.evaluate = .error error) : (e.enumValues spec).value = [] := by
  rw [enumValues, enum.values, Option.map_some, failed]
  rfl

theorem expandedEnum : e.withEnum.value =
    let state := (e.enumValues spec).value.foldl e.addEnumValue (e.members, [])
    { e with members := state.1 ++ state.2 }.withEnumType (e.enumType spec (e.enumValues spec).value) := by
  rw [withEnum, enum.declared]
  simp only [enum.shown, Bool.false_eq_true, if_false]
  rfl

theorem recordExpanded :
    e.withEnum.value.record = e.specified { spec with typeName := e.enumType spec (e.enumValues spec).value } := by
  rw [expandedEnum enum, specified]
  simp only [withEnumType, enum.declared, Option.map_some]

theorem evaluatedFilled {v : Value} (value : x.evaluate = .ok v) : ∃ ms ps, e.FilledWith (EnumValue.ofValue v) (ms, ps) ∧
    e.withEnum.value = { e with members := ms ++ ps }.withEnumType (e.enumType spec (EnumValue.ofValue v)) := by
  have filled := filledAll (filledFirst e) (EnumValue.ofValue v)
  rw [expandedEnum enum, enumeratesEvaluated enum value, Reported.valuePure]
  exact ⟨_, _, filled, rfl⟩

theorem evaluatedExpands {v : Value} (value : x.evaluate = .ok v) :
    ∃ kept added, e.withEnum.value.members = kept ++ added ∧ e.Expands v.entries kept added := by
  obtain ⟨ms, ps, filled, expanded⟩ := evaluatedFilled enum value
  obtain ⟨f, typed, members⟩ := withEnumTypeMembers { e with members := ms ++ ps } (e.enumType spec (EnumValue.ofValue v))
  exact ⟨ms.map f, ps.map f, by rw [expanded, members, List.map_append], expandsTyped filled typed⟩

theorem failedMembers {error : EvalError} (failed : x.evaluate = .error error) :
    List.Forall₂ GainsType e.members e.withEnum.value.members := by
  rw [expandedEnum enum, enumeratesFailed enum failed]
  obtain ⟨f, typed, members⟩ := withEnumTypeMembers { e with members := e.members ++ [] } (e.enumType spec [])
  simp only [List.foldl_nil]
  rw [members, List.append_nil, List.forall₂_map_right_iff]
  exact List.forall₂_same.mpr fun m _ => typed m

theorem failedWarning {error : EvalError} (failed : x.evaluate = .error error) :
    ∃ w, e.unevaluated? = some w ∧ w.level = .warning ∧ w.category = .enumeration := by
  simp only [unevaluated?, enum.declared, enum.shown, enum.values, Option.map_some, failed, Bool.false_eq_true, if_false]
  exact ⟨_, rfl, rfl, rfl⟩

end Enumerates

end ClassEntry

theorem Registry.getEnums {r : Registry} {key : String} {e : ClassEntry} (known : r.get? key = some e) :
    r.withEnums.value.get? key = some e.withEnum.value := by
  simp only [withEnums, OrderedMap.getMap, known, Option.map_some]

theorem Registry.findingsEnums (r : Registry) : r.withEnums.findings = r.values.filterMap ClassEntry.unevaluated? := by
  simp only [withEnums, OrderedMap.valuesMap, List.flatMap_map, ClassEntry.findingsEnum]
  exact (List.filterMap_eq_flatMap_toList _ _).symm

/-- The values of an enumeration become its properties. When they cannot be told, a warning comes of it, and types only. -/
theorem valuesExpanded (r : Registry) {key : String} {e : ClassEntry} {spec : EnumSpec} {x : Expression}
    (known : r.get? key = some e) (enum : e.Enumerates spec x) :
    r.withEnums.findings = r.values.filterMap ClassEntry.unevaluated? ∧
    ∃ e' type, r.withEnums.value.get? key = some e' ∧ e'.record = e.specified { spec with typeName := type } ∧
      (∀ v, x.evaluate = .ok v →
        v.KeysDistinct ∧ ∃ kept added, e'.members = kept ++ added ∧ e.Expands v.entries kept added) ∧
      (∀ error, x.evaluate = .error error →
        List.Forall₂ Declaration.GainsType e.members e'.members ∧
        ∃ w, e.unevaluated? = some w ∧ w.level = .warning ∧ w.category = .enumeration) := by
  refine ⟨r.findingsEnums, e.withEnum.value, _, Registry.getEnums known, ClassEntry.recordExpanded enum, fun v value => ?_,
    fun error failed => ?_⟩
  · exact ⟨Expression.evaluatedKeys value, ClassEntry.evaluatedExpands enum value⟩
  · exact ⟨ClassEntry.failedMembers enum failed, ClassEntry.failedWarning enum failed⟩

/- A text and a truth value of one name, a property that is written out and a method that is not one; and values that are not there. -/
def sideList : Expression := .array [.ofString "left", .ofBoolean true, .ofString "true", .ofString "left"]

def sides : ClassEntry where
  record := {
    kind := .classKind, name := "Side", files := [⟨"side.js", 1⟩], info := { classInfo := { enumSpec := some { values := some sideList } } } }
  members := [
    { kind := .property, name := "left", owner := some "Side", files := [⟨"side.js", 4⟩] },
    { kind := .method, name := "true", owner := some "Side", files := [⟨"side.js", 8⟩] }]

def axes : ClassEntry where
  record := {
    kind := .classKind, name := "Axis", files := [⟨"axis.js", 1⟩]
    info := { classInfo := { enumSpec := some { values := some (.identifier "AXES") } } } }
  members := [{ kind := .property, name := "x", owner := some "Axis", files := [⟨"axis.js", 5⟩], info := { typeName := some "Number" } }]

def sideRegistry : Registry := (Registry.insertEntry .empty sides).insertEntry axes

theorem sidesExpanded : sideRegistry.get? "Side" = some sides ∧ sides.Enumerates { values := some sideList } sideList ∧
    (∃ e' kept added, sideRegistry.withEnums.value.get? "Side" = some e' ∧ e'.members = kept ++ added ∧
      List.Forall₂ Declaration.Gains sides.members kept ∧ ∃ d, added = [d] ∧ d.name = "true" ∧ d.info.defaultText = some "true") ∧
    sideRegistry.get? "Axis" = some axes ∧ axes.Enumerates { values := some (.identifier "AXES") } (.identifier "AXES") ∧
    ∃ e', sideRegistry.withEnums.value.get? "Axis" = some e' ∧ List.Forall₂ Declaration.GainsType axes.members e'.members := by
  have side : sideRegistry.get? "Side" = some sides := by rfl
  have axis : sideRegistry.get? "Axis" = some axes := by rfl
  have sideEnum : sides.Enumerates { values := some sideList } sideList := ⟨rfl, rfl, rfl⟩
  have axisEnum : axes.Enumerates { values := some (.identifier "AXES") } (.identifier "AXES") := ⟨rfl, rfl, rfl⟩
  obtain ⟨-, e₁, -, after₁, -, evaluated, -⟩ := valuesExpanded sideRegistry side sideEnum
  obtain ⟨-, kept, added, members, expands⟩ := evaluated (.array [.string "left", .boolean true, .string "true", .string "left"]) (by rfl)
  have names : added.map Declaration.name = ["true"] := expands.names.trans (by cbv)
  obtain ⟨d, rest, rfl, name, nothing⟩ := List.map_eq_cons_iff.mp names
  cases List.map_eq_nil_iff.mp nothing
  obtain ⟨-, -, -, entry, first, text⟩ := expands.each d List.mem_cons_self
  rw [name] at first
  cases first
  obtain ⟨-, e₂, -, after₂, -, -, failed⟩ := valuesExpanded sideRegistry axis axisEnum
  obtain ⟨typesOnly, -⟩ := failed (.unknownNode "Identifier") (by rfl)
  exact ⟨side, sideEnum, ⟨e₁, kept, [d], after₁, members, expands.gains, d, rfl, name, text⟩, axis, axisEnum, e₂, after₂, typesOnly⟩

end ClassDocs
