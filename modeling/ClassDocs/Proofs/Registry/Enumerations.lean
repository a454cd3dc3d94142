import ClassDocs.Proofs.Registry.Outline

/-! Enumerations expanded. Every value has a property with a default afterwards, and what was added for it
has no type of its own; so a second expansion finds all values served, and the type it would give. -/
namespace ClassDocs

namespace Declaration
variable {p q : Declaration → Bool} {f : Declaration → Declaration} {ds : List Declaration} {d : Declaration}

theorem alterFirstSame (found : ds.find? p = some d) (same : f d = d) : alterFirst p f ds = ds := by
  obtain ⟨before, after, rfl, others, here⟩ := findSplit found
  rw [alterFirstAt others here, same]

theorem findAltered (keeps : ∀ d, p (f d) = p d) (found : ds.find? p = some d) : (alterFirst p f ds).find? p = some (f d) := by
  obtain ⟨before, after, rfl, others, here⟩ := findSplit found
  rw [alterFirstAt others here, findAt others ((keeps d).trans here)]

theorem findAlterFirst (keeps : ∀ d, q (f d) = q d) (found : ds.find? q = some d) :
    (alterFirst p f ds).find? q = some d ∨ (alterFirst p f ds).find? q = some (f d) := by
  induction ds with
  | nil => contradiction
  | cons first rest ih =>
    by_cases mine : q first = true
    · rw [List.find?_cons_of_pos mine] at found
      cases found
      unfold alterFirst
      split
      · exact Or.inr (List.find?_cons_of_pos ((keeps d).trans mine))
      · exact Or.inl (List.find?_cons_of_pos mine)
    · rw [List.find?_cons_of_neg mine] at found
      unfold alterFirst
      split
      · rw [List.find?_cons_of_neg (by rwa [keeps])]
        exact Or.inl found
      · rw [List.find?_cons_of_neg mine]
        exact ih found

theorem findMap {g : Declaration → Declaration} (keeps : ∀ d, p (g d) = p d) : (ds.map g).find? p = (ds.find? p).map g := by
  have same : p ∘ g = p := funext keeps
  rw [List.find?_map, same]

theorem defaultGiven (text : String) (d : Declaration) : (d.withDefault text).info.defaultText.isSome = true := by
  unfold withDefault
  split
  · assumption
  · rfl

theorem defaultKept {text : String} (given : d.info.defaultText.isSome = true) : d.withDefault text = d := by
  rw [withDefault, if_pos given]

theorem alterFirstAppend (known : ds.any p = true) (more : List Declaration) :
    alterFirst p f (ds ++ more) = alterFirst p f ds ++ more := by
  obtain ⟨before, d, after, rfl, others, here⟩ := anySplit known
  rw [List.append_assoc, List.cons_append, alterFirstAt others here, alterFirstAt others here, List.append_assoc,
    List.cons_append]

theorem anyAlterFirst (keeps : ∀ d, q (f d) = q d) : (alterFirst p f ds).any q = ds.any q := by
  have flags := mapAlterFirst (p := p) (f := f) (g := q) keeps ds
  simpa [List.any_map] using congrArg (List.any · id) flags

theorem withTypeTwice (type : String) (d : Declaration) : (d.withType type).withType type = d.withType type := by
  unfold withType
  split
  · rw [if_neg (by simp)]
  · rfl

theorem defaultWithType (type : String) (d : Declaration) : (d.withType type).info.defaultText = d.info.defaultText := by
  unfold withType
  split <;> rfl

theorem typeWithDefault (text : String) (d : Declaration) : (d.withDefault text).info.typeName = d.info.typeName := by
  unfold withDefault
  split <;> rfl

end Declaration

namespace ClassEntry

/- The first property of that name stands for the value. -/
def Serves (ms : List Declaration) (v : EnumValue) : Prop :=
  ∃ m, ms.find? (·.isFor .property v.name) = some m ∧ m.info.defaultText.isSome = true

theorem servesAppend {ms : List Declaration} {v : EnumValue} (served : Serves ms v) (more : List Declaration) :
    Serves (ms ++ more) v := by
  obtain ⟨m, found, given⟩ := served
  exact ⟨m, by rw [List.find?_append, found, Option.some_or], given⟩

theorem servesWithType {ms : List Declaration} {v : EnumValue} (served : Serves ms v) (type : String) :
    Serves (ms.map (·.withType type)) v := by
  obtain ⟨m, found, given⟩ := served
  refine ⟨m.withType type, ?_, by rwa [Declaration.defaultWithType]⟩
  rw [Declaration.findMap fun d => Declaration.isForOutline (Declaration.outlineWithType type d), found]
  rfl

/- What values have added so far: properties of new names, with a default and without a type. -/
def AddedProperties (state : List Declaration × List Declaration) : Prop :=
  ∀ d ∈ state.2, d.kind = .property ∧ d.info.defaultText.isSome = true ∧ d.info.typeName = none ∧
    state.1.any (·.isFor .property d.name) = false

section Values
variable {state : List Declaration × List Declaration} (e : ClassEntry) (v : EnumValue)

theorem addedProperties (added : AddedProperties state) : AddedProperties (e.addEnumValue state v) := by
  obtain ⟨ms, ps⟩ := state
  rcases e.addEnumValueCases ms ps v with ⟨-, step⟩ | ⟨-, -, step⟩ | ⟨-, missing, step⟩ <;> rw [step]
  · exact added
  · intro d hd
    obtain ⟨property, given, untyped, fresh⟩ := added d hd
    refine ⟨property, given, untyped, ?_⟩
    rwa [Declaration.anyAlterFirst fun d => Declaration.isForOutline (Declaration.outlineWithDefault v.literal d)]
  · intro d hd
    rcases List.mem_append.mp hd with old | new
    · exact added d old
    · cases List.mem_singleton.mp new
      exact ⟨rfl, rfl, rfl, missing⟩

theorem addedServes (added : AddedProperties state) :
    Serves ((e.addEnumValue state v).1 ++ (e.addEnumValue state v).2) v := by
  obtain ⟨ms, ps⟩ := state
  rcases e.addEnumValueCases ms ps v with ⟨⟨d, hd, same⟩, step⟩ | ⟨-, known, step⟩ | ⟨fresh, missing, step⟩ <;> rw [step]
  · obtain ⟨property, -, -, fresh⟩ := added d hd
    -- no member has the name of a property that a value has added
    have absent : ms.find? (·.isFor .property v.name) = none := by
      rw [List.find?_eq_none]
      simpa [same] using fresh
    have present : (ps.find? (·.isFor .property v.name)).isSome = true :=
      List.find?_isSome.mpr ⟨d, hd, by simp [Declaration.isFor, property, same]⟩
    obtain ⟨m, found⟩ := Option.isSome_iff_exists.mp present
    refine ⟨m, by rw [List.find?_append, absent, found]; rfl, ?_⟩
    exact (added m (List.mem_of_find?_eq_some found)).2.1
  · obtain ⟨m, found⟩ := Option.isSome_iff_exists.mp (List.find?_isSome.mpr (List.any_eq_true.mp known))
    have keeps (d : Declaration) : (d.withDefault v.literal).isFor .property v.name = d.isFor .property v.name :=
      Declaration.isForOutline (Declaration.outlineWithDefault v.literal d)
    exact servesAppend ⟨_, Declaration.findAltered keeps found, Declaration.defaultGiven v.literal m⟩ ps
  · refine ⟨e.enumProperty v, ?_, rfl⟩
    have absent : (ms ++ ps).find? (·.isFor .property v.name) = none := by
      rw [List.find?_eq_none]
      intro d hd same
      rcases List.mem_append.mp hd with old | new
      · exact List.any_eq_false.mp missing d old same
      · exact fresh d new (Declaration.isForIff.mp same).2
    rw [← List.append_assoc, List.find?_append, absent]
    simp [Declaration.isFor, enumProperty]

theorem servedKept {w : EnumValue} (served : Serves (state.1 ++ state.2) w) :
    Serves ((e.addEnumValue state v).1 ++ (e.addEnumValue state v).2) w := by
  obtain ⟨ms, ps⟩ := state
  rcases e.addEnumValueCases ms ps v with ⟨-, step⟩ | ⟨-, known, step⟩ | ⟨-, -, step⟩ <;> rw [step]
  · exact served
  · obtain ⟨m, found, given⟩ := served
    have keeps (d : Declaration) : (d.withDefault v.literal).isFor .property w.name = d.isFor .property w.name :=
      Declaration.isForOutline (Declaration.outlineWithDefault v.literal d)
    rw [← Declaration.alterFirstAppend known]
    rcases Declaration.findAlterFirst keeps found with same | changed
    · exact ⟨m, same, given⟩
    · exact ⟨_, changed, Declaration.defaultGiven v.literal m⟩
  · rw [← List.append_assoc]
    exact servesAppend served _

theorem typesKept : (e.addEnumValue state v).1.map (fun m => (m.isProperty, m.info.typeName)) =
    state.1.map fun m => (m.isProperty, m.info.typeName) := by
  refine membersEnumValue e state.1 state.2 v fun d => ?_
  have sameKind : (d.withDefault v.literal).kind = d.kind :=
    congrArg Outline.kind (Declaration.outlineWithDefault v.literal d)
  rw [Declaration.isProperty, Declaration.isProperty, sameKind, Declaration.typeWithDefault]

/- All values of an enumeration, one after another: what one value leaves true stays true. -/
theorem valuesServed (values : List EnumValue) {served : List EnumValue} (added : AddedProperties state)
    (before : ∀ v ∈ served, Serves (state.1 ++ state.2) v) :
    let after := values.foldl e.addEnumValue state
    AddedProperties after ∧ (∀ v ∈ served ++ values, Serves (after.1 ++ after.2) v) ∧
      after.1.map (fun m => (m.isProperty, m.info.typeName)) = state.1.map fun m => (m.isProperty, m.info.typeName) := by
  induction values generalizing state served with
  | nil => exact ⟨added, by simpa using before, rfl⟩
  | cons v rest ih =>
    have now : ∀ w ∈ served ++ [v], Serves ((e.addEnumValue state v).1 ++ (e.addEnumValue state v).2) w := by
      intro w hw
      rcases List.mem_append.mp hw with old | new
      · exact servedKept e v (before w old)
      · cases List.mem_singleton.mp new
        exact addedServes e v added
    obtain ⟨added, serves, types⟩ := ih (addedProperties e v added) now
    refine ⟨added, fun w hw => serves w (by simpa using hw), ?_⟩
    rw [List.foldl_cons, types, typesKept]

theorem addEnumValueServed {ms : List Declaration} {v : EnumValue} (served : Serves ms v) :
    e.addEnumValue (ms, []) v = (ms, []) := by
  obtain ⟨m, found, given⟩ := served
  have known : ms.any (·.isFor .property v.name) = true := List.any_eq_true.mpr
    ⟨m, List.mem_of_find?_eq_some found, List.find?_some found⟩
  simp only [addEnumValue, List.any_nil, Bool.false_eq_true, if_false, known, if_true,
    Declaration.alterFirstSame found (Declaration.defaultKept given)]

theorem valuesSettled {ms : List Declaration} {values : List EnumValue} (served : ∀ v ∈ values, Serves ms v) :
    values.foldl e.addEnumValue (ms, []) = (ms, []) := by
  induction values with
  | nil => rfl
  | cons v rest ih =>
    rw [List.foldl_cons, addEnumValueServed e (served v List.mem_cons_self),
      ih fun w hw => served w (List.mem_cons_of_mem _ hw)]

end Values

theorem enumValuesSame {e e' : ClassEntry} {spec spec' : EnumSpec} (same : spec'.values = spec.values) :
    (e'.enumValues spec').value = (e.enumValues spec).value := by
  simp only [enumValues, same]
  split <;> rfl

/- A type that was not to be found is not found later: the properties that were added have none. -/
theorem commonTypeMore {common : Option String} {types more : List (Option String)}
    (nothing : commonTypeFrom common types = none) (untyped : ∀ type ∈ more, type = none) :
    commonTypeFrom common (types ++ more) = none := by
  induction types generalizing common with
  | nil =>
    cases common with
    | some => contradiction
    | none =>
      cases more with
      | nil => rfl
      | cons type rest =>
        cases untyped type List.mem_cons_self
        rfl
  | cons type rest ih =>
    cases type with
    | none => rfl
    | some type =>
      cases common with
      | none => exact ih nothing
      | some c =>
        simp only [List.cons_append, commonTypeFrom] at nothing ⊢
        split at nothing
        · rename_i same
          rw [if_pos same]
          exact ih nothing
        · contradiction

theorem withEnumTypeTwice (e : ClassEntry) (type : Option String) :
    (e.withEnumType type).withEnumType type = e.withEnumType type := by
  cases type with
  | none => simp [withEnumType, Function.comp_def]
  | some t =>
    have same : Declaration.withType t ∘ Declaration.withType t = Declaration.withType t :=
      funext (Declaration.withTypeTwice t)
    simp [withEnumType, same, Function.comp_def]

theorem propertyTypes (ms : List Declaration) : (ms.filter (·.isProperty)).map (·.info.typeName) =
    ((ms.map fun m => (m.isProperty, m.info.typeName)).filter Prod.fst).map Prod.snd := by
  simp [List.filter_map, Function.comp_def]

section Expanded
variable (e : ClassEntry) (spec : EnumSpec)

/- The entry with all values in it, before and after their type is known. -/
theorem enumTypeSettled (values : List EnumValue) {ms ps : List Declaration} (added : AddedProperties (ms, ps))
    (types : ms.map (fun m => (m.isProperty, m.info.typeName)) = e.members.map fun m => (m.isProperty, m.info.typeName)) :
    let type := e.enumType spec values
    ({ e with members := ms ++ ps }.withEnumType type).enumType { spec with typeName := type } values = type := by
  cases found : e.enumType spec values with
  | some t => simp [enumType]
  | none =>
    obtain ⟨given, members⟩ := Option.or_eq_none_iff.mp found
    have ofValues := (Option.or_eq_none_iff.mp given).2
    have untyped : ∀ type ∈ (ps.filter (·.isProperty)).map (·.info.typeName), type = none := by
      intro type h
      obtain ⟨d, hd, rfl⟩ := List.mem_map.mp h
      exact (added d (List.mem_filter.mp hd).1).2.2.1
    have ofMembers : commonType (((ms ++ ps).filter (·.isProperty)).map (·.info.typeName)) = none := by
      rw [List.filter_append, List.map_append, propertyTypes ms, types, ← propertyTypes]
      exact commonTypeMore members untyped
    simp only [enumType, withEnumType, ofValues, ofMembers, Option.or_none]

theorem expandEnumSettled {e : ClassEntry} {spec : EnumSpec}
    (served : ∀ v ∈ (e.enumValues spec).value, Serves e.members v) :
    (e.expandEnum spec).value = e.withEnumType (e.enumType spec (e.enumValues spec).value) := by
  simp only [expandEnum, Reported.valueBind, Reported.valuePure, valuesSettled e served, List.append_nil]

theorem expandEnumTwice :
    (ClassEntry.expandEnum (e.expandEnum spec).value
      { spec with typeName := e.enumType spec (e.enumValues spec).value }).value = (e.expandEnum spec).value := by
  have start : AddedProperties (e.members, []) := fun d hd => by contradiction
  obtain ⟨added, serves, types⟩ := valuesServed e (e.enumValues spec).value start
    fun v (hv : v ∈ []) => by contradiction
  have once : (e.expandEnum spec).value =
      withEnumType { e with members := ((e.enumValues spec).value.foldl e.addEnumValue (e.members, [])).1 ++
        ((e.enumValues spec).value.foldl e.addEnumValue (e.members, [])).2 } (e.enumType spec (e.enumValues spec).value) := by
    simp only [expandEnum, Reported.valueBind, Reported.valuePure]
  have again (e' : ClassEntry) (type : Option String) :
      (e'.enumValues { spec with typeName := type }).value = (e.enumValues spec).value := enumValuesSame rfl
  generalize (e.enumValues spec).value = vs at *
  generalize vs.foldl e.addEnumValue (e.members, []) = state at *
  obtain ⟨ms, ps⟩ := state
  have type := enumTypeSettled e spec vs added types
  generalize e.enumType spec vs = t at *
  simp only [] at once type
  rw [once, expandEnumSettled, again, type, withEnumTypeTwice]
  intro v hv
  rw [again] at hv
  have served : Serves (ms ++ ps) v := serves v hv
  cases t with
  | none => exact served
  | some t => exact servesWithType served t

end Expanded

theorem withEnumTwice (e : ClassEntry) : e.withEnum.value.withEnum.value = e.withEnum.value := by
  cases spec : e.record.info.classInfo.enumSpec with
  | none => simp only [withEnum, spec, Reported.valuePure]
  | some given =>
    by_cases ignored : e.record.ignored = true
    · simp only [withEnum, spec, ignored, if_true, Reported.valuePure]
    · have once : e.withEnum.value = (e.expandEnum given).value := by
        simp only [withEnum, spec, ignored, Bool.false_eq_true, if_false]
      have spec' : (e.expandEnum given).value.record.info.classInfo.enumSpec =
          some { given with typeName := e.enumType given (e.enumValues given).value } := by
        simp only [expandEnum, Reported.valueBind, Reported.valuePure, withEnumType, spec, Option.map_some]
      have shown : ¬(e.expandEnum given).value.record.ignored = true := ignored
      rw [once]
      conv => lhs; rw [withEnum]
      simp only [spec', shown, Bool.false_eq_true, if_false, expandEnumTwice]

end ClassEntry

end ClassDocs
