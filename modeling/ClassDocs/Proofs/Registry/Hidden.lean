import ClassDocs.Proofs.Registry.Outline
import ClassDocs.Proofs.Aggregation.Hidden

/-! Hidden words under the refinements of a class. Marking hides at least what the comments ask to leave out; after that
accessors, events and enumerations look at nothing ignored but at its kind, its name and its type. -/
namespace ClassDocs
open Declaration (ignored)

namespace Declaration
variable {d d' : Declaration}

theorem alikeIgnored {hidden : Declaration → Bool} (h : d.Alike hidden d') : d'.ignored = d.ignored :=
  alikeField (f := ignored) (fun _ => rfl) h

theorem alikeIsFor {hidden : Declaration → Bool} (h : d.Alike hidden d') (kind : Kind) (name : String) :
    d'.isFor kind name = d.isFor kind name :=
  alikeField (f := isFor kind name) (fun _ => rfl) h

section Members
variable {hidden : Declaration → Bool} {ms ms' : List Declaration}

theorem anyAlike (h : List.Forall₂ (Alike hidden) ms ms') (kind : Kind) (name : String) :
    ms'.any (·.isFor kind name) = ms.any (·.isFor kind name) :=
  anySame h fun _ _ here => alikeIsFor here kind name

theorem alikeAlterFirst {change : Declaration → Declaration} (keeps : ∀ d d', d.Alike hidden d' → (change d).Alike hidden (change d'))
    (h : List.Forall₂ (Alike hidden) ms ms') (kind : Kind) (name : String) :
    List.Forall₂ (Alike hidden) (alterFirst (·.isFor kind name) change ms) (alterFirst (·.isFor kind name) change ms') := by
  induction h with
  | nil => exact .nil
  | cons here rest ih =>
    simp only [alterFirst, alikeIsFor here]
    split
    · exact .cons (keeps _ _ here) rest
    · exact .cons here ih

end Members
end Declaration

namespace ClassEntry
variable {e e' : ClassEntry}

theorem hasMemberAlike {hidden : Declaration → Bool} (h : e.Alike hidden e') (kind : Kind) (name : String) :
    e'.hasMember kind name = e.hasMember kind name :=
  Declaration.anyAlike h.members kind name

theorem alikeMark {hidden : Declaration → Bool} (covered : ∀ d, d.ignored = false → d.info.ignore = false → hidden d = false)
    (h : e.Alike hidden e') : e.markIgnored.Alike ignored e'.markIgnored := by
  have marked : (e'.record.ignored || e'.record.info.ignore) = (e.record.ignored || e.record.info.ignore) :=
    Declaration.alikeField (f := fun d => d.ignored || d.info.ignore) (fun _ => rfl) h.record
  constructor
  · refine Declaration.alikeChanged (f := fun d => { d with ignored := d.ignored || d.info.ignore }) (fun _ => rfl)
      (fun d shown => ?_) h.record
    obtain ⟨unmarked, wanted⟩ := Bool.or_eq_false_iff.mp shown
    exact covered d unmarked wanted
  · simp only [markIgnored, marked]
    generalize (e.record.ignored || e.record.info.ignore) = classIgnored
    refine List.rel_map (fun m m' here => ?_) h.members
    refine Declaration.alikeChanged (f := fun m => { m with ignored := m.ignored || classIgnored || m.info.ignore })
      (fun _ => rfl) (fun m shown => ?_) here
    obtain ⟨unmarked, wanted⟩ := Bool.or_eq_false_iff.mp shown
    exact covered m (Bool.or_eq_false_iff.mp unmarked).1 wanted

theorem alikeAddMissing {ms ms' : List Declaration} (h : List.Forall₂ (Declaration.Alike ignored) ms ms')
    (wanted : List Declaration) :
    List.Forall₂ (Declaration.Alike ignored) (wanted.foldl addMissing ms) (wanted.foldl addMissing ms') := by
  induction wanted generalizing ms ms' with
  | nil => exact h
  | cons d rest ih =>
    refine ih ?_
    rw [addMissing, addMissing, Declaration.anyAlike h]
    split
    · exact h
    · exact List.rel_append h (.cons (Declaration.alikeSame d) .nil)

theorem alikeAccessors (h : e.Alike ignored e') : e.withAccessors.Alike ignored e'.withAccessors := by
  have name : e'.name = e.name := Declaration.alikeName h.record
  have wanted : (e'.members.filter (·.isAccessor)).flatMap (·.accessors e'.name) =
      (e.members.filter (·.isAccessor)).flatMap (·.accessors e.name) := by
    rw [List.flatMap_def, List.flatMap_def, name]
    refine congrArg List.flatten (selectedSame h.members (fun d d' here => ?_) fun d d' here accessor => ?_)
    · exact Declaration.alikeField (f := Declaration.isAccessor) (fun _ => rfl) here
    · have shown : d.ignored = false := by
        simp only [Declaration.isAccessor, Bool.and_eq_true, Bool.not_eq_true'] at accessor
        exact accessor.1.2
      rw [here.words shown]
  unfold withAccessors
  rw [Declaration.alikeIgnored h.record, wanted]
  split
  · exact h
  · exact ⟨h.record, alikeAddMissing h.members _⟩

theorem alikeEvents (h : e.Alike ignored e') : e.withEventConvention.Alike ignored e'.withEventConvention := by
  let named (m : Declaration) : Declaration := if m.isEvent then m.conventionalEvent else m
  unfold withEventConvention
  rw [Declaration.alikeIgnored h.record]
  split
  · exact h
  · refine ⟨h.record, List.rel_map (fun m m' here => ?_) h.members⟩
    refine Declaration.alikeChanged (f := named) (fun m => ?_) (fun m shown => ?_) here
    · cases event : m.isEvent <;>
        have event' : m.wordless.isEvent = m.isEvent := rfl <;>
        simp only [named, event', event, if_true, Bool.false_eq_true, if_false] <;> rfl
    · revert shown
      simp only [named]
      split <;> exact id

/- The members alike, and the same properties added. -/
def Expanding (state state' : List Declaration × List Declaration) : Prop :=
  List.Forall₂ (Declaration.Alike ignored) state.1 state'.1 ∧ state'.2 = state.2

section Enum
variable (h : e.Alike ignored e') (shown : e.record.ignored = false)
include h shown

theorem expandingValue {state state' : List Declaration × List Declaration} (same : Expanding state state') (v : EnumValue) :
    Expanding (e.addEnumValue state v) (e'.addEnumValue state' v) := by
  obtain ⟨ms, added⟩ := state
  obtain ⟨ms', added'⟩ := state'
  obtain ⟨members, rfl⟩ := same
  have property : e'.enumProperty v = e.enumProperty v := by rw [enumProperty, enumProperty, h.record.words shown]
  simp only [addEnumValue, Declaration.anyAlike members, property]
  split
  · exact ⟨members, rfl⟩
  · split
    · refine ⟨Declaration.alikeAlterFirst (fun d d' here => ?_) members .property v.name, rfl⟩
      refine Declaration.alikeChanged (f := Declaration.withDefault v.literal) (fun d => ?_) (fun d visible => ?_) here
      · unfold Declaration.withDefault
        split <;> rfl
      · exact (congrArg Outline.ignored (Declaration.outlineWithDefault v.literal d)).symm.trans visible
    · exact ⟨members, rfl⟩

theorem expandingValues (values : List EnumValue) {state state' : List Declaration × List Declaration}
    (same : Expanding state state') : Expanding (values.foldl e.addEnumValue state) (values.foldl e'.addEnumValue state') := by
  induction values generalizing state state' with
  | nil => exact same
  | cons v rest ih => exact ih (expandingValue h shown same v)

theorem alikeEnumType (type : Option String) : (e.withEnumType type).Alike ignored (e'.withEnumType type) := by
  unfold withEnumType
  rw [h.record.words shown]
  refine ⟨Declaration.alikeSame _, ?_⟩
  cases type with
  | none => exact h.members
  | some t =>
    refine List.rel_map (fun m m' here => ?_) h.members
    refine Declaration.alikeChanged (f := Declaration.withType t) (fun d => ?_) (fun d visible => ?_) here
    · have same : (d.wordless.isProperty && !d.wordless.ignored && d.wordless.info.typeName.isNone) =
          (d.isProperty && !d.ignored && d.info.typeName.isNone) := rfl
      rw [Declaration.withType, Declaration.withType, same]
      split <;> rfl
    · exact (congrArg Outline.ignored (Declaration.outlineWithType t d)).symm.trans visible

theorem alikeExpanded (spec : EnumSpec) : Reported.Related (Alike ignored) (e.expandEnum spec) (e'.expandEnum spec) := by
  have record := h.record.words shown
  have values : e'.enumValues spec = e.enumValues spec := by simp only [enumValues, name, record]
  have types : (e'.members.filter (·.isProperty)).map (·.info.typeName) =
      (e.members.filter (·.isProperty)).map (·.info.typeName) :=
    selectedSame h.members (fun _ _ => Declaration.alikeField (f := Declaration.isProperty) fun _ => rfl)
      fun _ _ here _ => Declaration.alikeField (f := (·.info.typeName)) (fun _ => rfl) here
  unfold expandEnum
  rw [values]
  generalize e.enumValues spec = values
  have type : e'.enumType spec values.value = e.enumType spec values.value := by rw [enumType, enumType, types]
  obtain ⟨members, added⟩ : Expanding (values.value.foldl e.addEnumValue (e.members, []))
      (values.value.foldl e'.addEnumValue (e'.members, [])) := expandingValues h shown values.value ⟨h.members, rfl⟩
  have expanded : Alike ignored
      { e with members := (values.value.foldl e.addEnumValue (e.members, [])).1 ++
        (values.value.foldl e.addEnumValue (e.members, [])).2 }
      { e' with members := (values.value.foldl e'.addEnumValue (e'.members, [])).1 ++
        (values.value.foldl e'.addEnumValue (e'.members, [])).2 } := by
    refine ⟨h.record, List.rel_append members ?_⟩
    rw [added]
    exact List.forall₂_same.mpr fun d _ => Declaration.alikeSame d
  refine Reported.relatedBind (R := fun vs vs' => vs' = vs ∧ vs = values.value) ⟨⟨rfl, rfl⟩, rfl⟩ ?_
  rintro _ _ ⟨rfl, rfl⟩
  rw [type]
  exact Reported.relatedPure (alikeEnumType expanded shown _)

end Enum

theorem alikeEnum (h : e.Alike ignored e') : Reported.Related (Alike ignored) e.withEnum e'.withEnum := by
  unfold withEnum
  rw [Declaration.alikeClassInfo h.record, Declaration.alikeIgnored h.record]
  cases e.record.info.classInfo.enumSpec with
  | none => exact Reported.relatedPure h
  | some spec =>
    cases shown : e.record.ignored with
    | true => exact Reported.relatedPure h
    | false => exact alikeExpanded h shown spec

end ClassEntry

namespace Registry
variable {r r' : Registry}

theorem alikeMark {hidden : Declaration → Bool} (covered : ∀ d, d.ignored = false → d.info.ignore = false → hidden d = false)
    (h : Registry.Alike hidden r r') : Registry.Alike ignored r.markIgnored r'.markIgnored :=
  OrderedMap.relatedMap h fun _ _ => ClassEntry.alikeMark covered

theorem alikeAccessors (h : Registry.Alike ignored r r') : Registry.Alike ignored r.withAccessors r'.withAccessors :=
  OrderedMap.relatedMap h fun _ _ => ClassEntry.alikeAccessors

theorem alikeEvents (h : Registry.Alike ignored r r') (mode : EventMode) :
    Registry.Alike ignored (r.withEventConvention mode) (r'.withEventConvention mode) := by
  have styles : r'.values.any (·.record.info.classInfo.codeStyle == .extDefine) =
      r.values.any (·.record.info.classInfo.codeStyle == .extDefine) :=
    anySame (OrderedMap.relatedValues h) fun e e' here => by rw [Declaration.alikeClassInfo here.record]
  have applies : r'.eventConventionApplies mode = r.eventConventionApplies mode := by
    unfold eventConventionApplies
    rw [styles]
  unfold withEventConvention
  rw [applies]
  split
  · exact OrderedMap.relatedMap h fun _ _ => ClassEntry.alikeEvents
  · exact h

theorem alikeEnums (h : Registry.Alike ignored r r') :
    Reported.Related (Registry.Alike ignored) r.withEnums r'.withEnums := by
  have expanded : OrderedMap.Related (Reported.Related (ClassEntry.Alike ignored)) (r.map ClassEntry.withEnum)
      (r'.map ClassEntry.withEnum) := OrderedMap.relatedMap h fun _ _ => ClassEntry.alikeEnum
  refine ⟨OrderedMap.relatedMap expanded fun _ _ here => here.value, ?_⟩
  simp only [withEnums, List.flatMap_def]
  exact congrArg List.flatten (mappedSame (OrderedMap.relatedValues expanded) fun _ _ here => here.findings)

end Registry
end ClassDocs
