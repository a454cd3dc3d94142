import ClassDocs.Proofs.Registry.Enumerations

/-! Ignored declarations under the refinements of a class. They stand where they stood, as they were; only a value of
an enumeration does not look whether the property of its name is ignored before it gives it a default. -/
namespace ClassDocs

/-- Ignored members stand where they stood, as they were. -/
def Spared (before after : List Declaration) : Prop :=
  ∀ (i : Nat) m, before[i]? = some m → m.ignored = true → after[i]? = some m

section Members
variable {ms ms' ms'' : List Declaration} {p : Declaration → Bool} {f : Declaration → Declaration}

theorem sparedSame (ms : List Declaration) : Spared ms ms := fun _ _ here _ => here

theorem sparedTrans (first : Spared ms ms') (second : Spared ms' ms'') : Spared ms ms'' :=
  fun i m here ignored => second i m (first i m here ignored) ignored

theorem sparedAppend (ms more : List Declaration) : Spared ms (ms ++ more) := by
  intro i m here _
  rw [List.getElem?_append_left (List.getElem?_eq_some_iff.mp here).1]
  exact here

theorem sparedMap (keeps : ∀ m, m.ignored = true → f m = m) (ms : List Declaration) : Spared ms (ms.map f) := by
  intro i m here ignored
  rw [List.getElem?_map, here, Option.map_some, keeps m ignored]

theorem getReplaced (before after : List Declaration) (d d' : Declaration) (i : Nat) :
    (before ++ d' :: after)[i]? = if i = before.length then some d' else (before ++ d :: after)[i]? := by
  induction before generalizing i with
  | nil => cases i <;> simp
  | cons first rest ih =>
    cases i with
    | zero => simp
    | succ i => simpa using ih i

theorem sparedAt {d d' : Declaration} (kept : d.ignored = true → d' = d) (before after : List Declaration) :
    Spared (before ++ d :: after) (before ++ d' :: after) := by
  intro i m here ignored
  rw [getReplaced before after d d']
  split
  · rename_i place
    rw [getReplaced before after d d, if_pos place] at here
    cases here
    rw [kept ignored]
  · exact here

theorem sparedAlter (known : ms.any p = true) (keeps : ∀ m, ms.find? p = some m → m.ignored = true → f m = m) :
    Spared ms (Declaration.alterFirst p f ms) := by
  obtain ⟨before, d, after, rfl, others, here⟩ := Declaration.anySplit known
  rw [Declaration.alterFirstAt others here]
  exact sparedAt (keeps d (Declaration.findAt others here after)) before after

theorem findAtIdx {m : Declaration} : ms.find? p = some m ↔ ∃ i, ms.findIdx? p = some i ∧ ms[i]? = some m := by
  simp only [List.find?_eq_some_iff_getElem, List.findIdx?_eq_some_iff_getElem, List.getElem?_eq_some_iff, Bool.not_eq_true']
  constructor
  · rintro ⟨fits, i, inside, rfl, others⟩
    exact ⟨i, ⟨inside, fits, fun j before => Bool.eq_false_iff.mp (others j before)⟩, inside, rfl⟩
  · rintro ⟨i, ⟨inside, fits, others⟩, _, rfl⟩
    exact ⟨fits, i, inside, rfl, fun j before => Bool.eq_false_iff.mpr (others j before)⟩

/- Which member is the first of a kind and name shows in the outlines. -/
theorem idxOutlines {kind : Kind} {name : String} {more : List Outline} {i : Nat}
    (outlines : ms'.map Declaration.outline = ms.map Declaration.outline ++ more)
    (first : ms.findIdx? (·.isFor kind name) = some i) :
    ms'.findIdx? (·.isFor kind name) = some i := by
  let fits (o : Outline) : Bool := o.kind == kind && o.name == name
  have byOutline (ms : List Declaration) : ms.findIdx? (·.isFor kind name) = (ms.map Declaration.outline).findIdx? fits := by
    rw [List.findIdx?_map]
    rfl
  rw [byOutline] at first ⊢
  rw [outlines, List.findIdx?_append, first, Option.some_or]

section Found
variable {kind : Kind} {name : String} {more : List Outline} {m : Declaration} (spared : Spared ms ms')
include spared

theorem findSpared (outlines : ms'.map Declaration.outline = ms.map Declaration.outline ++ more)
    (found : ms.find? (·.isFor kind name) = some m) (ignored : m.ignored = true) : ms'.find? (·.isFor kind name) = some m := by
  obtain ⟨i, first, here⟩ := findAtIdx.mp found
  exact findAtIdx.mpr ⟨i, idxOutlines outlines first, spared i m here ignored⟩

theorem findBefore (outlines : ms'.map Declaration.outline = ms.map Declaration.outline)
    (found : ms'.find? (·.isFor kind name) = some m) (ignored : m.ignored = true) : ms.find? (·.isFor kind name) = some m := by
  obtain ⟨i, first, here⟩ := findAtIdx.mp found
  have same := congrArg (·[i]?) outlines
  simp only [List.getElem?_map, here, Option.map_some] at same
  obtain ⟨m₀, here₀, outline⟩ := Option.map_eq_some_iff.mp same.symm
  have ignored₀ : m₀.ignored = true := (congrArg Outline.ignored outline).trans ignored
  cases Option.some.inj (here.symm.trans (spared i m₀ here₀ ignored₀))
  have unchanged : ms.map Declaration.outline = ms'.map Declaration.outline ++ [] := by rw [outlines, List.append_nil]
  exact findAtIdx.mpr ⟨i, idxOutlines unchanged first, here₀⟩

end Found
end Members

/-- What happens to a class leaves its ignored record and its ignored members alone. -/
structure ClassEntry.Spares (e e' : ClassEntry) : Prop where
  record : e.record.ignored = true → e'.record = e.record
  members : Spared e.members e'.members

namespace ClassEntry

theorem sparesSame (e : ClassEntry) : e.Spares e := ⟨fun _ => rfl, sparedSame e.members⟩

theorem sparesMark (e : ClassEntry) : e.Spares e.markIgnored := by
  refine ⟨fun ignored => ?_, sparedMap (fun m ignored => ?_) e.members⟩
  · rw [markIgnored, ignored, Bool.true_or, ← ignored]
  · rw [ignored, Bool.true_or, Bool.true_or, ← ignored]

theorem sparesAccessors (e : ClassEntry) : e.Spares e.withAccessors := by
  refine ⟨fun _ => recordAccessors e, ?_⟩
  unfold withAccessors
  split
  · exact sparedSame e.members
  · obtain ⟨added, fold, -⟩ := foldAddMissing e.members ((e.members.filter (·.isAccessor)).flatMap (·.accessors e.name))
    change Spared e.members (List.foldl addMissing e.members _)
    rw [fold]
    exact sparedAppend e.members added

theorem sparesEvents (e : ClassEntry) : e.Spares e.withEventConvention := by
  refine ⟨fun _ => recordEvents e, ?_⟩
  unfold withEventConvention
  split
  · exact sparedSame e.members
  · refine sparedMap (fun m ignored => if_neg ?_) e.members
    simp [Declaration.isEvent, ignored]

/-- Where a value of the enumeration finds an ignored property of its name, that has a default already. -/
def ValuesShown (e : ClassEntry) : Prop :=
  ∀ spec, e.record.info.classInfo.enumSpec = some spec → e.record.ignored = false → ∀ v ∈ (e.enumValues spec).value, ∀ m,
    e.findMember? .property v.name = some m → m.ignored = true → m.info.defaultText.isSome = true

theorem sparedValues (e : ClassEntry) {values : List EnumValue} (state : List Declaration × List Declaration)
    (shown : ∀ v ∈ values, ∀ m, state.1.find? (·.isFor .property v.name) = some m → m.ignored = true →
      m.info.defaultText.isSome = true) : Spared state.1 (values.foldl e.addEnumValue state).1 := by
  induction values generalizing state with
  | nil => exact sparedSame state.1
  | cons v rest ih =>
    have step : Spared state.1 (e.addEnumValue state v).1 := by
      rcases e.addEnumValueCases state.1 state.2 v with ⟨-, step⟩ | ⟨-, known, step⟩ | ⟨-, -, step⟩ <;> rw [step]
      · exact sparedSame state.1
      · exact sparedAlter known fun m found ignored => Declaration.defaultKept (shown v List.mem_cons_self m found ignored)
      · exact sparedSame state.1
    have outlines := membersEnumValue e state.1 state.2 v (Declaration.outlineWithDefault v.literal)
    refine sparedTrans step (ih _ fun w hw m found ignored => ?_)
    exact shown w (List.mem_cons_of_mem _ hw) m (findBefore step outlines found ignored) ignored

theorem enumServed (e : ClassEntry) (spec : EnumSpec) :
    ∀ v ∈ (e.enumValues spec).value, Serves (e.expandEnum spec).value.members v := by
  have start : AddedProperties (e.members, []) := fun d hd => by contradiction
  obtain ⟨-, serves, -⟩ := valuesServed e (e.enumValues spec).value start fun v (hv : v ∈ []) => by contradiction
  intro v hv
  have served := serves v hv
  simp only [expandEnum, Reported.valueBind, Reported.valuePure, withEnumType]
  cases e.enumType spec (e.enumValues spec).value with
  | none => exact served
  | some t => exact servesWithType served t

theorem sparesEnum (e : ClassEntry) : e.Spares e.withEnum.value ↔ e.ValuesShown := by
  constructor
  · intro spares spec given shown v hv m found ignored
    obtain ⟨added, outlines, -⟩ := outlinesEnum e
    have later := findSpared spares.members outlines found ignored
    have expanded : e.withEnum.value = (e.expandEnum spec).value := by
      simp only [withEnum, given, shown, Bool.false_eq_true, if_false]
    rw [expanded] at later
    obtain ⟨m', found', default⟩ := enumServed e spec v hv
    cases Option.some.inj (later.symm.trans found')
    exact default
  · intro shown
    unfold withEnum
    split
    · rename_i spec given
      split
      · exact sparesSame e
      · rename_i visible
        refine ⟨fun ignored => absurd ignored visible, ?_⟩
        have values := sparedValues e (e.members, []) (shown spec given (Bool.eq_false_iff.mpr visible))
        have filled := sparedTrans values (sparedAppend _ ((e.enumValues spec).value.foldl e.addEnumValue (e.members, [])).2)
        simp only [expandEnum, Reported.valueBind, Reported.valuePure, withEnumType]
        split
        · refine sparedTrans filled (sparedMap (fun m ignored => if_neg ?_) _)
          simp [ignored]
        · exact filled
    · exact sparesSame e

end ClassEntry
end ClassDocs
