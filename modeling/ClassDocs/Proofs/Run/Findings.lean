import ClassDocs.Run

/-! What each stage of a run has to say. But for the check for cycles all of it are warnings, and every stage has
categories of its own. -/
namespace ClassDocs

/-- Nothing but warnings of these categories. -/
def Warns (cs : List Category) (ds : List Diagnostic) : Prop := ∀ d ∈ ds, d.level = .warning ∧ d.category ∈ cs

section Warns
variable {α β : Type} {cs cs' : List Category} {ds es : List Diagnostic}

theorem warnsNil : Warns cs [] := nofun

theorem warnsAppend (h : Warns cs ds) (h' : Warns cs es) : Warns cs (ds ++ es) := by
  intro d hd
  rcases List.mem_append.mp hd with first | second
  · exact h d first
  · exact h' d second

theorem warnsMore (h : Warns cs ds) (more : ∀ c ∈ cs, c ∈ cs') : Warns cs' ds :=
  fun d hd => ⟨(h d hd).1, more _ (h d hd).2⟩

theorem warnsOne {category : Category} {message : String} {location : Option Location} (own : category ∈ cs) :
    Warns cs [.warning category message location] := by
  intro d hd
  cases List.mem_singleton.mp hd
  exact ⟨rfl, own⟩

theorem warnsIf {p : Prop} [Decidable p] (h : Warns cs ds) (h' : Warns cs es) : Warns cs (if p then ds else es) := by
  split <;> assumption

theorem warnsFlatMap {f : α → List Diagnostic} (items : List α) (each : ∀ a ∈ items, Warns cs (f a)) :
    Warns cs (items.flatMap f) := by
  intro d hd
  obtain ⟨a, ha, hd⟩ := List.mem_flatMap.mp hd
  exact each a ha d hd

theorem warnsMap {category : Category} {message : α → String} {location : α → Option Location} (items : List α)
    (own : category ∈ cs) : Warns cs (items.map fun a => .warning category (message a) (location a)) := by
  intro d hd
  obtain ⟨a, -, rfl⟩ := List.mem_map.mp hd
  exact ⟨rfl, own⟩

theorem warnsFoldlM {f : β → α → Reported β} (each : ∀ b a, Warns cs (f b a).findings) (init : β) (items : List α) :
    Warns cs (items.foldlM f init).findings := by
  induction items generalizing init with
  | nil => exact warnsNil
  | cons a rest ih => exact warnsAppend (each init a) (ih _)

theorem warnsOther {category : Category} (h : Warns cs ds) (other : category ∉ cs) : ds.filter (·.category == category) = [] :=
  List.filter_eq_nil_iff.mpr fun d hd same => other (eq_of_beq same ▸ (h d hd).2)

theorem warnsOwn {category : Category} (h : Warns [category] ds) : ds.filter (·.category == category) = ds :=
  List.filter_eq_self.mpr fun d hd => beq_iff_eq.mpr (List.mem_singleton.mp (h d hd).2)

end Warns

theorem Declaration.warnsConflict (old new : Declaration) : Warns [.conflictingParent] (old.parentConflict new) := by
  unfold parentConflict
  split
  · exact warnsIf warnsNil (warnsOne (by decide))
  · exact warnsNil

theorem Aggregation.warnsAdd (a : Aggregation) (d : Declaration) : Warns [.conflictingParent] (a.add d).findings := by
  unfold add
  split
  · unfold addClass
    cases a.registry.get? d.name with
    | some e => exact e.record.warnsConflict d
    | none => exact warnsNil
  · exact warnsNil

theorem warnsAggregate (files : List FileResult) : Warns [.conflictingParent] (aggregate files).findings := by
  refine warnsAppend (warnsFoldlM (fun a f => ?_) _ files) warnsNil
  exact warnsFoldlM Aggregation.warnsAdd _ f.records

theorem ClassEntry.warnsEnum (e : ClassEntry) : Warns [.enumeration] e.withEnum.findings := by
  unfold withEnum
  split
  · split
    · exact warnsNil
    · refine warnsAppend ?_ warnsNil
      unfold enumValues
      split
      · exact warnsNil
      · exact warnsAppend (warnsOne (by decide)) warnsNil
      · exact warnsNil
  · exact warnsNil

namespace Draft

theorem warnsFoldOverride (d : Draft) (step : String × Option String) : Warns [.override] (d.foldOverride step).findings := by
  obtain ⟨name, target⟩ := step
  cases target with
  | none =>
    cases found : d.registry.get? name <;> simp only [foldOverride, found]
    · exact warnsNil
    · exact warnsAppend (warnsOne (by decide)) warnsNil
  | some target =>
    cases found : d.registry.get? name <;> simp only [foldOverride, found]
    · exact warnsNil
    · split
      · exact warnsAppend (warnsOne (by decide)) warnsNil
      · exact warnsNil

theorem warnsApply (settings : Settings) (step : Refinement) (d : Draft) :
    Warns [.enumeration, .override] (step.apply settings d).findings := by
  cases step with
  | enums =>
    refine warnsAppend (warnsFlatMap _ fun expanded made => ?_) warnsNil
    rw [OrderedMap.valuesMap] at made
    obtain ⟨e, -, rfl⟩ := List.mem_map.mp made
    exact warnsMore e.warnsEnum (by decide)
  | overrides => exact warnsMore (warnsFoldlM warnsFoldOverride d _) (by decide)
  | ignoring => exact warnsNil
  | accessors => exact warnsNil
  | events => exact warnsNil

theorem warnsRefine (settings : Settings) (steps : List Refinement) (d : Draft) :
    Warns [.enumeration, .override] (d.refine settings steps).findings :=
  warnsFoldlM (fun d step => warnsApply settings step d) d steps

theorem warnsToGraph (d : Draft) (dropGlobal : Bool) : Warns [.global] (d.toGraph dropGlobal).findings :=
  warnsFlatMap _ fun _ _ => warnsMap _ (by decide)

end Draft

theorem warnsDraft (settings : Settings) (files : List FileResult) :
    Warns [.conflictingParent, .enumeration, .override] (draft settings files).findings :=
  warnsAppend (warnsMore (warnsAggregate files) (by decide)) (warnsMore (Draft.warnsRefine settings Refinement.all _) (by decide))

theorem ClassGraph.warnsInherit (g : ClassGraph) : Warns [.inheritDoc] g.inheritDocs.findings := by
  refine warnsFlatMap _ fun c _ => warnsFlatMap _ fun m _ => ?_
  unfold inheritFindings
  split
  · exact warnsOne (by decide)
  · exact warnsNil

namespace Lint

theorem warnsParams (m : Declaration) (fullName : String) (names : List String) (optional : Option String)
    (ps : List Param) : Warns [.dupParam, .noDocParam, .reqAfterOpt] (paramsFindings m fullName names optional ps) := by
  induction ps generalizing names optional with
  | nil => exact warnsNil
  | cons p rest ih =>
    refine warnsAppend (warnsAppend (warnsAppend ?_ ?_) ?_) (ih _ _)
    · exact warnsIf (warnsOne (by decide)) warnsNil
    · exact warnsIf (warnsOne (by decide)) warnsNil
    · cases optional with
      | none => exact warnsNil
      | some previous => exact warnsIf warnsNil (warnsOne (by decide))

theorem warnsMember (g : ClassGraph) (c : ClassRecord) (m : Declaration) :
    Warns [.noDoc, .dupParam, .noDocParam, .reqAfterOpt, .typeName] (memberFindings g c m) := by
  refine warnsAppend (warnsAppend ?_ ?_) ?_
  · exact warnsIf (warnsOne (by decide)) warnsNil
  · exact warnsIf (warnsMore (warnsParams _ _ _ _ _) (by decide)) warnsNil
  · exact warnsMap _ (by decide)

theorem warnsMembers (g : ClassGraph) (c : ClassRecord) (seen : List (Kind × String)) (ms : List Declaration) :
    Warns [.dupMember, .noDoc, .dupParam, .noDocParam, .reqAfterOpt, .typeName] (membersFindings g c seen ms) := by
  induction ms generalizing seen with
  | nil => exact warnsNil
  | cons m rest ih =>
    refine warnsAppend (warnsAppend ?_ (warnsMore (warnsMember g c m) (by decide))) (ih _)
    exact warnsIf (warnsOne (by decide)) warnsNil

end Lint

theorem ClassGraph.warnsLint (g : ClassGraph) :
    Warns [.dupMember, .noDoc, .dupParam, .noDocParam, .reqAfterOpt, .typeName] g.lint :=
  warnsFlatMap _ fun c _ => warnsAppend (warnsIf (warnsOne (by decide)) warnsNil) (Lint.warnsMembers g c [] c.members)

end ClassDocs
