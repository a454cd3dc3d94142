import ClassDocs.Registry.Overrides
import ClassDocs.Proofs.Overrides.Chains
import ClassDocs.Proofs.Overrides.Related
import ClassDocs.Proofs.Registry.Hidden

/-! Hidden words under overrides. Which class takes in which override shows without them; an ignored override or member
stays behind, and what an ignored class or member takes in stays with it. -/
namespace ClassDocs
open Declaration (ignored)

namespace ClassEntry
variable {e e' source source' : ClassEntry}

theorem alikeFoldMember (sourceName : String) (h : e.Alike ignored e') {m m' : Declaration} (member : m.Alike ignored m') :
    (foldMember sourceName e m).Alike ignored (foldMember sourceName e' m') := by
  cases shown : m.ignored with
  | true =>
    have shown' : m'.ignored = true := (Declaration.alikeIgnored member).trans shown
    rwa [foldMember, foldMember, if_pos shown, if_pos shown']
  | false =>
    rw [member.words shown, foldMember, foldMember, if_neg (Bool.eq_false_iff.mp shown), if_neg (Bool.eq_false_iff.mp shown),
      hasMemberAlike h]
    split
    · refine ⟨h.record, Declaration.alikeAlterFirst (fun d d' here => ?_) h.members m.kind m.name⟩
      exact Declaration.alikeChanged (f := (·.mergeOverride sourceName m)) (fun _ => rfl) (fun _ visible => visible) here
    · exact alikePush (fun _ _ => rfl) h (Declaration.alikeSame _)

/- The record of an override that is not ignored is the same in both. -/
theorem alikeFoldOverride (h : e.Alike ignored e') (members : List.Forall₂ (Declaration.Alike ignored) source.members source'.members)
    (record : source'.record = source.record) : (e.foldOverride source).Alike ignored (e'.foldOverride source') := by
  let taking (d : Declaration) : Declaration := (foldOverride ⟨d, []⟩ ⟨source.record, []⟩).record
  have folded (e source' : ClassEntry) (record : source'.record = source.record) : e.foldOverride source' =
      source'.members.foldl (foldMember source.record.name) ⟨taking e.record, e.members⟩ := by
    rw [foldOverride, name, record]
    rfl
  have taken : (taking e.record).Alike ignored (taking e'.record) := by
    refine Declaration.alikeChanged (f := taking) (fun d => ?_) (fun _ visible => visible) h.record
    simp only [taking, foldOverride]
    cases source.record.info.doc with
    | none => rfl
    | some doc => cases blank : Text.isBlankText doc <;> simp only [blank, if_true, if_false, Bool.false_eq_true] <;> rfl
  have start : Alike ignored ⟨taking e.record, e.members⟩ ⟨taking e'.record, e'.members⟩ := ⟨taken, h.members⟩
  rw [folded e source rfl, folded e' source' record]
  exact List.rel_foldl (P := Alike ignored) (R := Declaration.Alike ignored)
    (fun _ _ h _ _ member => alikeFoldMember source.record.name h member) start members

end ClassEntry

namespace Registry
variable {r r' : Registry}

theorem overrideTargetAlike (h : Registry.Alike ignored r r') (className : String) :
    r'.overrideTarget? className = r.overrideTarget? className := by
  unfold overrideTarget?
  rcases OrderedMap.relatedGet h className with ⟨unknown, unknown'⟩ | ⟨e, e', known, known', here⟩
  · rw [unknown, unknown']
  · rw [known, known']
    exact congrArg ClassInfo.overrideTarget (Declaration.alikeClassInfo here.record)

theorem overridesAlike (h : Registry.Alike ignored r r') : r'.overrides = r.overrides := by
  have targets := overrideTargetAlike h
  have ends : r'.overrideEnd? = r.overrideEnd? := by
    funext className
    refine Option.ext fun last => ?_
    rw [overrideEndIff, overrideEndIff, targets, leadsToCongr targets]
  unfold overrides
  rw [ends]
  refine selectedSame (OrderedMap.relatedValues h) (fun e e' here => ?_) fun e e' here _ => ?_
  · rw [Declaration.alikeClassInfo here.record]
  · rw [ClassEntry.name, ClassEntry.name, Declaration.alikeName here.record]

end Registry

/- The same external names, and the same entries but for the words of ignored ones. -/
def Draft.Alike : Draft → Draft → Prop := Draft.Related (ClassEntry.Alike ignored) fun names names' => names' = names

theorem alikeFoldable : Foldable (ClassEntry.Alike ignored) fun names names' => names' = names where
  agree := fun _ _ here => ⟨Declaration.alikeIgnored here.record, Declaration.alikeLocation here.record⟩
  made := fun _ => ClassEntry.alikeAlone (Declaration.alikeSame _)
  folded := fun _ _ _ _ taker source shown => ClassEntry.alikeFoldOverride taker source.members (source.record.words shown)
  added := fun _ _ name same => congrArg (·.add name) same

theorem Draft.alikeFoldOverrides {d d' : Draft} (h : d.Alike d') : Reported.Related Alike d.foldOverrides d'.foldOverrides :=
  relatedFoldOverrides alikeFoldable h (Registry.overridesAlike h.registry)

end ClassDocs
