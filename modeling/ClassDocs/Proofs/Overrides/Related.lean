import ClassDocs.Registry.Overrides
import ClassDocs.Proofs.Registry.Related

/-! Overrides of two drafts side by side. The same steps are taken in both, as long as related entries agree on being ignored
and on their place, which is all that the findings show. -/
namespace ClassDocs

structure Draft.Related (R : ClassEntry → ClassEntry → Prop) (S : NameSet → NameSet → Prop) (d d' : Draft) : Prop where
  registry : d.registry.Related R d'.registry
  externals : S d.externals d'.externals

/-- What folding needs of the entries and of the external names. -/
structure Foldable (R : ClassEntry → ClassEntry → Prop) (S : NameSet → NameSet → Prop) : Prop where
  agree : ∀ e e', R e e' → e'.record.ignored = e.record.ignored ∧ e'.record.location? = e.record.location?
  made : ∀ name, R ⟨.emptyClass name, []⟩ ⟨.emptyClass name, []⟩
  folded : ∀ e e' source source', R e e' → R source source' → source.record.ignored = false →
    R (e.foldOverride source) (e'.foldOverride source')
  added : ∀ names names' name, S names names' → S (names.add name) (names'.add name)

namespace Draft
variable {R : ClassEntry → ClassEntry → Prop} {S : NameSet → NameSet → Prop} (foldable : Foldable R S) {d d' : Draft}
include foldable

theorem relatedFoldOverride (h : d.Related R S d') (step : String × Option String) :
    Reported.Related (Related R S) (d.foldOverride step) (d'.foldOverride step) := by
  obtain ⟨name, target⟩ := step
  have erased := OrderedMap.relatedErase h.registry name
  have external := foldable.added _ _ name h.externals
  rcases OrderedMap.relatedGet h.registry name with ⟨unknown, unknown'⟩ | ⟨e, e', known, known', here⟩
  · cases target with
    | none =>
      simp only [foldOverride, unknown, unknown']
      exact Reported.relatedPure ⟨h.registry, external⟩
    | some target =>
      simp only [foldOverride, unknown, unknown']
      exact Reported.relatedPure h
  · obtain ⟨same, place⟩ := foldable.agree e e' here
    cases target with
    | none =>
      simp only [foldOverride, known, known', place]
      exact Reported.relatedNext fun _ => Reported.relatedPure ⟨erased, external⟩
    | some target =>
      have taken : OrderedMap.Related R
          (if e.record.ignored then d.registry.erase name
            else (Registry.ensure (d.registry.erase name) target).modify target (·.foldOverride e))
          (if e.record.ignored then d'.registry.erase name
            else (Registry.ensure (d'.registry.erase name) target).modify target (·.foldOverride e')) := by
        cases shown : e.record.ignored with
        | true => exact erased
        | false =>
          have ensured := Registry.relatedEnsure erased (foldable.made target)
          exact OrderedMap.relatedModify ensured (fun a b taker => foldable.folded a b e e' taker here shown) target
      simp only [foldOverride, known, known', place, OrderedMap.relatedContains erased, same]
      split
      · exact Reported.relatedNext fun _ => Reported.relatedPure ⟨taken, external⟩
      · exact Reported.relatedPure ⟨taken, external⟩

theorem relatedFoldOverrides (h : d.Related R S d') (steps : Registry.overrides d'.registry = Registry.overrides d.registry) :
    Reported.Related (Related R S) d.foldOverrides d'.foldOverrides := by
  unfold foldOverrides
  rw [steps]
  exact Reported.relatedItems h fun _ _ step h => relatedFoldOverride foldable h step

end Draft
end ClassDocs
