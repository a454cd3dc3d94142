import Mathlib.Data.List.Forall2
import ClassDocs.Registry
import ClassDocs.Diagnostic

/-! Two registries side by side. Related maps have the same names in the same order, and related values under each;
related results of two steps come with the same findings. -/
namespace ClassDocs

section Lists
variable {α β γ : Type} {R : α → β → Prop} {f : α → γ} {g : β → γ} {as : List α} {bs : List β}

theorem mappedSame (related : List.Forall₂ R as bs) (told : ∀ a b, R a b → g b = f a) : bs.map g = as.map f := by
  induction related with
  | nil => rfl
  | cons here _ ih => rw [List.map_cons, List.map_cons, told _ _ here, ih]

theorem anySame {p : α → Bool} {q : β → Bool} (related : List.Forall₂ R as bs) (same : ∀ a b, R a b → q b = p a) :
    bs.any q = as.any p := by
  have told := congrArg (List.any · id) (mappedSame related same)
  rwa [List.any_map, List.any_map] at told

/- What is selected of two related lists, and what is told of it, is the same. -/
theorem selectedSame {p : α → Bool} {q : β → Bool} (related : List.Forall₂ R as bs) (same : ∀ a b, R a b → q b = p a)
    (told : ∀ a b, R a b → p a = true → g b = f a) : (bs.filter q).map g = (as.filter p).map f := by
  induction related with
  | nil => rfl
  | @cons a b as bs here _ ih =>
    rw [List.filter_cons, List.filter_cons, same a b here]
    split
    · rename_i selected
      rw [List.map_cons, List.map_cons, told a b here selected, ih]
    · exact ih

theorem relatedImage {S : α → γ → Prop} (each : ∀ a, S a (f a)) (items : List α) : List.Forall₂ S items (items.map f) :=
  List.forall₂_map_right_iff.mpr (List.forall₂_same.mpr fun a _ => each a)

end Lists

namespace OrderedMap
variable {α β : Type} {R : α → β → Prop} {m : OrderedMap α} {m' : OrderedMap β}

def Related (R : α → β → Prop) (m : OrderedMap α) (m' : OrderedMap β) : Prop :=
  List.Forall₂ (fun entry entry' => entry'.1 = entry.1 ∧ R entry.2 entry'.2) m.entries m'.entries

theorem relatedEmpty : Related R empty empty := .nil

theorem relatedValues (h : Related R m m') : List.Forall₂ R m.values m'.values :=
  List.rel_map (fun _ _ entry => entry.2) h

theorem relatedKeys (h : Related R m m') : m'.keys = m.keys := by
  have each : List.Forall₂ (fun key key' : String => key' = key) m.keys m'.keys := List.rel_map (fun _ _ entry => entry.1) h
  exact (List.forall₂_eq_eq_eq ▸ each.flip : m'.keys = m.keys)

theorem relatedGet (h : Related R m m') (key : String) :
    (m.get? key = none ∧ m'.get? key = none) ∨ ∃ a b, m.get? key = some a ∧ m'.get? key = some b ∧ R a b := by
  unfold Related at h
  unfold get?
  generalize m.entries = entries, m'.entries = entries' at h
  induction h with
  | nil => exact Or.inl ⟨rfl, rfl⟩
  | @cons entry entry' _ _ here _ ih =>
    rw [List.find?_cons, List.find?_cons, here.1]
    cases entry.1 == key with
    | true => exact Or.inr ⟨entry.2, entry'.2, rfl, rfl, here.2⟩
    | false => exact ih

theorem relatedSame {m m' : OrderedMap α} : Related (fun a a' => a' = a) m m' ↔ m' = m := by
  constructor
  · intro h
    obtain ⟨entries, distinct⟩ := m
    obtain ⟨entries', distinct'⟩ := m'
    have each : List.Forall₂ (fun entry entry' => entry' = entry) entries entries' := List.Forall₂.imp (fun _ _ => Prod.ext_iff.mpr) h
    have same : entries' = entries := List.forall₂_eq_eq_eq ▸ each.flip
    subst same
    rfl
  · rintro rfl
    exact List.forall₂_same.mpr fun _ _ => ⟨rfl, rfl⟩

theorem relatedMapWithKey {γ δ : Type} {S : γ → δ → Prop} {f : String → α → γ} {g : String → β → δ} (h : Related R m m')
    (keeps : ∀ key a b, R a b → S (f key a) (g key b)) : Related S (m.mapWithKey f) (m'.mapWithKey g) := by
  refine List.rel_map (fun entry entry' here => ⟨here.1, ?_⟩) h
  rw [here.1]
  exact keeps entry.1 entry.2 entry'.2 here.2

theorem relatedMap {γ δ : Type} {S : γ → δ → Prop} {f : α → γ} {g : β → δ} (h : Related R m m')
    (keeps : ∀ a b, R a b → S (f a) (g b)) : Related S (m.map f) (m'.map g) :=
  relatedMapWithKey h fun _ => keeps

theorem relatedImage {f : α → β} (each : ∀ a, R a (f a)) (m : OrderedMap α) : Related R m (m.map f) :=
  ClassDocs.relatedImage (fun entry => ⟨rfl, each entry.2⟩) m.entries

theorem relatedModify {f : α → α} {g : β → β} (h : Related R m m') (keeps : ∀ a b, R a b → R (f a) (g b)) (key : String) :
    Related R (m.modify key f) (m'.modify key g) := by
  refine relatedMapWithKey h fun k a b here => ?_
  split
  · exact keeps a b here
  · exact here

theorem relatedAppend (h : Related R m m') {key : String} {a : α} {b : β} (new : R a b) (fresh : key ∉ m.keys)
    (fresh' : key ∉ m'.keys) : Related R (m.append key a fresh) (m'.append key b fresh') :=
  List.rel_append h (.cons ⟨rfl, new⟩ .nil)

theorem relatedInsert (h : Related R m m') (key : String) {a : α} {b : β} (new : R a b) :
    Related R (m.insert key a) (m'.insert key b) := by
  have keys := relatedKeys h
  unfold insert
  by_cases known : key ∈ m.keys
  · rw [dif_pos known, dif_pos (keys ▸ known)]
    exact relatedModify h (fun _ _ _ => new) key
  · rw [dif_neg known, dif_neg (keys ▸ known)]
    exact relatedAppend h new known (keys ▸ known)

theorem relatedErase (h : Related R m m') (key : String) : Related R (m.erase key) (m'.erase key) := by
  refine List.rel_filter (fun entry entry' here => ?_) h
  exact Eq.to_iff (congrArg (fun name => (name != key) = true) here.1.symm)

theorem relatedContains (h : Related R m m') (key : String) : m'.contains key = m.contains key := by
  rw [contains, contains, relatedKeys h]

end OrderedMap

namespace Registry
variable {R : ClassEntry → ClassEntry → Prop} {r r' : Registry}

theorem relatedEnsure (h : r.Related R r') {name : String} (new : R ⟨.emptyClass name, []⟩ ⟨.emptyClass name, []⟩) :
    OrderedMap.Related R (ensure r name) (ensure r' name) := by
  have keys := OrderedMap.relatedKeys h
  unfold ensure
  by_cases known : name ∈ r.keys
  · rw [dif_pos known, dif_pos (keys ▸ known)]
    exact h
  · rw [dif_neg known, dif_neg (keys ▸ known)]
    exact OrderedMap.relatedAppend h new known (keys ▸ known)

end Registry

namespace Reported

structure Related {α β : Type} (R : α → β → Prop) (r : Reported α) (r' : Reported β) : Prop where
  value : R r.value r'.value
  findings : r'.findings = r.findings

variable {α β γ δ : Type} {R : α → β → Prop} {S : γ → δ → Prop}

theorem relatedSame {r r' : Reported α} (h : Related Eq r r') : r' = r := by
  obtain ⟨value, findings⟩ := h
  cases r
  cases r'
  simp only at value findings
  rw [value, findings]

theorem relatedPure {a : α} {b : β} (h : R a b) : Related R (pure a) (pure b) := ⟨h, rfl⟩

theorem relatedBind {r : Reported α} {r' : Reported β} {f : α → Reported γ} {g : β → Reported δ} (h : Related R r r')
    (next : ∀ a b, R a b → Related S (f a) (g b)) : Related S (r >>= f) (r' >>= g) := by
  have later := next r.value r'.value h.value
  exact ⟨later.value, by rw [findingsBind, findingsBind, h.findings, later.findings]⟩

theorem relatedFoldlM {f : γ → α → Reported γ} {g : δ → β → Reported δ} {as : List α} {bs : List β} {c : γ} {d : δ}
    (items : List.Forall₂ R as bs) (first : S c d)
    (step : ∀ c d a b, S c d → R a b → Related S (f c a) (g d b)) : Related S (as.foldlM f c) (bs.foldlM g d) := by
  induction items generalizing c d with
  | nil => exact relatedPure first
  | @cons a b as bs here _ ih =>
    rw [List.foldlM_cons, List.foldlM_cons]
    exact relatedBind (step c d a b first here) fun _ _ after => ih after

/- The same step before both, and the same items in both. -/
theorem relatedNext {r : Reported α} {f : α → Reported γ} {g : α → Reported δ} (next : ∀ a, Related S (f a) (g a)) :
    Related S (r >>= f) (r >>= g) := by
  refine relatedBind (R := Eq) ⟨rfl, rfl⟩ ?_
  rintro a _ rfl
  exact next a

theorem relatedItems {f : γ → α → Reported γ} {g : δ → α → Reported δ} {items : List α} {c : γ} {d : δ} (first : S c d)
    (step : ∀ c d a, S c d → Related S (f c a) (g d a)) : Related S (items.foldlM f c) (items.foldlM g d) := by
  refine relatedFoldlM (R := Eq) (List.forall₂_same.mpr fun _ _ => rfl) first ?_
  rintro c d a _ h rfl
  exact step c d a h

end Reported
end ClassDocs
