import ClassDocs.Proofs.Aggregation.Reopening

/-! Annotations of classes that are declared more than once. Of what the declarations say about releases and in tags without a
place of their own, only the first one counts. -/
namespace ClassDocs

namespace Declaration

/-- What the declarations of a class say of releases is there, the first word of each, and all their other tags. -/
structure KeepsAnnotations (ds : List Declaration) (d : Declaration) : Prop where
  deprecated : d.info.deprecated = ds.findSome? (·.info.deprecated)
  since : d.info.since = ds.findSome? (·.info.since)
  extraTags : ∀ x ∈ ds, ∀ t ∈ x.info.extraTags, t ∈ d.info.extraTags

/-- Later declarations say nothing of releases that the first one leaves open, and have no other tags than it has. -/
structure AnnotatesFirst (first : Declaration) (later : List Declaration) : Prop where
  deprecated : first.info.deprecated = none → ∀ d ∈ later, d.info.deprecated = none
  since : first.info.since = none → ∀ d ∈ later, d.info.since = none
  extraTags : ∀ d ∈ later, ∀ t ∈ d.info.extraTags, t ∈ first.info.extraTags

theorem givenByFirst {α : Type} (f : Declaration → Option α) (first : Declaration) (later : List Declaration) :
    f first = (first :: later).findSome? f ↔ (f first = none → ∀ d ∈ later, f d = none) := by
  rw [List.findSome?_cons]
  cases given : f first with
  | none => simp [eq_comm (a := (none : Option α))]
  | some => simp

end Declaration

open Declaration

/-- Of what the declarations of a class say of releases and in other tags, the first one's part is there and no more. So nothing
is lost exactly if the later ones add nothing. -/
theorem annotationsOfFirst {files : List FileResult} {className : String} {first : Declaration} {later : List Declaration}
    (declared : declarationsOf files className = first :: later) :
    ∃ e, (aggregate files).value.get? className = some e ∧ e.record.info.deprecated = first.info.deprecated ∧
      e.record.info.since = first.info.since ∧ e.record.info.extraTags = first.info.extraTags ∧
      (KeepsAnnotations (first :: later) e.record ↔ AnnotatesFirst first later) := by
  obtain ⟨e, doc, found, record, -⟩ := recordAggregate (by rw [declared, folded])
  have deprecated : e.record.info.deprecated = first.info.deprecated := by
    rw [record]
    exact reopenedFirst later first (f := (·.info.deprecated)) fun _ _ => rfl
  have since : e.record.info.since = first.info.since := by
    rw [record]
    exact reopenedFirst later first (f := (·.info.since)) fun _ _ => rfl
  have extraTags : e.record.info.extraTags = first.info.extraTags := by
    rw [record]
    exact reopenedFirst later first (f := (·.info.extraTags)) fun _ _ => rfl
  refine ⟨e, found, deprecated, since, extraTags, fun kept => ?_, fun alone => ?_⟩
  · refine ⟨?_, ?_, fun d hd t ht => extraTags ▸ kept.extraTags d (List.mem_cons_of_mem _ hd) t ht⟩
    · exact (givenByFirst (·.info.deprecated) first later).mp (deprecated.symm.trans kept.deprecated)
    · exact (givenByFirst (·.info.since) first later).mp (since.symm.trans kept.since)
  · refine ⟨?_, ?_, fun d hd t ht => ?_⟩
    · exact deprecated.trans ((givenByFirst (·.info.deprecated) first later).mpr alone.deprecated)
    · exact since.trans ((givenByFirst (·.info.since) first later).mpr alone.since)
    · rw [extraTags]
      rcases List.mem_cons.mp hd with rfl | more
      · exact ht
      · exact alone.extraTags d more t ht

def openPanel : Declaration := { kind := .classKind, name := "Panel", files := [⟨"panel.js", 1⟩], info := { doc := some "A panel." } }

def legacyPanel : Declaration :=
  { kind := .classKind, name := "Panel", files := [⟨"legacy.js", 3⟩],
    info := { deprecated := some "Use Window.", since := some "1.2", extraTags := [{ name := "author", body := "UI team" }] } }

theorem legacyFirst : declarationsOf [⟨"legacy.js", [legacyPanel]⟩, ⟨"panel.js", [openPanel]⟩] "Panel" = [legacyPanel, openPanel] ∧
    ∃ e, (aggregate [⟨"legacy.js", [legacyPanel]⟩, ⟨"panel.js", [openPanel]⟩]).value.get? "Panel" = some e ∧
      KeepsAnnotations [legacyPanel, openPanel] e.record := by
  have declared : declarationsOf [⟨"legacy.js", [legacyPanel]⟩, ⟨"panel.js", [openPanel]⟩] "Panel" = [legacyPanel, openPanel] := by
    rfl
  obtain ⟨e, found, -, -, -, kept⟩ := annotationsOfFirst declared
  exact ⟨declared, e, found, kept.mpr ⟨nofun, nofun, by simp [openPanel]⟩⟩

theorem legacyLost : declarationsOf [⟨"panel.js", [openPanel]⟩, ⟨"legacy.js", [legacyPanel]⟩] "Panel" = [openPanel, legacyPanel] ∧
    ∃ e, (aggregate [⟨"panel.js", [openPanel]⟩, ⟨"legacy.js", [legacyPanel]⟩]).value.get? "Panel" = some e ∧
      e.record.info.deprecated = none ∧ e.record.info.since = none ∧ e.record.info.extraTags = [] ∧
      ¬KeepsAnnotations [openPanel, legacyPanel] e.record := by
  refine ⟨by rfl, _, by rfl, rfl, rfl, rfl, fun kept => ?_⟩
  have lost : (none : Option String) = some "Use Window." := kept.deprecated
  contradiction

end ClassDocs
