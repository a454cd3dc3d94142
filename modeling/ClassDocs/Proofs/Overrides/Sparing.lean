import ClassDocs.Proofs.Overrides.Taking
import ClassDocs.Proofs.Registry.Sparing

/-! Ignored declarations and overrides. An override that is folded into a class does not look whether the class, or
the member that it meets there, is ignored: words and places are added to it, and what grew stays grown. -/
namespace ClassDocs

namespace Metadata

/- How much there is to read. -/
def bulk (m : Metadata) : Nat := if m.hasDoc then (m.doc.getD "").length + 1 else 0

theorem documentedAppend {doc : String} (given : documented (some doc) = true) (more : String) :
    documented (some (doc ++ more)) = true := by
  simp only [documented, Option.any_some, Text.isBlankText, String.toList_append, List.all_append, Bool.not_eq_true',
    Bool.and_eq_false_iff] at given ⊢
  exact Or.inl given

theorem bulkAppend (m : Metadata) {paragraph : String} (given : documented (some paragraph) = true) :
    m.bulk < (m.appendDoc paragraph).bulk := by
  cases own : m.hasDoc with
  | false =>
    have after : (m.appendDoc paragraph).doc = some paragraph := by simp [appendDoc, own]
    have documented : (m.appendDoc paragraph).hasDoc = true := by rwa [hasDoc, after]
    simp [bulk, own, documented]
  | true =>
    obtain ⟨doc, said⟩ : ∃ doc, m.doc = some doc := by
      cases h : m.doc with
      | none => simp [hasDoc, h, ClassDocs.documented] at own
      | some doc => exact ⟨doc, rfl⟩
    have after : (m.appendDoc paragraph).doc = some (doc ++ "\n\n" ++ paragraph) := by simp [appendDoc, own, said]
    have documented : (m.appendDoc paragraph).hasDoc = true := by
      rw [hasDoc, said] at own
      rw [hasDoc, after]
      exact documentedAppend (documentedAppend own _) _
    have separator : "\n\n".length = 2 := rfl
    simp only [bulk, own, documented, if_true, after, said, Option.getD_some, String.length_append, separator]
    omega

end Metadata

namespace Declaration

theorem documentedFrom (source doc : String) : documented (some (fromOverride source doc)) = true := by
  have start : documented (some "**From override `") = true := by decide
  exact Metadata.documentedAppend (Metadata.documentedAppend (Metadata.documentedAppend start _) _) _

theorem documentedNote (source : String) (member : Declaration) : documented (some (overrideNote source member)) = true := by
  have start : documented (some "**Overridden in `") = true := by decide
  unfold overrideNote
  split
  · exact documentedFrom source _
  · exact Metadata.documentedAppend (Metadata.documentedAppend start _) _

end Declaration

/- At this place there is more to read than before. -/
def GrewAt (i : Nat) (before after : List Declaration) : Prop :=
  ∃ m m', before[i]? = some m ∧ after[i]? = some m' ∧ m.info.bulk < m'.info.bulk

/- Nowhere there is less to read than before. -/
def Grew (before after : List Declaration) : Prop :=
  ∀ (i : Nat) m, before[i]? = some m → ∃ m', after[i]? = some m' ∧ m.info.bulk ≤ m'.info.bulk

section Grew
variable {ms ms' ms'' : List Declaration} {i : Nat}

theorem grewTrans (first : Grew ms ms') (second : Grew ms' ms'') : Grew ms ms'' := by
  intro i m here
  obtain ⟨m', here', more⟩ := first i m here
  obtain ⟨m'', here'', more'⟩ := second i m' here'
  exact ⟨m'', here'', Nat.le_trans more more'⟩

theorem grewLater (first : GrewAt i ms ms') (second : Grew ms' ms'') : GrewAt i ms ms'' := by
  obtain ⟨m, m', here, here', more⟩ := first
  obtain ⟨m'', here'', more'⟩ := second i m' here'
  exact ⟨m, m'', here, here'', Nat.lt_of_lt_of_le more more'⟩

theorem grewBefore (there : i < ms.length) (first : Grew ms ms') (second : GrewAt i ms' ms'') : GrewAt i ms ms'' := by
  obtain ⟨m₁, here₁, more⟩ := first i _ (List.getElem?_eq_getElem there)
  obtain ⟨m', m'', here', here'', more'⟩ := second
  cases Option.some.inj (here₁.symm.trans here')
  exact ⟨_, m'', List.getElem?_eq_getElem there, here'', Nat.lt_of_le_of_lt more more'⟩

theorem grewReplaced {d d' : Declaration} (more : d.info.bulk < d'.info.bulk) (before after : List Declaration) :
    Grew (before ++ d :: after) (before ++ d' :: after) ∧
      GrewAt before.length (before ++ d :: after) (before ++ d' :: after) := by
  refine ⟨fun i m here => ?_, d, d', ?_, ?_, more⟩
  · rw [getReplaced before after d d']
    split
    · rename_i place
      rw [getReplaced before after d d, if_pos place] at here
      cases here
      exact ⟨d', rfl, Nat.le_of_lt more⟩
    · exact ⟨m, here, Nat.le_refl _⟩
  · rw [getReplaced before after d d, if_pos rfl]
  · rw [getReplaced before after d d', if_pos rfl]

theorem grewNotSpared {m : Declaration} (here : ms[i]? = some m) (grew : GrewAt i ms ms') (ignored : m.ignored = true) :
    ¬Spared ms ms' := by
  intro spared
  obtain ⟨m₀, m', here₀, here', more⟩ := grew
  cases Option.some.inj (here.symm.trans here₀)
  cases Option.some.inj ((spared i m here ignored).symm.trans here')
  exact absurd more (Nat.lt_irrefl _)

end Grew

namespace ClassEntry
open Declaration

section TakesIn
variable {className source : String} {member : Declaration} {ms ms' : List Declaration}

theorem outlinesTakesIn (h : TakesIn className source member ms ms') :
    ∃ more, ms'.map outline = ms.map outline ++ more ∧ ∀ o ∈ more, o.ignored = member.ignored := by
  cases h with
  | known first same => exact ⟨[], by simp [outline, Metadata.appendDoc], nofun⟩
  | new fresh => exact ⟨_, List.map_append, by simp [outline]⟩

theorem firstAt {before : List Declaration} {d : Declaration} (others : ∀ x ∈ before, x.signature ≠ member.signature)
    (same : d.signature = member.signature) (after : List Declaration) :
    (before ++ d :: after).findIdx? (·.isFor member.kind member.name) = some before.length ∧
      (before ++ d :: after).find? (·.isFor member.kind member.name) = some d := by
  have passed : ∀ x ∈ before, x.isFor member.kind member.name = false := fun x hx =>
    Bool.eq_false_iff.mpr fun fits => others x hx (isForSignature.mp fits)
  have fits : d.isFor member.kind member.name = true := isForSignature.mpr same
  have found := findAt passed fits after
  refine ⟨?_, found⟩
  have absent : before.findIdx? (·.isFor member.kind member.name) = none := List.findIdx?_eq_none_iff.mpr passed
  rw [List.findIdx?_append, absent, List.findIdx?_cons, if_pos fits]
  simp

theorem grewKnown (source : String) (member d : Declaration) (before after : List Declaration) :
    let d' := { d with info := d.info.appendDoc (overrideNote source member), files := d.files ++ member.files }
    Grew (before ++ d :: after) (before ++ d' :: after) ∧
      GrewAt before.length (before ++ d :: after) (before ++ d' :: after) :=
  grewReplaced (d.info.bulkAppend (documentedNote source member)) before after

theorem grewTakesIn (h : TakesIn className source member ms ms') : Grew ms ms' := by
  cases h with
  | @known before d after others same =>
    exact (grewKnown source member d before after).1
  | new fresh =>
    intro i m here
    refine ⟨m, ?_, Nat.le_refl _⟩
    rw [List.getElem?_append_left (List.getElem?_eq_some_iff.mp here).1]
    exact here

theorem grewFirst (h : TakesIn className source member ms ms') {i : Nat}
    (first : ms.findIdx? (·.isFor member.kind member.name) = some i) : GrewAt i ms ms' := by
  cases h with
  | @known before d after others same =>
    cases Option.some.inj (first.symm.trans (firstAt others same after).1)
    exact (grewKnown source member d before after).2
  | new fresh =>
    have absent : ms.findIdx? (·.isFor member.kind member.name) = none := List.findIdx?_eq_none_iff.mpr fun x hx =>
      Bool.eq_false_iff.mpr fun fits => fresh x hx (isForSignature.mp fits)
    rw [absent] at first
    contradiction

theorem sparedTakesIn (h : TakesIn className source member ms ms')
    (shown : ∀ m, ms.find? (·.isFor member.kind member.name) = some m → m.ignored = false) : Spared ms ms' := by
  cases h with
  | @known before d after others same =>
    have visible := shown d (firstAt others same after).2
    exact sparedAt (fun ignored => absurd ignored (by simp [visible])) before after
  | new fresh => exact sparedAppend ms _

end TakesIn

section TakesInAll
variable {className : String} {taken : List (String × Declaration)} {ms ms' : List Declaration}

theorem grewTakesInAll (h : TakesInAll className taken ms ms') : Grew ms ms' := by
  induction h with
  | nil => exact fun i m here => ⟨m, here, Nat.le_refl _⟩
  | cons first _ ih => exact grewTrans (grewTakesIn first) ih

theorem grewTaken (h : TakesInAll className taken ms ms') {t : String × Declaration} (ht : t ∈ taken) {i : Nat}
    (first : ms.findIdx? (·.isFor t.2.kind t.2.name) = some i) : GrewAt i ms ms' := by
  induction h with
  | nil => contradiction
  | cons step rest ih =>
    rcases List.mem_cons.mp ht with rfl | later
    · exact grewLater (grewFirst step first) (grewTakesInAll rest)
    · obtain ⟨more, outlines, -⟩ := outlinesTakesIn step
      have there : i < _ := (List.findIdx?_eq_some_iff_getElem.mp first).1
      exact grewBefore there (grewTakesIn step) (ih later (idxOutlines outlines first))

/- The first member of that kind and name is not ignored, if there is one. -/
def FirstShown (ms : List Declaration) (member : Declaration) : Prop :=
  ∀ m, ms.find? (·.isFor member.kind member.name) = some m → m.ignored = false

theorem firstShownTakesIn {source : String} {member other : Declaration} (step : TakesIn className source member ms ms')
    (visible : member.ignored = false) (shown : FirstShown ms other) : FirstShown ms' other := by
  intro m' found
  obtain ⟨more, outlines, added⟩ := outlinesTakesIn step
  cases before : ms.find? (·.isFor other.kind other.name) with
  | some m =>
    obtain ⟨i, first, here⟩ := findAtIdx.mp before
    obtain ⟨j, first', here'⟩ := findAtIdx.mp found
    cases Option.some.inj ((idxOutlines outlines first).symm.trans first')
    have same := congrArg (·[i]?) outlines
    rw [List.getElem?_append_left (by simpa using (List.getElem?_eq_some_iff.mp here).1)] at same
    simp only [List.getElem?_map, here, here', Option.map_some, Option.some.injEq] at same
    exact (congrArg Outline.ignored same).trans (shown m before)
  | none =>
    have there : m'.outline ∈ ms.map outline ++ more := outlines ▸ List.mem_map_of_mem (List.mem_of_find?_eq_some found)
    rcases List.mem_append.mp there with old | new
    · obtain ⟨m, hm, same⟩ := List.mem_map.mp old
      have fits : m.isFor other.kind other.name = true := (isForOutline same).trans (List.find?_some found)
      exact absurd fits (List.find?_eq_none.mp before m hm)
    · exact (added _ new).trans visible

theorem sparedTakesInAll (h : TakesInAll className taken ms ms') (visible : ∀ t ∈ taken, t.2.ignored = false) :
    Spared ms ms' ↔ ∀ t ∈ taken, FirstShown ms t.2 := by
  constructor
  · intro spared t ht m found
    obtain ⟨i, first, here⟩ := findAtIdx.mp found
    exact Bool.eq_false_iff.mpr fun ignored => grewNotSpared here (grewTaken h ht first) ignored spared
  · intro shown
    induction h with
    | nil => exact sparedSame _
    | cons step rest ih =>
      have here := visible _ List.mem_cons_self
      have later := ih (fun t ht => visible t (List.mem_cons_of_mem _ ht)) fun t ht =>
        firstShownTakesIn step here (shown t (List.mem_cons_of_mem _ ht))
      exact sparedTrans (sparedTakesIn step (shown _ List.mem_cons_self)) later

end TakesInAll

/- What the class takes from the override is nothing that it would add to something ignored. -/
structure TakesShown (e source : ClassEntry) : Prop where
  record : e.record.ignored = true → source.record.files = [] ∧ source.record.hasDoc = false
  members : ∀ member ∈ source.members, member.ignored = false → FirstShown e.members member

section Record
variable (e source : ClassEntry)

theorem recordFoldOverride : (e.foldOverride source).record = { e.record with
    info := if source.record.hasDoc then
        e.record.info.appendDoc (fromOverride source.name (source.record.info.doc.getD "")) else e.record.info
    files := e.record.files ++ source.record.files } := by
  rw [foldOverride, (foldMembersTook _ _ _).1]
  refine congrArg (fun info => { e.record with info, files := e.record.files ++ source.record.files }) ?_
  rw [hasDoc, Metadata.hasDoc, documented]
  cases source.record.info.doc with
  | none => rfl
  | some doc => cases blank : Text.isBlankText doc <;> simp [blank]

theorem recordSame (nothing : source.record.files = [] ∧ source.record.hasDoc = false) :
    (e.foldOverride source).record = e.record := by
  rw [recordFoldOverride, nothing.1, nothing.2, List.append_nil]
  rfl

def recordBulk (e : ClassEntry) : Nat := e.record.info.bulk + e.record.files.length

theorem recordGrew : e.recordBulk ≤ (e.foldOverride source).recordBulk ∧
    ((e.foldOverride source).recordBulk = e.recordBulk → source.record.files = [] ∧ source.record.hasDoc = false) := by
  rw [recordBulk, recordBulk, recordFoldOverride]
  have more := e.record.info.bulkAppend (documentedFrom source.name (source.record.info.doc.getD ""))
  cases words : source.record.hasDoc with
  | true =>
    simp only [if_true, List.length_append]
    exact ⟨by omega, fun same => by omega⟩
  | false =>
    simp only [Bool.false_eq_true, if_false, List.length_append, and_true]
    exact ⟨by omega, fun same => List.length_eq_zero_iff.mp (by omega)⟩

end Record

section Folded
variable (e : ClassEntry) (sources : List ClassEntry)

theorem recordsGrew : e.recordBulk ≤ (sources.foldl foldOverride e).recordBulk ∧
    ((sources.foldl foldOverride e).recordBulk = e.recordBulk →
      ∀ source ∈ sources, source.record.files = [] ∧ source.record.hasDoc = false) := by
  induction sources generalizing e with
  | nil => exact ⟨Nat.le_refl _, fun _ source hs => absurd hs List.not_mem_nil⟩
  | cons source rest ih =>
    obtain ⟨more, here⟩ := e.recordGrew source
    obtain ⟨later, others⟩ := ih (e.foldOverride source)
    rw [List.foldl_cons]
    refine ⟨Nat.le_trans more later, fun same s hs => ?_⟩
    have unchanged : (e.foldOverride source).recordBulk = e.recordBulk :=
      Nat.le_antisymm (Nat.le_trans later (Nat.le_of_eq same)) more
    rcases List.mem_cons.mp hs with rfl | hs
    · exact here unchanged
    · exact others (same.trans unchanged.symm) s hs

theorem recordFolded : (sources.foldl foldOverride e).record = e.record ↔
    ∀ source ∈ sources, source.record.files = [] ∧ source.record.hasDoc = false := by
  constructor
  · intro same
    refine (recordsGrew e sources).2 ?_
    rw [recordBulk, same]
    rfl
  · intro nothing
    induction sources generalizing e with
    | nil => rfl
    | cons source rest ih =>
      rw [List.foldl_cons, ih _ fun s hs => nothing s (List.mem_cons_of_mem _ hs)]
      exact recordSame e source (nothing source List.mem_cons_self)

theorem foldedTakes : e.TakesSources sources (sources.foldl foldOverride e) := by
  induction sources generalizing e with
  | nil => exact takesNone e
  | cons source rest ih => exact takesMore (takesOne e source) (ih (e.foldOverride source))

theorem sparesFolded : e.Spares (sources.foldl foldOverride e) ↔ ∀ source ∈ sources, e.TakesShown source := by
  have visible : ∀ t ∈ sources.flatMap contribution, t.2.ignored = false := by
    intro t ht
    obtain ⟨source, -, ht⟩ := List.mem_flatMap.mp ht
    obtain ⟨m, hm, rfl⟩ := List.mem_map.mp ht
    simpa using (List.mem_filter.mp hm).2
  have members := sparedTakesInAll (foldedTakes e sources).members visible
  have record := recordFolded e sources
  constructor
  · intro spares source hs
    refine ⟨fun ignored => record.mp (spares.record ignored) source hs, fun member hm shown => ?_⟩
    refine members.mp spares.members (source.record.name, member) (List.mem_flatMap.mpr ⟨source, hs, ?_⟩)
    exact List.mem_map.mpr ⟨member, List.mem_filter.mpr ⟨hm, by simp [shown]⟩, rfl⟩
  · intro shown
    refine ⟨fun ignored => record.mpr fun source hs => (shown source hs).record ignored, members.mpr fun t ht => ?_⟩
    obtain ⟨source, hs, ht⟩ := List.mem_flatMap.mp ht
    obtain ⟨m, hm, rfl⟩ := List.mem_map.mp ht
    obtain ⟨there, visible⟩ := List.mem_filter.mp hm
    exact (shown source hs).members m there (by simpa using visible)

end Folded
end ClassEntry
end ClassDocs
