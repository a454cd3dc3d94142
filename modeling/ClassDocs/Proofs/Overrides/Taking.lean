import ClassDocs.Proofs.Overrides.Folding

/-! What a class takes in. Each member of an override adds a paragraph and its places to the first
member of its kind and name, or is new. Which kinds and names a class has afterwards, and how often,
does not depend on the order in which its overrides come. -/
namespace ClassDocs

structure Signature where
  kind : Kind
  name : String
  deriving DecidableEq

namespace Declaration

def signature (d : Declaration) : Signature := ⟨d.kind, d.name⟩

theorem isForSignature {d member : Declaration} : d.isFor member.kind member.name = true ↔ d.signature = member.signature := by
  simp [isFor, signature]

def overrideNote (source : String) (member : Declaration) : String :=
  if member.hasDoc then "**From override `" ++ source ++ "`:** " ++ member.info.doc.getD ""
  else "**Overridden in `" ++ source ++ "`.**"

theorem noteText (doc : Option String) (missing : String) (given : String → String) : (match doc with
      | some doc => if Text.isBlankText doc then missing else given doc
      | none => missing) = if documented doc then given (doc.getD "") else missing := by
  cases doc with
  | none => rfl
  | some doc =>
    change (if Text.isBlankText doc = true then missing else given doc) = if (!Text.isBlankText doc) = true then given doc else missing
    cases Text.isBlankText doc <;> rfl

theorem mergeNote (d : Declaration) (source : String) (member : Declaration) : d.mergeOverride source member =
    { d with info := d.info.appendDoc (overrideNote source member), files := d.files ++ member.files } :=
  congrArg (fun note => { d with info := d.info.appendDoc note, files := d.files ++ member.files })
    (noteText member.info.doc ("**Overridden in `" ++ source ++ "`.**") (fromOverride source))

end Declaration

namespace ClassEntry
open Declaration

/-- The members of a class before and after it took in one member of the override `source`. -/
inductive TakesIn (className source : String) (member : Declaration) : List Declaration → List Declaration → Prop where
  | known {before d after} (first : ∀ x ∈ before, x.signature ≠ member.signature) (same : d.signature = member.signature) :
      TakesIn className source member (before ++ d :: after) (before ++
        { d with info := d.info.appendDoc (overrideNote source member), files := d.files ++ member.files } :: after)
  | new {ms} (fresh : ∀ x ∈ ms, x.signature ≠ member.signature) :
      TakesIn className source member ms (ms ++ [{ member with
        owner := some className
        info := member.info.appendDoc ("**Defined in override `" ++ source ++ "`.**") }])

/- Several members, each with the name of its override. -/
inductive TakesInAll (className : String) : List (String × Declaration) → List Declaration → List Declaration → Prop where
  | nil {ms} : TakesInAll className [] ms ms
  | cons {source member more ms ms' ms''} (first : TakesIn className source member ms ms')
      (rest : TakesInAll className more ms' ms'') : TakesInAll className ((source, member) :: more) ms ms''

theorem takesInMore {className : String} {taken more : List (String × Declaration)} {ms ms' ms'' : List Declaration}
    (h : TakesInAll className taken ms ms') (h' : TakesInAll className more ms' ms'') :
    TakesInAll className (taken ++ more) ms ms'' := by
  induction h with
  | nil => exact h'
  | cons first _ ih => exact .cons first (ih h')

theorem foldMemberTakes (e : ClassEntry) (source : String) {member : Declaration} (shown : member.ignored = false) :
    TakesIn e.record.name source member e.members (foldMember source e member).members := by
  have notIgnored : ¬member.ignored = true := Bool.eq_false_iff.mp shown
  by_cases known : e.hasMember member.kind member.name = true
  · obtain ⟨before, d, after, split, others, fits⟩ := anySplit known
    rw [foldMember, if_neg notIgnored, if_pos known]
    simp only [split, alterFirstAt others fits, mergeNote]
    refine .known (fun x hx same => ?_) (isForSignature.mp fits)
    exact absurd (isForSignature.mpr same) (Bool.eq_false_iff.mp (others x hx))
  · rw [foldMember, if_neg notIgnored, if_neg known]
    exact .new fun x hx same => known (List.any_eq_true.mpr ⟨x, hx, isForSignature.mpr same⟩)

/- Ignored members stay behind. -/
def contribution (e : ClassEntry) : List (String × Declaration) :=
  (e.members.filter (!·.ignored)).map fun m => (e.record.name, m)

theorem foldMembersTake (e : ClassEntry) (source : String) (ms : List Declaration) :
    TakesInAll e.record.name ((ms.filter (!·.ignored)).map fun m => (source, m)) e.members
      (ms.foldl (foldMember source) e).members := by
  induction ms generalizing e with
  | nil => exact .nil
  | cons m rest ih =>
    have later := ih (foldMember source e m)
    rw [recordFoldMember] at later
    cases ignored : m.ignored with
    | true =>
      have same : foldMember source e m = e := by rw [foldMember, if_pos ignored]
      rw [List.foldl_cons, List.filter_cons_of_neg (by simp [ignored])]
      rwa [same] at later ⊢
    | false =>
      rw [List.foldl_cons, List.filter_cons_of_pos (by simp [ignored])]
      exact .cons (foldMemberTakes e source ignored) later

/-- The class `e` before and `e'` after it took in the sources, one after another. -/
structure TakesSources (e : ClassEntry) (sources : List ClassEntry) (e' : ClassEntry) : Prop where
  record : ∃ doc, e'.record = { e.record with
    info := { e.record.info with doc }, files := e.record.files ++ sources.flatMap (·.record.files) }
  members : TakesInAll e.record.name (sources.flatMap contribution) e.members e'.members

theorem takesNone (e : ClassEntry) : e.TakesSources [] e := ⟨⟨e.record.info.doc, by simp⟩, .nil⟩

theorem takesOne (e source : ClassEntry) : e.TakesSources [source] (e.foldOverride source) := by
  obtain ⟨doc, fold⟩ := foldOverrideMembers e source
  let start : ClassEntry := { e with record :=
    { e.record with info := { e.record.info with doc }, files := e.record.files ++ source.record.files } }
  have record := (foldMembersTook source.name start source.members).1
  have members := foldMembersTake start source.name source.members
  rw [fold]
  exact ⟨⟨doc, by simpa [start] using record⟩, by simpa [contribution, name] using members⟩

theorem takesMore {e e' e'' : ClassEntry} {sources more : List ClassEntry} (first : e.TakesSources sources e')
    (second : e'.TakesSources more e'') : e.TakesSources (sources ++ more) e'' := by
  obtain ⟨doc, record⟩ := first.record
  obtain ⟨doc', record'⟩ := second.record
  have members := second.members
  have name : e'.record.name = e.record.name := by rw [record]
  rw [name] at members
  refine ⟨⟨doc', ?_⟩, ?_⟩
  · rw [record', record, List.flatMap_append, List.append_assoc]
  · rw [List.flatMap_append]
    exact takesInMore first.members members

end ClassEntry

namespace Registry

theorem takesAll {className : String} {e : Option ClassEntry} {sources : List ClassEntry} {e' : ClassEntry}
    (h : takeAll className e sources = some e') : (e.getD ⟨.emptyClass className, []⟩).TakesSources sources e' := by
  induction sources generalizing e with
  | nil =>
    cases h
    exact ClassEntry.takesNone e'
  | cons source rest ih => exact ClassEntry.takesMore (ClassEntry.takesOne _ source) (ih h)

end Registry

namespace ClassEntry
open Declaration

def addSignature (known : List (Signature)) (s : Signature) : List (Signature) :=
  if s ∈ known then known else known ++ [s]

theorem signatureTakesIn {className source : String} {member : Declaration} {ms ms' : List Declaration}
    (h : TakesIn className source member ms ms') : ms'.map signature = addSignature (ms.map signature) member.signature := by
  cases h with
  | @known before d after _ same =>
    have there : member.signature ∈ (before ++ d :: after).map signature := List.mem_map.mpr ⟨d, by simp, same⟩
    rw [addSignature, if_pos there]
    simp [signature]
  | new fresh =>
    have absent : member.signature ∉ ms.map signature := fun there => by
      obtain ⟨x, hx, same⟩ := List.mem_map.mp there
      exact fresh x hx same
    rw [addSignature, if_neg absent]
    simp [signature]

theorem signaturesTakeInAll {className : String} {taken : List (String × Declaration)} {ms ms' : List Declaration}
    (h : TakesInAll className taken ms ms') :
    ms'.map signature = (taken.map (·.2.signature)).foldl addSignature (ms.map signature) := by
  induction h with
  | nil => rfl
  | cons first _ ih => rw [ih, signatureTakesIn first, List.map_cons, List.foldl_cons]

theorem countAddSignature (known : List (Signature)) (s x : Signature) :
    (addSignature known s).count x = known.count x + if x ∉ known ∧ x = s then 1 else 0 := by
  unfold addSignature
  split
  · rename_i there
    rw [if_neg]
    · rfl
    · rintro ⟨absent, rfl⟩
      exact absent there
  · rename_i absent
    rw [List.count_append, List.count_singleton]
    by_cases same : x = s
    · subst same
      simp [absent]
    · simp [same, Ne.symm same]

theorem memAddSignature {known : List (Signature)} {s x : Signature} :
    x ∈ addSignature known s ↔ x ∈ known ∨ x = s := by
  unfold addSignature
  split
  · rename_i there
    exact ⟨Or.inl, fun h => h.elim id fun same => same ▸ there⟩
  · simp

/- The signatures are those of the class, with their counts, and every other one once. -/
theorem countAddSignatures (known taken : List (Signature)) (x : Signature) :
    (taken.foldl addSignature known).count x = known.count x + if x ∉ known ∧ x ∈ taken then 1 else 0 := by
  induction taken generalizing known with
  | nil => simp
  | cons s rest ih =>
    rw [List.foldl_cons, ih, countAddSignature]
    by_cases there : x ∈ known
    · simp [there, memAddSignature]
    · by_cases same : x = s
      · simp [same, memAddSignature]
      · simp [there, same, memAddSignature]

end ClassEntry
end ClassDocs
