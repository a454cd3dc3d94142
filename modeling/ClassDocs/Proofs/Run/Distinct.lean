import ClassDocs.Proofs.Overrides.Exact
import ClassDocs.Proofs.Run.Draft
import ClassDocs.Proofs.Registry.Idempotence

/-! Members told apart by kind and name. What the refinements add is never there yet, and what overrides bring
is merged with what is there; only an event in other letter case can meet the event that an accessor brings. -/
namespace ClassDocs

/- For events letter case does not count. -/
def Signature.caseless (s : Signature) : Signature :=
  { s with name := if s.kind = .event then Text.lower s.name else s.name }

def Outline.signature (o : Outline) : Signature := ⟨o.kind, o.name⟩

namespace Declaration

/- The signature of a member once the event convention has reached its class, if it does. -/
def conventional (applies : Bool) (d : Declaration) : Signature := (d.outline.lowered applies).signature

theorem caselessConventional (applies : Bool) (d : Declaration) :
    (d.conventional applies).caseless = d.signature.caseless := by
  refine congrArg (Signature.mk d.kind) ?_
  change (if d.kind = .event then Text.lower (d.outline.lowered applies).name else (d.outline.lowered applies).name) =
    if d.kind = .event then Text.lower d.name else d.name
  split
  · simp only [Outline.lowered]
    split
    · exact Text.lowerLowered d.name
    · rfl
  · rename_i other
    simp [Outline.lowered, outline, other]

theorem lowerChangeName (name : String) : Text.lower (Text.lower name ++ "change") = Text.lower name ++ "change" := by
  refine Text.lowerSettled fun c hc => ?_
  rw [String.toList_append] at hc
  rcases List.mem_append.mp hc with own | added
  · exact Text.settledLower name c own
  · exact Text.settledLetters (by decide) c added

theorem accessorCases {cfg d : Declaration} {className : String} (h : d ∈ cfg.accessors className) :
    d.kind = .method ∨ cfg.info.evented = true ∧ d = cfg.changeEvent className := by
  simp only [accessors, List.cons_append, List.nil_append, List.mem_cons] at h
  rcases h with rfl | rfl | event
  · exact Or.inl rfl
  · exact Or.inl rfl
  · split at event
    · rename_i evented
      exact Or.inr ⟨evented, List.mem_singleton.mp event⟩
    · contradiction

/- What an accessor brings has its final name from the start. -/
theorem conventionalAccessor {cfg d x : Declaration} {className : String} (h : d ∈ cfg.accessors className)
    (same : x.signature = d.signature) (applies : Bool) : x.conventional applies = d.signature := by
  rw [← same]
  refine congrArg (Signature.mk x.kind) ?_
  simp only [Outline.lowered]
  split
  · rename_i lowers
    have event : x.kind = .event := by simp_all [outline]
    have kind : x.kind = d.kind := congrArg Signature.kind same
    have name : x.name = d.name := congrArg Signature.name same
    rcases accessorCases h with method | ⟨-, rfl⟩
    · rw [kind, method] at event
      contradiction
    · exact (congrArg Text.lower name).trans ((lowerChangeName cfg.name).trans name.symm)
  · rfl

section Added
variable {applies : Bool} {ms ds : List Declaration}

theorem nodupOfAgreeing (distinct : (ms.map (conventional applies)).Nodup)
    (fixed : ∀ d ∈ ds, d.conventional applies = d.signature)
    (agree : ∀ d ∈ ds, ∀ m ∈ ms, m.conventional applies = d.signature → m.signature = d.signature) :
    ((ds.foldl addMissing ms).map (conventional applies)).Nodup := by
  induction ds generalizing ms with
  | nil => exact distinct
  | cons d rest ih =>
    have here := fixed d List.mem_cons_self
    have later : ∀ x ∈ rest, x.conventional applies = x.signature := fun x hx => fixed x (List.mem_cons_of_mem _ hx)
    rw [List.foldl_cons, addMissing]
    split
    · exact ih distinct later fun x hx => agree x (List.mem_cons_of_mem _ hx)
    · rename_i missing
      refine ih ?_ later fun x hx m hm same => ?_
      · rw [List.map_append, List.map_singleton, ← List.concat_eq_append, List.nodup_concat]
        refine ⟨fun there => ?_, distinct⟩
        obtain ⟨m, hm, same⟩ := List.mem_map.mp there
        exact missing (List.any_eq_true.mpr ⟨m, hm, isForSignature.mpr (agree d List.mem_cons_self m hm (same.trans here))⟩)
      · rcases List.mem_append.mp hm with old | new
        · exact agree x (List.mem_cons_of_mem _ hx) m old same
        · cases List.mem_singleton.mp new
          exact here.symm.trans same

/- What is missing is told by exact names. So a member that only the convention gives such a name stands twice. -/
theorem nodupAdded (distinct : (ms.map (conventional applies)).Nodup)
    (fixed : ∀ d ∈ ds, ∀ x : Declaration, x.signature = d.signature → x.conventional applies = d.signature) :
    ((ds.foldl addMissing ms).map (conventional applies)).Nodup ↔
      ∀ d ∈ ds, ∀ m ∈ ms, m.conventional applies = d.signature → m.signature = d.signature := by
  refine ⟨fun after d hd m hm same => ?_, nodupOfAgreeing distinct fun d hd => fixed d hd d rfl⟩
  obtain ⟨x, hx, fits⟩ := List.any_eq_true.mp (ClassEntry.foldAddMissingAdds ms hd)
  obtain ⟨added, fold, -⟩ := ClassEntry.foldAddMissing ms ds
  have there : m ∈ ds.foldl addMissing ms := by
    rw [fold]
    exact List.mem_append_left _ hm
  have named : x.signature = d.signature := isForSignature.mp fits
  have one : x = m := List.inj_on_of_nodup_map after hx there ((fixed d hd x named).trans same.symm)
  rw [← one, named]

end Added
end Declaration

namespace ClassEntry
open Declaration

def signatures (e : ClassEntry) : List Signature := e.members.map signature

theorem nodupAddSignatures {known taken : List Signature} : (taken.foldl addSignature known).Nodup ↔ known.Nodup := by
  simp only [List.nodup_iff_count_le_one, countAddSignatures]
  refine forall_congr' fun s => ?_
  by_cases there : s ∈ known
  · simp [there]
  · have none : known.count s = 0 := List.count_eq_zero.mpr there
    rw [none]
    split <;> simp

theorem signaturesEnumValue (e : ClassEntry) {state : List Declaration × List Declaration} (v : EnumValue)
    (added : AddedProperties state) : ((e.addEnumValue state v).1 ++ (e.addEnumValue state v).2).map signature =
      addSignature ((state.1 ++ state.2).map signature) ⟨.property, v.name⟩ := by
  obtain ⟨ms, ps⟩ := state
  have named (d : Declaration) : d.isFor .property v.name = true ↔ d.signature = ⟨.property, v.name⟩ :=
    @isForSignature d (e.enumProperty v)
  rcases e.addEnumValueCases ms ps v with ⟨⟨d, hd, same⟩, step⟩ | ⟨-, known, step⟩ | ⟨fresh, missing, step⟩ <;> rw [step]
  · have there : ⟨.property, v.name⟩ ∈ (ms ++ ps).map signature :=
      List.mem_map.mpr ⟨d, List.mem_append_right _ hd, by rw [signature, (added d hd).1, same]⟩
    rw [addSignature, if_pos there]
  · obtain ⟨d, hd, fits⟩ := List.any_eq_true.mp known
    have there : ⟨.property, v.name⟩ ∈ (ms ++ ps).map signature :=
      List.mem_map.mpr ⟨d, List.mem_append_left _ hd, (named d).mp fits⟩
    have keeps (d : Declaration) : (d.withDefault v.literal).signature = d.signature :=
      congrArg Outline.signature (outlineWithDefault v.literal d)
    rw [addSignature, if_pos there, List.map_append, List.map_append, mapAlterFirst keeps]
  · have absent : ⟨.property, v.name⟩ ∉ (ms ++ ps).map signature := fun there => by
      obtain ⟨d, hd, same⟩ := List.mem_map.mp there
      rcases List.mem_append.mp hd with old | new
      · exact List.any_eq_false.mp missing d old ((named d).mpr same)
      · exact fresh d new (congrArg Signature.name same)
    rw [addSignature, if_neg absent, ← List.append_assoc, List.map_append]
    rfl

theorem signaturesEnumValues (e : ClassEntry) {state : List Declaration × List Declaration} (values : List EnumValue)
    (added : AddedProperties state) :
    ((values.foldl e.addEnumValue state).1 ++ (values.foldl e.addEnumValue state).2).map signature =
      (values.map fun v => ⟨.property, v.name⟩).foldl addSignature ((state.1 ++ state.2).map signature) := by
  induction values generalizing state with
  | nil => rfl
  | cons v rest ih => rw [List.foldl_cons, ih (addedProperties e v added), signaturesEnumValue e v added]; rfl

theorem signaturesOutlines (e : ClassEntry) : e.signatures = e.outlines.map Outline.signature := by
  rw [outlines, List.map_map]
  rfl

theorem nodupEnum (e : ClassEntry) : e.withEnum.value.signatures.Nodup ↔ e.signatures.Nodup := by
  unfold withEnum
  split
  · split
    · rfl
    · rename_i spec _ _
      have start : AddedProperties (e.members, []) := fun d hd => by contradiction
      have signatures := signaturesEnumValues e (e.enumValues spec).value start
      rw [List.append_nil] at signatures
      simp only [expandEnum, Reported.valueBind, Reported.valuePure, signaturesOutlines, outlinesWithEnumType]
      rw [← signaturesOutlines, ← signaturesOutlines, ClassEntry.signatures, signatures, nodupAddSignatures]
      rfl
  · rfl

theorem signaturesConvention (lowers : Bool) (e : ClassEntry) : (if lowers then e.withEventConvention else e).signatures =
    e.members.map (conventional (lowers && !e.record.ignored)) := by
  rw [signaturesOutlines, outlinesConvention, outlines, List.map_map, List.map_map]
  rfl

/- An accessor's event that is written out has the very name that the accessor would give it. -/
def EventsAgree (e : ClassEntry) : Prop :=
  ∀ cfg ∈ e.members, cfg.isAccessor = true → cfg.info.evented = true → ∀ m ∈ e.members, m.isEvent = true →
    Text.lower m.name = Text.lower cfg.name ++ "change" → m.name = Text.lower cfg.name ++ "change"

theorem agreeIgnored {e : ClassEntry} (ignored : e.markIgnored.record.ignored = true) : e.markIgnored.EventsAgree := by
  intro cfg hc accessor
  obtain ⟨d, -, rfl⟩ := List.mem_map.mp hc
  simp_all [markIgnored, isAccessor]

section Refined
variable {e : ClassEntry} (lowers : Bool)

/- Only events that are not ignored have another name by the convention than before. -/
theorem agreeIff {applies : Bool} :
    (∀ d ∈ (e.members.filter (·.isAccessor)).flatMap (·.accessors e.name), ∀ m ∈ e.members,
      m.conventional applies = d.signature → m.signature = d.signature) ↔ (applies = true → e.EventsAgree) := by
  constructor
  · rintro agree rfl cfg hc accessor evented m hm event same
    have wanted : cfg.changeEvent e.name ∈ cfg.accessors e.name := by simp [accessors, evented]
    have kind : m.kind = .event ∧ m.ignored = false := by simpa [isEvent] using event
    have conventional : m.conventional true = (cfg.changeEvent e.name).signature := by
      simp only [conventional, Outline.lowered, outline, kind, Outline.signature]
      exact congrArg (Signature.mk .event) same
    have found := agree _ (List.mem_flatMap.mpr ⟨cfg, List.mem_filter.mpr ⟨hc, accessor⟩, wanted⟩) m hm conventional
    exact congrArg Signature.name found
  · intro agree d hd m hm same
    obtain ⟨cfg, hc, made⟩ := List.mem_flatMap.mp hd
    obtain ⟨member, accessor⟩ := List.mem_filter.mp hc
    -- of what an accessor makes, only the event of its changes can meet an event
    by_cases lowered : applies = true ∧ m.isEvent = true
    · obtain ⟨rfl, event⟩ := lowered
      have kind : m.kind = .event ∧ m.ignored = false := by simpa [isEvent] using event
      have conventional : m.conventional true = ⟨.event, Text.lower m.name⟩ := by
        simp [conventional, Outline.lowered, outline, kind, Outline.signature]
      rw [conventional] at same
      rcases accessorCases made with method | ⟨evented, rfl⟩
      · have kinds := congrArg Signature.kind same
        rw [signature, method] at kinds
        contradiction
      · have name : m.name = Text.lower cfg.name ++ "change" :=
          agree rfl cfg member accessor evented m hm event (congrArg Signature.name same)
        rw [signature, kind.1, name]
        rfl
    · rw [← same]
      refine congrArg (Signature.mk m.kind) ?_
      simp only [Outline.lowered]
      rw [if_neg]
      · rfl
      · simp_all [isEvent, outline]

theorem nodupAccessors (applies : Bool) (shown : e.record.ignored = false)
    (distinct : (e.members.map (conventional applies)).Nodup) :
    (e.withAccessors.members.map (conventional applies)).Nodup ↔ (applies = true → e.EventsAgree) := by
  rw [withAccessors, if_neg (by simp [shown]), ← agreeIff]
  refine nodupAdded distinct fun d hd x same => ?_
  obtain ⟨cfg, -, made⟩ := List.mem_flatMap.mp hd
  exact conventionalAccessor made same applies

theorem nodupRefined (apart : (e.members.map (·.signature.caseless)).Nodup) :
    (e.refined lowers).signatures.Nodup ↔ (lowers = true → e.markIgnored.EventsAgree) := by
  have distinct (applies : Bool) : (e.markIgnored.members.map (conventional applies)).Nodup := by
    refine List.Nodup.of_map Signature.caseless ?_
    rw [List.map_map]
    have same : e.markIgnored.members.map (Signature.caseless ∘ conventional applies) =
        e.members.map (·.signature.caseless) := by
      rw [markIgnored, List.map_map]
      exact List.map_congr_left fun m _ => caselessConventional applies _
    rwa [same]
  rw [refined, nodupEnum, signaturesConvention, recordAccessors]
  cases ignored : e.markIgnored.record.ignored with
  | true =>
    rw [withAccessors, if_pos ignored, iff_true_left (distinct _)]
    exact fun _ => agreeIgnored ignored
  | false => rw [nodupAccessors _ ignored (distinct _), Bool.not_false, Bool.and_true]

theorem recordRefined : ∃ enumSpec, (e.refined lowers).record = { e.markIgnored.record with
    info := { e.record.info with classInfo := { e.record.info.classInfo with enumSpec } } } := by
  obtain ⟨enumSpec, record⟩ :=
    recordEnum (if lowers then e.markIgnored.withAccessors.withEventConvention else e.markIgnored.withAccessors)
  rw [recordConvention, recordAccessors] at record
  exact ⟨enumSpec, record⟩

end Refined
end ClassEntry

theorem signaturesRefine {settings : Settings} {d : Draft} (named : d.registry.Named) (className : String) :
    (((d.refine settings Refinement.all).value.registry.membersOf className).map Declaration.signature).Nodup ↔
      ∀ e, d.registry.get? className = some e → d.registry.overrideTarget? className = none →
        (e.refined (Registry.eventConventionApplies settings.eventMode d.registry)).signatures.Nodup := by
  rw [refineValue]
  generalize Registry.eventConventionApplies settings.eventMode d.registry = lowers
  have records (e : ClassEntry) := e.recordRefined lowers
  have named' : Registry.Named (d.registry.map (ClassEntry.refined lowers)) := OrderedMap.allMap named fun key e name => by
    obtain ⟨enumSpec, record⟩ := records e
    rw [record]
    exact name
  have target : Registry.overrideTarget? (d.registry.map (ClassEntry.refined lowers)) className =
      d.registry.overrideTarget? className := by
    rw [Registry.overrideTarget?, Registry.overrideTarget?, OrderedMap.getMap]
    cases d.registry.get? className with
    | none => rfl
    | some e =>
      obtain ⟨enumSpec, record⟩ := records e
      simp [record]
  rw [Draft.signaturesFolded named', target, Registry.membersOf, OrderedMap.getMap]
  cases overrides : d.registry.overrideTarget? className with
  | some => simp
  | none =>
    rw [if_neg (by simp), ClassEntry.nodupAddSignatures]
    cases d.registry.get? className with
    | none => simp
    | some e => simp [ClassEntry.signatures]

/-- The refinements keep the members of each class apart exactly if no accessor meets, in other letter
case than its own, the event that it brings. -/
theorem refinedApart (settings : Settings) {d : Draft} (named : d.registry.Named)
    (apart : ∀ className, ((d.registry.membersOf className).map (·.signature.caseless)).Nodup) :
    (∀ className, (((d.refine settings Refinement.all).value.registry.membersOf className).map
      Declaration.signature).Nodup) ↔
      (Registry.eventConventionApplies settings.eventMode d.registry = true → ∀ className e,
        d.registry.get? className = some e → d.registry.overrideTarget? className = none → e.markIgnored.EventsAgree) := by
  have each (className : String) (e : ClassEntry) (known : d.registry.get? className = some e) :=
    ClassEntry.nodupRefined (e := e) (Registry.eventConventionApplies settings.eventMode d.registry)
      (by simpa [Registry.membersOf, known] using apart className)
  constructor
  · intro after applies className e known last
    exact (each className e known).mp ((signaturesRefine named className).mp (after className) e known last) applies
  · intro agree className
    refine (signaturesRefine named className).mpr fun e known last => (each className e known).mpr fun applies => ?_
    exact agree applies className e known last

/- A class with an accessor, and with an event that its comments name. -/
def fieldEntry (event : String) : ClassEntry where
  record := { kind := .classKind, name := "Field", files := [⟨"field.js", 1⟩] }
  members := [
    { kind := .cfg, name := "value", owner := some "Field", files := [⟨"field.js", 3⟩],
      info := { accessor := true, evented := true } },
    { kind := .event, name := event, owner := some "Field", files := [⟨"field.js", 7⟩] }]

def fieldFiles (event : String) : List FileResult :=
  [⟨"field.js", (fieldEntry event).record :: (fieldEntry event).members⟩]

def fieldDraft (event : String) : Draft := ⟨(aggregate (fieldFiles event)).value, .empty⟩

theorem fieldAggregated (event : String) : (fieldDraft event).registry = Registry.insertEntry .empty (fieldEntry event) := rfl

theorem fieldOnly {event className : String} {e : ClassEntry} (found : (fieldDraft event).registry.get? className = some e) :
    className = "Field" ∧ e = fieldEntry event := by
  rw [fieldAggregated, Registry.insertEntry, OrderedMap.getInsert] at found
  split at found
  · rename_i same
    exact ⟨same, (Option.some.inj found).symm⟩
  · contradiction

theorem fieldNamed (event : String) : (fieldDraft event).registry.Named := fun key e found => by
  obtain ⟨rfl, rfl⟩ := fieldOnly found
  rfl

theorem fieldCaseless (event className : String) :
    (((fieldDraft event).registry.membersOf className).map (·.signature.caseless)).Nodup := by
  rw [Registry.membersOf]
  cases found : (fieldDraft event).registry.get? className with
  | none => exact .nil
  | some e =>
    obtain ⟨rfl, rfl⟩ := fieldOnly found
    simp [fieldEntry, Declaration.signature, Signature.caseless]

theorem fieldApart : (fieldDraft "valuechange").registry.Named ∧
    (∀ className, (((fieldDraft "valuechange").registry.membersOf className).map (·.signature.caseless)).Nodup) ∧
    ∀ className, ((((fieldDraft "valuechange").refine { eventMode := .ext4 } Refinement.all).value.registry.membersOf
      className).map Declaration.signature).Nodup := by
  refine ⟨fieldNamed _, fieldCaseless _, (refinedApart _ (fieldNamed _) (fieldCaseless _)).mpr fun _ className e found _ => ?_⟩
  obtain ⟨rfl, rfl⟩ := fieldOnly found
  intro cfg hc accessor evented m hm event same
  simp only [fieldEntry, ClassEntry.markIgnored, List.map_cons, List.map_nil, List.mem_cons, List.not_mem_nil,
    or_false] at hc hm
  rcases hc with rfl | rfl
  · rcases hm with rfl | rfl
    · contradiction
    · exact (Text.lowerSettled (Text.settledLetters (by decide))).symm.trans same
  · contradiction

theorem fieldTwice : (fieldDraft "valueChange").registry.Named ∧
    (∀ className, (((fieldDraft "valueChange").registry.membersOf className).map (·.signature.caseless)).Nodup) ∧
    (((fieldDraft "valueChange").refine { eventMode := .ext4 } Refinement.all).value.registry.membersOf "Field").map
      Declaration.signature = [⟨.cfg, "value"⟩, ⟨.event, "valuechange"⟩, ⟨.method, "getValue"⟩, ⟨.method, "setValue"⟩,
        ⟨.event, "valuechange"⟩] := by
  refine ⟨fieldNamed _, fieldCaseless _, ?_⟩
  decide +kernel

end ClassDocs
