import ClassDocs.Proofs.Registry.Members
import ClassDocs.Registry.Ignoring
import ClassDocs.Registry.Accessors
import ClassDocs.Registry.Events
import ClassDocs.Registry.Enums

/-! What decides where a member appears: all but its texts, types and places. The refinements of a
class keep the outlines of its members, in order and up to the letter case of events, and add
outlines of members that are not written in any source. -/
namespace ClassDocs

structure Outline where
  kind : Kind
  name : String
  owner : Option String
  ignored : Bool
  marked : Bool
  autogenerated : Bool
  deriving DecidableEq

namespace Outline

/-- A member that the class `className` was given by a refinement. -/
structure Generated (className : String) (o : Outline) : Prop where
  member : o.kind ≠ .classKind
  owner : o.owner = some className
  shown : o.ignored = false
  unmarked : o.marked = false
  autogenerated : o.autogenerated = true

def marks (classIgnored : Bool) (o : Outline) : Outline := { o with ignored := o.ignored || classIgnored || o.marked }

def lowered (applies : Bool) (o : Outline) : Outline :=
  { o with name := if applies && o.kind == .event && !o.ignored then Text.lower o.name else o.name }

def refined (lowers classIgnored : Bool) (o : Outline) : Outline :=
  (o.marks classIgnored).lowered (lowers && !classIgnored)

theorem loweredNever (o : Outline) : o.lowered false = o := by simp [lowered]

theorem generatedLowered {className : String} {o : Outline} (h : o.Generated className) (applies : Bool) :
    (o.lowered applies).Generated className :=
  ⟨h.member, h.owner, h.shown, h.unmarked, h.autogenerated⟩

end Outline

def Declaration.outline (d : Declaration) : Outline :=
  ⟨d.kind, d.name, d.owner, d.ignored, d.info.ignore, d.info.autogenerated⟩

def ClassEntry.outlines (e : ClassEntry) : List Outline := e.members.map Declaration.outline

namespace ClassEntry

theorem ownsIff {key : String} {e : ClassEntry} :
    e.Owns key ↔ e.record.name = key ∧ ∀ o ∈ e.outlines, o.owner = some key ∧ o.kind ≠ .classKind := by
  constructor
  · intro h
    refine ⟨h.named, fun o ho => ?_⟩
    obtain ⟨m, hm, rfl⟩ := List.mem_map.mp ho
    exact ⟨h.owned m hm, h.members m hm⟩
  · intro ⟨named, h⟩
    have each : ∀ m ∈ e.members, m.owner = some key ∧ m.kind ≠ .classKind := fun m hm =>
      h m.outline (List.mem_map.mpr ⟨m, hm, rfl⟩)
    exact ⟨named, fun m hm => (each m hm).1, fun m hm => (each m hm).2⟩

theorem outlinesMark (e : ClassEntry) :
    e.markIgnored.outlines = e.outlines.map (·.marks (e.record.ignored || e.record.info.ignore)) := by
  simp [outlines, markIgnored, Outline.marks, Declaration.outline, Function.comp_def]

theorem foldAddMissing (members wanted : List Declaration) :
    ∃ added, wanted.foldl addMissing members = members ++ added ∧ ∀ d ∈ added, d ∈ wanted := by
  induction wanted generalizing members with
  | nil => exact ⟨[], by simp⟩
  | cons d rest ih =>
    obtain ⟨added, fold, source⟩ := ih (addMissing members d)
    by_cases known : members.any (·.isFor d.kind d.name) = true
    · have same : addMissing members d = members := by rw [addMissing, if_pos known]
      exact ⟨added, by rw [List.foldl_cons, fold, same], fun x hx => List.mem_cons_of_mem _ (source x hx)⟩
    · have more : addMissing members d = members ++ [d] := by rw [addMissing, if_neg known]
      refine ⟨d :: added, by rw [List.foldl_cons, fold, more, List.append_assoc]; rfl, ?_⟩
      intro x hx
      rcases List.mem_cons.mp hx with rfl | later
      · exact List.mem_cons_self
      · exact List.mem_cons_of_mem _ (source x later)

theorem accessorsGenerated {cfg d : Declaration} {className : String} (owner : cfg.owner = some className)
    (h : d ∈ cfg.accessors className) : d.outline.Generated className := by
  simp only [Declaration.accessors, List.cons_append, List.nil_append, List.mem_cons] at h
  rcases h with rfl | rfl | event
  · exact ⟨nofun, owner, rfl, rfl, rfl⟩
  · exact ⟨nofun, owner, rfl, rfl, rfl⟩
  · split at event
    · cases List.mem_singleton.mp event
      exact ⟨nofun, owner, rfl, rfl, rfl⟩
    · contradiction

theorem recordAccessors (e : ClassEntry) : e.withAccessors.record = e.record := by
  unfold withAccessors
  split <;> rfl

theorem outlinesAccessors {e : ClassEntry} (h : e.Owns e.record.name) :
    ∃ added, e.withAccessors.outlines = e.outlines ++ added ∧ ∀ o ∈ added, o.Generated e.record.name := by
  unfold withAccessors
  split
  · exact ⟨[], by simp⟩
  · obtain ⟨added, fold, source⟩ := foldAddMissing e.members
      ((e.members.filter (·.isAccessor)).flatMap (·.accessors e.name))
    refine ⟨added.map Declaration.outline, by simp [outlines, fold], ?_⟩
    intro o ho
    obtain ⟨d, hd, rfl⟩ := List.mem_map.mp ho
    obtain ⟨cfg, hc, hd⟩ := List.mem_flatMap.mp (source d hd)
    exact accessorsGenerated (h.owned cfg (List.mem_filter.mp hc).1) hd

theorem recordEvents (e : ClassEntry) : e.withEventConvention.record = e.record := by
  unfold withEventConvention
  split <;> rfl

theorem outlinesEvents (e : ClassEntry) :
    e.withEventConvention.outlines = e.outlines.map (·.lowered (!e.record.ignored)) := by
  unfold withEventConvention
  split
  · rename_i ignored
    simp [ignored, Outline.loweredNever]
  · rename_i shown
    simp only [outlines, List.map_map]
    refine List.map_congr_left fun m _ => ?_
    by_cases event : m.isEvent = true
    · have applies : m.kind = .event ∧ m.ignored = false := by simpa [Declaration.isEvent] using event
      simp [Outline.lowered, Declaration.outline, Declaration.conventionalEvent, event, shown, applies]
    · have never : m.kind = .event → m.ignored = true := by simpa [Declaration.isEvent] using event
      have same : ¬(m.kind = .event ∧ m.ignored = false) := fun both => by simp [never both.1] at both
      simp [Outline.lowered, Declaration.outline, event, shown, same]

end ClassEntry

namespace Declaration

theorem mapAlterFirst {α : Type} {p : Declaration → Bool} {f : Declaration → Declaration} {g : Declaration → α}
    (keeps : ∀ d, g (f d) = g d) (ds : List Declaration) : (alterFirst p f ds).map g = ds.map g := by
  induction ds with
  | nil => rfl
  | cons d rest ih =>
    unfold alterFirst
    split
    · simp [keeps]
    · simp [ih]

theorem isForOutline {kind : Kind} {name : String} {d d' : Declaration} (same : d'.outline = d.outline) :
    d'.isFor kind name = d.isFor kind name := by
  have sameKind : d'.kind = d.kind := congrArg Outline.kind same
  have sameName : d'.name = d.name := congrArg Outline.name same
  rw [isFor, isFor, sameKind, sameName]

theorem alterFirstAt {p : Declaration → Bool} {f : Declaration → Declaration} {before : List Declaration} {d : Declaration}
    (others : ∀ x ∈ before, p x = false) (here : p d = true) (after : List Declaration) :
    alterFirst p f (before ++ d :: after) = before ++ f d :: after := by
  induction before with
  | nil => simp [alterFirst, here]
  | cons first rest ih =>
    have other := others first List.mem_cons_self
    simp [alterFirst, other, ih fun x hx => others x (List.mem_cons_of_mem _ hx)]

theorem findAt {p : Declaration → Bool} {before : List Declaration} {d : Declaration}
    (others : ∀ x ∈ before, p x = false) (here : p d = true) (after : List Declaration) :
    (before ++ d :: after).find? p = some d := by
  rw [List.find?_append, List.find?_eq_none.mpr fun x hx => Bool.eq_false_iff.mp (others x hx), Option.none_or,
    List.find?_cons_of_pos here]

theorem findSplit {p : Declaration → Bool} {ds : List Declaration} {d : Declaration} (found : ds.find? p = some d) :
    ∃ before after, ds = before ++ d :: after ∧ (∀ x ∈ before, p x = false) ∧ p d = true := by
  obtain ⟨here, before, after, split, others⟩ := List.find?_eq_some_iff_append.mp found
  exact ⟨before, after, split, fun x hx => by simpa using others x hx, here⟩

theorem anySplit {p : Declaration → Bool} {ds : List Declaration} (known : ds.any p = true) :
    ∃ before d after, ds = before ++ d :: after ∧ (∀ x ∈ before, p x = false) ∧ p d = true := by
  obtain ⟨d, found⟩ := Option.isSome_iff_exists.mp (List.find?_isSome.mpr (List.any_eq_true.mp known))
  obtain ⟨before, after, split⟩ := findSplit found
  exact ⟨before, d, after, split⟩

theorem outlineWithDefault (text : String) (d : Declaration) : (d.withDefault text).outline = d.outline := by
  unfold withDefault
  split <;> rfl

theorem outlineWithType (type : String) (d : Declaration) : (d.withType type).outline = d.outline := by
  unfold withType
  split <;> rfl

end Declaration

namespace ClassEntry

/- Whatever a default leaves as it is, an enumeration does not change either. -/
theorem membersEnumValue {α : Type} {g : Declaration → α} (e : ClassEntry) (members added : List Declaration) (v : EnumValue)
    (keeps : ∀ d : Declaration, g (d.withDefault v.literal) = g d) :
    (e.addEnumValue (members, added) v).1.map g = members.map g := by
  rcases e.addEnumValueCases members added v with ⟨-, step⟩ | ⟨-, -, step⟩ | ⟨-, -, step⟩ <;> rw [step]
  exact Declaration.mapAlterFirst keeps members

theorem foldEnumValues (e : ClassEntry) (values : List EnumValue) (members added : List Declaration)
    (generated : ∀ d ∈ added, d.outline.Generated e.record.name) :
    (values.foldl e.addEnumValue (members, added)).1.map Declaration.outline = members.map Declaration.outline ∧
      ∀ d ∈ (values.foldl e.addEnumValue (members, added)).2, d.outline.Generated e.record.name := by
  induction values generalizing members added with
  | nil => exact ⟨rfl, generated⟩
  | cons v rest ih =>
    rw [List.foldl_cons, ← membersEnumValue e members added v (Declaration.outlineWithDefault v.literal)]
    refine ih (e.addEnumValue (members, added) v).1 (e.addEnumValue (members, added) v).2 fun d hd => ?_
    rcases e.addEnumValueCases members added v with ⟨-, step⟩ | ⟨-, -, step⟩ | ⟨-, -, step⟩ <;> rw [step] at hd
    · exact generated d hd
    · exact generated d hd
    · rcases List.mem_append.mp hd with old | new
      · exact generated d old
      · cases List.mem_singleton.mp new
        exact ⟨nofun, rfl, rfl, rfl, rfl⟩

theorem outlinesWithEnumType (e : ClassEntry) (type : Option String) : (e.withEnumType type).outlines = e.outlines := by
  cases type with
  | none => rfl
  | some t =>
    have same : Declaration.outline ∘ Declaration.withType t = Declaration.outline :=
      funext (Declaration.outlineWithType t)
    simp [outlines, withEnumType, same]

theorem outlinesEnum (e : ClassEntry) :
    ∃ added, e.withEnum.value.outlines = e.outlines ++ added ∧ ∀ o ∈ added, o.Generated e.record.name := by
  have nothing : ∃ added, e.outlines = e.outlines ++ added ∧ ∀ o ∈ added, o.Generated e.record.name := ⟨[], by simp⟩
  unfold withEnum
  split
  · split
    · exact nothing
    · rename_i spec _ _
      obtain ⟨kept, generated⟩ := foldEnumValues e (e.enumValues spec).value e.members [] (by simp)
      refine ⟨((e.enumValues spec).value.foldl e.addEnumValue (e.members, [])).2.map Declaration.outline, ?_, ?_⟩
      · simp only [expandEnum, Reported.valueBind, Reported.valuePure, outlinesWithEnumType]
        simp only [outlines, List.map_append, kept]
      · intro o ho
        obtain ⟨d, hd, rfl⟩ := List.mem_map.mp ho
        exact generated d hd
  · exact nothing

theorem recordEnum (e : ClassEntry) : ∃ enumSpec, e.withEnum.value.record =
    { e.record with info := { e.record.info with classInfo := { e.record.info.classInfo with enumSpec } } } := by
  unfold withEnum
  split
  · split
    · exact ⟨e.record.info.classInfo.enumSpec, rfl⟩
    · exact ⟨_, rfl⟩
  · exact ⟨e.record.info.classInfo.enumSpec, rfl⟩

/-- All refinements of one class, which the event convention reaches when `lowers` is true. -/
def refined (lowers : Bool) (e : ClassEntry) : ClassEntry :=
  let e := e.markIgnored.withAccessors
  (if lowers then e.withEventConvention else e).withEnum.value

structure RefinedTo (lowers : Bool) (e e' : ClassEntry) : Prop where
  name : e'.record.name = e.record.name
  ignored : e'.record.ignored = (e.record.ignored || e.record.info.ignore)
  marked : e'.record.info.ignore = e.record.info.ignore
  overrideTarget : e'.record.info.classInfo.overrideTarget = e.record.info.classInfo.overrideTarget
  outlines : ∃ added, e'.outlines =
      e.outlines.map (·.refined lowers (e.record.ignored || e.record.info.ignore)) ++ added ∧
    ∀ o ∈ added, o.Generated e.record.name

theorem ownsMark {key : String} {e : ClassEntry} (h : e.Owns key) : e.markIgnored.Owns key := by
  rw [ownsIff, outlinesMark]
  refine ⟨h.named, fun o ho => ?_⟩
  obtain ⟨old, hold, rfl⟩ := List.mem_map.mp ho
  exact (ownsIff.mp h).2 old hold

theorem recordConvention (lowers : Bool) (e : ClassEntry) :
    (if lowers then e.withEventConvention else e).record = e.record := by
  split
  · exact recordEvents e
  · rfl

theorem outlinesConvention (lowers : Bool) (e : ClassEntry) :
    (if lowers then e.withEventConvention else e).outlines = e.outlines.map (·.lowered (lowers && !e.record.ignored)) := by
  cases lowers with
  | false => simp [Outline.loweredNever]
  | true => simp [outlinesEvents]

theorem refinedTo (lowers : Bool) {e : ClassEntry} (h : e.Owns e.record.name) : e.RefinedTo lowers (e.refined lowers) := by
  let before := e.markIgnored.withAccessors
  let e' := if lowers then before.withEventConvention else before
  obtain ⟨made, accessors, madeGenerated⟩ := outlinesAccessors (e := e.markIgnored) (ownsMark h)
  obtain ⟨values, enumOutlines, valuesGenerated⟩ := outlinesEnum e'
  obtain ⟨enumSpec, enumRecord⟩ := recordEnum e'
  have record : e'.record = e.markIgnored.record := (recordConvention lowers before).trans (recordAccessors _)
  have name : e'.record.name = e.record.name := by rw [record]; rfl
  have outlines : e'.outlines = e.outlines.map (·.refined lowers (e.record.ignored || e.record.info.ignore)) ++
      made.map (·.lowered (lowers && !before.record.ignored)) := by
    rw [outlinesConvention, accessors, outlinesMark, List.map_append, List.map_map, recordAccessors]
    rfl
  refine ⟨?_, ?_, ?_, ?_, made.map (·.lowered (lowers && !before.record.ignored)) ++ values, ?_, ?_⟩
  · change e'.withEnum.value.record.name = _
    rw [enumRecord]
    exact name
  · change e'.withEnum.value.record.ignored = _
    rw [enumRecord, record]
    rfl
  · change e'.withEnum.value.record.info.ignore = _
    rw [enumRecord, record]
    rfl
  · change e'.withEnum.value.record.info.classInfo.overrideTarget = _
    rw [enumRecord, record]
    rfl
  · change e'.withEnum.value.outlines = _
    rw [enumOutlines, outlines, List.append_assoc]
  · intro o ho
    rcases List.mem_append.mp ho with old | new
    · obtain ⟨original, hm, rfl⟩ := List.mem_map.mp old
      exact Outline.generatedLowered (madeGenerated original hm) _
    · exact name ▸ valuesGenerated o new

theorem ownsRefined {lowers : Bool} {key : String} {e : ClassEntry} (h : e.Owns key) : (e.refined lowers).Owns key := by
  cases h.named
  obtain ⟨name, -, -, -, added, outlines, generated⟩ := refinedTo lowers h
  rw [ownsIff, outlines]
  refine ⟨name, fun o ho => ?_⟩
  rcases List.mem_append.mp ho with old | new
  · obtain ⟨original, known, rfl⟩ := List.mem_map.mp old
    exact (ownsIff.mp h).2 original known
  · exact ⟨(generated o new).owner, (generated o new).member⟩

/-- What asks in its comment to be left out is ignored. -/
structure Marked (e : ClassEntry) : Prop where
  record : e.record.info.ignore = true → e.record.ignored = true
  members : ∀ o ∈ e.outlines, o.marked = true → o.ignored = true

theorem markedRefined {lowers : Bool} {key : String} {e : ClassEntry} (h : e.Owns key) : (e.refined lowers).Marked := by
  cases h.named
  obtain ⟨-, ignored, marked, -, added, outlines, generated⟩ := refinedTo lowers h
  refine ⟨fun asks => ?_, fun o ho asks => ?_⟩
  · rw [ignored, ← marked, asks, Bool.or_true]
  · rw [outlines] at ho
    rcases List.mem_append.mp ho with old | new
    · obtain ⟨original, -, rfl⟩ := List.mem_map.mp old
      have own : original.marked = true := asks
      simp [Outline.refined, Outline.lowered, Outline.marks, own]
    · rw [(generated o new).unmarked] at asks
      contradiction

end ClassEntry

namespace Registry

theorem eventConventionRecords {mode : EventMode} {r : Registry} {f : ClassEntry → ClassEntry}
    (keeps : ∀ e, (f e).record.info = e.record.info) : eventConventionApplies mode (r.map f) = eventConventionApplies mode r := by
  cases mode with
  | auto => simp [eventConventionApplies, Function.comp_def, keeps]
  | ext4 => rfl
  | legacy => rfl

end Registry
end ClassDocs
