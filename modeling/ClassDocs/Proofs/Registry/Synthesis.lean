import ClassDocs.Proofs.Overrides.Taking
import ClassDocs.Proofs.Registry.Idempotence

/-! What accessors bring into a class. Afterwards every accessor has the members that it needs; what had to be added for
that comes from the first accessor that needs it, and meets no member of its kind and name. -/
namespace ClassDocs

namespace Declaration

/-- The members by which the value of an accessor is read and set, and the event of an evented one. -/
def needs (cfg : Declaration) : List Signature :=
  [⟨.method, "get" ++ Text.capitalized cfg.name⟩, ⟨.method, "set" ++ Text.capitalized cfg.name⟩] ++
    if cfg.info.evented then [⟨.event, Text.lower cfg.name ++ "change"⟩] else []

inductive HandledBy (cfg d : Declaration) : Prop where
  | getter (named : d.signature = ⟨.method, "get" ++ Text.capitalized cfg.name⟩)
      (returns : ∃ r, d.info.returns = some r ∧ r.typeName = cfg.info.typeName)
  | setter (named : d.signature = ⟨.method, "set" ++ Text.capitalized cfg.name⟩)
      (takes : ∃ p, d.info.params = [p] ∧ p.typeName = cfg.info.typeName)
  | event (evented : cfg.info.evented = true) (named : d.signature = ⟨.event, Text.lower cfg.name ++ "change"⟩)

structure Brings (cfg d : Declaration) : Prop where
  handled : cfg.HandledBy d
  owner : d.owner = cfg.owner
  files : d.files = cfg.files
  visibility : d.info.visibility = cfg.info.visibility
  isStatic : d.info.isStatic = cfg.info.isStatic
  autogenerated : d.info.autogenerated = true

variable {cfg d : Declaration} {className : String}

theorem accessorSignatures (cfg : Declaration) (className : String) : (cfg.accessors className).map signature = cfg.needs := by
  rw [accessors, needs]
  split <;> rfl

theorem accessorBrings (h : d ∈ cfg.accessors className) : cfg.Brings d := by
  simp only [accessors, List.cons_append, List.nil_append, List.mem_cons] at h
  rcases h with rfl | rfl | event
  · exact ⟨.getter rfl ⟨_, rfl, rfl⟩, rfl, rfl, rfl, rfl, rfl⟩
  · exact ⟨.setter rfl ⟨_, rfl, rfl⟩, rfl, rfl, rfl, rfl, rfl⟩
  · split at event
    · rename_i evented
      cases List.mem_singleton.mp event
      exact ⟨.event evented rfl, rfl, rfl, rfl, rfl, rfl⟩
    · contradiction

theorem notNeeded : (cfg.accessors className).find? (·.isFor d.kind d.name) = none ↔ d.signature ∉ cfg.needs := by
  rw [← accessorSignatures cfg className, List.find?_eq_none, List.mem_map]
  simp only [isForSignature, not_exists, not_and]

end Declaration

/-- The members added to a class give every accessor what it needs and was not there. -/
structure ClassEntry.Supplies (e : ClassEntry) (added : List Declaration) : Prop where
  present : ∀ cfg ∈ e.members, cfg.isAccessor = true → ∀ s ∈ cfg.needs, s ∈ (e.members ++ added).map Declaration.signature
  missing : ∀ d ∈ added, d.signature ∉ e.members.map Declaration.signature
  distinct : (added.map Declaration.signature).Nodup
  first : ∀ d ∈ added, ∃ before cfg after, e.members.filter (·.isAccessor) = before ++ cfg :: after ∧
    d.signature ∈ cfg.needs ∧ cfg.Brings d ∧ ∀ c ∈ before, d.signature ∉ c.needs

namespace ClassEntry
open Declaration

/- What is added is the first of its kind and name among all that is wanted. -/
theorem foldAddMissingFirst (members wanted : List Declaration) :
    ∃ added, wanted.foldl addMissing members = members ++ added ∧ (added.map signature).Nodup ∧
      ∀ d ∈ added, d.signature ∉ members.map signature ∧ wanted.find? (·.isFor d.kind d.name) = some d := by
  induction wanted generalizing members with
  | nil => exact ⟨[], by simp⟩
  | cons first rest ih =>
    have skip {d : Declaration} (other : d.signature ≠ first.signature) (found : rest.find? (·.isFor d.kind d.name) = some d) :
        (first :: rest).find? (·.isFor d.kind d.name) = some d := by
      rw [List.find?_cons_of_neg fun fits => other (isForSignature.mp fits).symm, found]
    rw [List.foldl_cons, addMissing]
    split
    · rename_i known
      obtain ⟨added, fold, distinct, each⟩ := ih members
      obtain ⟨m, hm, same⟩ := List.any_eq_true.mp known
      refine ⟨added, fold, distinct, fun d hd => ⟨(each d hd).1, skip (fun again => ?_) (each d hd).2⟩⟩
      exact (each d hd).1 (List.mem_map.mpr ⟨m, hm, (isForSignature.mp same).trans again.symm⟩)
    · rename_i missing
      obtain ⟨added, fold, distinct, each⟩ := ih (members ++ [first])
      have apart : ∀ d ∈ added, d.signature ∉ members.map signature ∧ d.signature ≠ first.signature := fun d hd => by
        simpa using (each d hd).1
      refine ⟨first :: added, by rw [fold, List.append_assoc]; rfl, ?_, fun d hd => ?_⟩
      · refine List.nodup_cons.mpr ⟨fun again => ?_, distinct⟩
        obtain ⟨d, hd, same⟩ := List.mem_map.mp again
        exact (apart d hd).2 same
      · rcases List.mem_cons.mp hd with rfl | later
        · refine ⟨fun there => missing ?_, List.find?_cons_of_pos (isForSignature.mpr rfl)⟩
          obtain ⟨m, hm, same⟩ := List.mem_map.mp there
          exact List.any_eq_true.mpr ⟨m, hm, isForSignature.mpr same⟩
        · exact ⟨(apart d later).1, skip (apart d later).2 (each d later).2⟩

theorem accessorsSupply {e : ClassEntry} (shown : e.record.ignored = false) :
    ∃ added, e.withAccessors = { e with members := e.members ++ added } ∧ e.Supplies added := by
  obtain ⟨added, fold, distinct, each⟩ :=
    foldAddMissingFirst e.members ((e.members.filter (·.isAccessor)).flatMap (·.accessors e.name))
  refine ⟨added, ?_, ⟨fun cfg hc accessor s hs => ?_, fun d hd => (each d hd).1, distinct, fun d hd => ?_⟩⟩
  · rw [withAccessors, if_neg (Bool.eq_false_iff.mp shown)]
    exact congrArg (ClassEntry.mk e.record) fold
  · rw [← accessorSignatures cfg e.name] at hs
    obtain ⟨d, hd, rfl⟩ := List.mem_map.mp hs
    have wanted : d ∈ (e.members.filter (·.isAccessor)).flatMap (·.accessors e.name) :=
      List.mem_flatMap.mpr ⟨cfg, List.mem_filter.mpr ⟨hc, accessor⟩, hd⟩
    obtain ⟨m, hm, same⟩ := List.any_eq_true.mp (foldAddMissingAdds e.members wanted)
    rw [fold] at hm
    exact List.mem_map.mpr ⟨m, hm, isForSignature.mp same⟩
  · have found := (each d hd).2
    rw [List.find?_flatMap] at found
    obtain ⟨before, cfg, after, accessors, here, others⟩ := List.findSome?_eq_some_iff.mp found
    have made := List.mem_of_find?_eq_some here
    refine ⟨before, cfg, after, accessors, ?_, accessorBrings made, fun c hc => notNeeded.mp (others c hc)⟩
    rw [← accessorSignatures cfg e.name]
    exact List.mem_map_of_mem made

end ClassEntry

/-- Each class that is shown keeps its members in front and is given what its accessors need; an ignored one stays as it is. -/
theorem accessorsSupplied (r : Registry) {key : String} {e : ClassEntry} (known : r.get? key = some e) :
    (e.record.ignored = true → r.withAccessors.get? key = some e) ∧
    (e.record.ignored = false →
      ∃ added, r.withAccessors.get? key = some { e with members := e.members ++ added } ∧ e.Supplies added) := by
  have after : r.withAccessors.get? key = some e.withAccessors := by
    rw [Registry.withAccessors, OrderedMap.getMap, known, Option.map_some]
  rw [after]
  constructor
  · intro ignored
    rw [ClassEntry.withAccessors, if_pos ignored]
  · intro shown
    obtain ⟨added, same, supplies⟩ := ClassEntry.accessorsSupply shown
    exact ⟨added, congrArg some same, supplies⟩

/- The accessor is written down twice, evented only the second time, and its setter is written out. -/
def placed : ClassEntry where
  record := { kind := .classKind, name := "Sprite", files := [⟨"sprite.js", 1⟩] }
  members := [
    { kind := .cfg, name := "x", owner := some "Sprite", files := [⟨"sprite.js", 3⟩],
      info := { typeName := some "Number", visibility := .protectedAccess, accessor := true } },
    { kind := .cfg, name := "x", owner := some "Sprite", files := [⟨"sprite.js", 6⟩], info := { accessor := true, evented := true } },
    { kind := .method, name := "setX", owner := some "Sprite", files := [⟨"sprite.js", 9⟩] }]

def placedRegistry : Registry := Registry.insertEntry .empty placed

theorem positionSupplied : placedRegistry.get? "Sprite" = some placed ∧ placed.record.ignored = false ∧
    ∃ getter event, placedRegistry.withAccessors.get? "Sprite" =
        some { placed with members := placed.members ++ [getter, event] } ∧ placed.Supplies [getter, event] ∧
      getter.signature = ⟨.method, "getX"⟩ ∧ getter.files = [⟨"sprite.js", 3⟩] ∧
      event.signature = ⟨.event, "xchange"⟩ ∧ event.files = [⟨"sprite.js", 6⟩] := by
  have known : placedRegistry.get? "Sprite" = some placed := by rfl
  obtain ⟨added, after, supplies⟩ := (accessorsSupplied placedRegistry known).2 rfl
  have upper : Text.upperChar 'x' = ['X'] := by decide +kernel
  have capital : Text.capitalized "x" = "X" := by simp [Text.capitalized, upper]
  have small : Text.lower "x" = "x" := Text.lowerSettled (Text.settledLetters (by decide))
  have outcome : placed.withAccessors.members.map (fun m => (m.signature, m.files)) =
      placed.members.map (fun m => (m.signature, m.files)) ++
        [(⟨.method, "getX"⟩, [⟨"sprite.js", 3⟩]), (⟨.event, "xchange"⟩, [⟨"sprite.js", 6⟩])] := by
    simp [placed, ClassEntry.withAccessors, Declaration.isAccessor, Declaration.accessors, Declaration.getter, Declaration.setter,
      Declaration.changeEvent, Declaration.derived, addMissing, Declaration.isFor, Declaration.signature, capital, small]
  have appended : placed.withAccessors = { placed with members := placed.members ++ added } := Option.some.inj after
  rw [appended, List.map_append] at outcome
  have names := List.append_cancel_left outcome
  obtain ⟨getter, rest, rfl, first, names⟩ := List.map_eq_cons_iff.mp names
  obtain ⟨event, rest, rfl, second, names⟩ := List.map_eq_cons_iff.mp names
  cases List.map_eq_nil_iff.mp names
  obtain ⟨getterName, getterFiles⟩ := Prod.mk.inj first
  obtain ⟨eventName, eventFiles⟩ := Prod.mk.inj second
  exact ⟨known, rfl, getter, event, after, supplies, getterName, getterFiles, eventName, eventFiles⟩

end ClassDocs
