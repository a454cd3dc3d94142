import ClassDocs.Registry

/-! Members of a registry, all together and class by class. Whatever puts a member into a class
does what `place` does, and `place` adds exactly that member at the end of that class. -/
namespace ClassDocs

namespace Declaration

def disowned (d : Declaration) : Declaration := { d with owner := none }

def ownedBy (className : String) (d : Declaration) : Declaration := { d with owner := some className }

@[simp] theorem disownedOwnedBy (className : String) (d : Declaration) :
    (d.ownedBy className).disowned = d.disowned := rfl

end Declaration

structure ClassEntry.Owns (key : String) (e : ClassEntry) : Prop where
  named : e.record.name = key
  owned : ∀ m ∈ e.members, m.owner = some key
  members : ∀ m ∈ e.members, m.kind ≠ .classKind

namespace ClassEntry

theorem ownsNothing (d : Declaration) : Owns d.name ⟨d, []⟩ := ⟨rfl, by simp, by simp⟩

theorem ownsPush {key : String} {e : ClassEntry} (h : e.Owns key) {d : Declaration} (member : d.kind ≠ .classKind) :
    (e.push d).Owns key := by
  refine ⟨h.named, ?_, ?_⟩ <;> intro m hm <;> rcases List.mem_append.mp hm with old | new
  · exact h.owned m old
  · cases List.mem_singleton.mp new
    exact congrArg some h.named
  · exact h.members m old
  · cases List.mem_singleton.mp new
    exact member

end ClassEntry

namespace Registry

def members (r : Registry) : List Declaration := r.values.flatMap ClassEntry.members

def membersOf (r : Registry) (className : String) : List Declaration :=
  ((r.get? className).map ClassEntry.members).getD []

theorem membersOfUnknown {r : Registry} {className : String} (h : className ∉ r.keys) : r.membersOf className = [] := by
  simp [membersOf, OrderedMap.getNone.mpr h]

theorem membersModify (r : Registry) (key : String) (f : ClassEntry → ClassEntry)
    (same : ∀ e, (f e).members = e.members) : members (r.modify key f) = r.members := by
  have each (entry : String × ClassEntry) :
      (if entry.1 = key then f entry.2 else entry.2).members = entry.2.members := by
    split <;> simp [same]
  simp [members, OrderedMap.values, OrderedMap.modify, OrderedMap.mapWithKey, List.flatMap_map, each]

theorem membersOfModify (r : Registry) (key : String) (f : ClassEntry → ClassEntry)
    (same : ∀ e, (f e).members = e.members) (className : String) :
    membersOf (r.modify key f) className = r.membersOf className := by
  rw [membersOf, OrderedMap.getModify]
  split <;> cases h : r.get? className <;> simp [membersOf, h, same]

theorem membersInsertFresh (r : Registry) (d : Declaration) (fresh : d.name ∉ r.keys) :
    members (insertEntry r ⟨d, []⟩) = r.members := by
  simp [members, OrderedMap.values, insertEntry, OrderedMap.entriesInsertFresh _ _ _ fresh]

theorem membersOfInsertFresh (r : Registry) (d : Declaration) (fresh : d.name ∉ r.keys) (className : String) :
    membersOf (insertEntry r ⟨d, []⟩) className = r.membersOf className := by
  rw [membersOf, insertEntry, OrderedMap.getInsert]
  split
  · rename_i same
    rw [same, membersOfUnknown fresh]
    rfl
  · rfl

theorem membersEnsure (r : Registry) (name : String) : members (ensure r name) = r.members := by
  unfold ensure
  split
  · rfl
  · simp [members, OrderedMap.values, OrderedMap.append]

theorem membersOfEnsure (r : Registry) (name className : String) :
    membersOf (ensure r name) className = r.membersOf className := by
  rw [membersOf, getEnsure]
  split
  · rename_i same
    subst same
    cases h : r.get? className <;> simp [membersOf, h]
  · rfl

theorem ensureKnown {r : Registry} {name : String} (h : name ∈ r.keys) : ensure r name = r := by
  simp [ensure, h]

theorem membersPush {r : Registry} {key : String} (known : key ∈ r.keys) (d : Declaration) :
    ((members (pushMember r key d)).map Declaration.disowned).Perm ((r.members ++ [d]).map Declaration.disowned) := by
  obtain ⟨before, e, after, entries, modified⟩ := OrderedMap.modifySplit known
  simp only [members, OrderedMap.values, pushMember, modified, entries, List.map_append, List.map_cons,
    List.flatMap_append, List.flatMap_cons, ClassEntry.push, List.append_assoc]
  have last (later : List Declaration) : ([d.disowned] ++ later).Perm (later ++ [d.disowned]) := List.perm_append_comm
  exact ((last _).append_left _).append_left _

/-- Puts a member into a class, which is made when it is not there. -/
def place (r : Registry) (claim : String × Declaration) : Registry := pushMember (ensure r claim.1) claim.1 claim.2

theorem placeKnown {r : Registry} {key : String} (known : key ∈ r.keys) (d : Declaration) :
    place r (key, d) = pushMember r key d := by
  rw [place, ensureKnown known]

theorem keysPlace (r : Registry) (claim : String × Declaration) :
    (place r claim).keys = if claim.1 ∈ r.keys then r.keys else r.keys ++ [claim.1] := by
  rw [place, pushMember, OrderedMap.keysModify, keysEnsure]

theorem membersPlace (r : Registry) (claim : String × Declaration) :
    ((members (place r claim)).map Declaration.disowned).Perm ((r.members ++ [claim.2]).map Declaration.disowned) := by
  rw [place, ← membersEnsure r claim.1]
  exact membersPush ((memEnsure r claim.1 claim.1).mpr (Or.inr rfl)) claim.2

theorem ownsPlace {r : Registry} (h : r.All ClassEntry.Owns) {claim : String × Declaration}
    (member : claim.2.kind ≠ .classKind) : (place r claim).All ClassEntry.Owns :=
  OrderedMap.allModify (allEnsure h (ClassEntry.ownsNothing (.emptyClass claim.1)))
    fun _ owns => ClassEntry.ownsPush owns member

theorem membersOfPlace {r : Registry} (h : r.All ClassEntry.Owns) (claim : String × Declaration) (className : String) :
    membersOf (place r claim) className =
      r.membersOf className ++ if claim.1 = className then [claim.2.ownedBy className] else [] := by
  obtain ⟨key, d⟩ := claim
  rw [membersOf, place, pushMember, OrderedMap.getModify, getEnsure]
  by_cases same : className = key
  · subst same
    cases known : r.get? className with
    | none => simp [membersOf, known, ClassEntry.push, Declaration.ownedBy, Declaration.emptyClass]
    | some e => simp [membersOf, known, ClassEntry.push, Declaration.ownedBy, (h _ e known).named]
  · simp [same, Ne.symm same, membersOf]

def placeAll (r : Registry) (claims : List (String × Declaration)) : Registry := claims.foldl place r

theorem membersPlaceAll (r : Registry) (claims : List (String × Declaration)) :
    ((members (placeAll r claims)).map Declaration.disowned).Perm
      ((r.members ++ claims.map Prod.snd).map Declaration.disowned) := by
  induction claims generalizing r with
  | nil => simp [placeAll]
  | cons claim rest ih =>
    have first := (membersPlace r claim).append_right ((rest.map Prod.snd).map Declaration.disowned)
    refine (ih (place r claim)).trans ?_
    simpa using first

theorem ownsPlaceAll {r : Registry} (h : r.All ClassEntry.Owns) {claims : List (String × Declaration)}
    (members : ∀ claim ∈ claims, claim.2.kind ≠ .classKind) : (placeAll r claims).All ClassEntry.Owns :=
  List.foldlRecOn claims place h fun _ owns claim hc => ownsPlace owns (members claim hc)

theorem membersOfPlaceAll {r : Registry} (h : r.All ClassEntry.Owns) {claims : List (String × Declaration)}
    (members : ∀ claim ∈ claims, claim.2.kind ≠ .classKind) (className : String) :
    membersOf (placeAll r claims) className = r.membersOf className ++
      (claims.filter (·.1 = className)).map (·.2.ownedBy className) := by
  induction claims generalizing r with
  | nil => simp [placeAll]
  | cons claim rest ih =>
    have later := ih (ownsPlace h (members claim (by simp))) fun c hc => members c (List.mem_cons_of_mem _ hc)
    have step : placeAll r (claim :: rest) = placeAll (place r claim) rest := rfl
    rw [step, later, membersOfPlace h, List.filter_cons]
    by_cases same : claim.1 = className <;> simp [same]

theorem eraseDupsConcat (names : List String) (name : String) :
    (names ++ [name]).eraseDups = if name ∈ names then names.eraseDups else names.eraseDups ++ [name] := by
  rw [List.eraseDups_append]
  by_cases known : name ∈ names <;> simp [known, List.removeAll, List.eraseDups_cons]

theorem keysPlaceAll {r : Registry} {names : List String} (h : r.keys = names.eraseDups)
    (claims : List (String × Declaration)) :
    (placeAll r claims).keys = (names ++ claims.map Prod.fst).eraseDups := by
  induction claims generalizing r names with
  | nil => simpa [placeAll] using h
  | cons claim rest ih =>
    have keys : (place r claim).keys = (names ++ [claim.1]).eraseDups := by
      rw [keysPlace, h, eraseDupsConcat]
      simp
    have step : placeAll r (claim :: rest) = placeAll (place r claim) rest := rfl
    rw [step, ih keys]
    simp

theorem keysPlaceAllKnown {r : Registry} {key : String} (known : key ∈ r.keys) (ds : List Declaration) :
    (placeAll r (ds.map (key, ·))).keys = r.keys := by
  induction ds generalizing r with
  | nil => rfl
  | cons d rest ih =>
    have keys : (place r (key, d)).keys = r.keys := by rw [keysPlace, if_pos known]
    have step : placeAll r ((d :: rest).map (key, ·)) = placeAll (place r (key, d)) (rest.map (key, ·)) := rfl
    rw [step, ih (keys ▸ known), keys]

theorem placeAllKnown {r : Registry} {key : String} (known : key ∈ r.keys) (ds : List Declaration) :
    ds.foldl (fun r d => pushMember r key d) r = placeAll r (ds.map (key, ·)) := by
  induction ds generalizing r with
  | nil => rfl
  | cons d rest ih =>
    have kept : key ∈ (pushMember r key d).keys := by rwa [pushMember, OrderedMap.keysModify]
    rw [List.foldl_cons, ih kept, ← placeKnown known]
    rfl

end Registry
end ClassDocs
