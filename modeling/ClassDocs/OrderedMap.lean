/-! Maps from names that keep the order in which names were first put in. Putting a known name
in again replaces its value where it stands. -/
namespace ClassDocs

structure OrderedMap (α : Type) where
  entries : List (String × α)
  distinct : (entries.map Prod.fst).Nodup

namespace OrderedMap
variable {α : Type}

def empty : OrderedMap α := ⟨[], by simp⟩

instance : Inhabited (OrderedMap α) := ⟨empty⟩

def keys (m : OrderedMap α) : List String := m.entries.map Prod.fst

def values (m : OrderedMap α) : List α := m.entries.map Prod.snd

def size (m : OrderedMap α) : Nat := m.entries.length

def get? (m : OrderedMap α) (key : String) : Option α :=
  (m.entries.find? fun entry => entry.1 == key).map Prod.snd

def contains (m : OrderedMap α) (key : String) : Bool := m.keys.contains key

theorem containsIff {m : OrderedMap α} {key : String} : m.contains key = true ↔ key ∈ m.keys := by
  simp [contains]

theorem getIffMem {m : OrderedMap α} {key : String} {value : α} :
    m.get? key = some value ↔ (key, value) ∈ m.entries := by
  obtain ⟨entries, distinct⟩ := m
  simp only [get?]
  induction entries with
  | nil => simp
  | cons entry rest ih =>
    obtain ⟨fresh, distinct⟩ := List.nodup_cons.mp distinct
    by_cases same : entry.1 = key
    · have absent : (key, value) ∉ rest := fun h =>
        fresh (List.mem_map.mpr ⟨_, h, same.symm⟩)
      simp [same, absent, Prod.ext_iff, eq_comm]
    · have other : (key, value) ≠ entry := fun h => same (congrArg Prod.fst h).symm
      simpa [same, other] using ih distinct

theorem memKeys {m : OrderedMap α} {key : String} : key ∈ m.keys ↔ ∃ value, m.get? key = some value := by
  simp only [getIffMem, keys, List.mem_map, Prod.exists]
  exact ⟨fun ⟨_, value, h, same⟩ => ⟨value, same ▸ h⟩, fun ⟨value, h⟩ => ⟨key, value, h, rfl⟩⟩

theorem getNone {m : OrderedMap α} {key : String} : m.get? key = none ↔ key ∉ m.keys := by
  rw [memKeys]
  cases m.get? key <;> simp

theorem memKeysOfGet {m : OrderedMap α} {key : String} {value : α} (h : m.get? key = some value) : key ∈ m.keys :=
  memKeys.mpr ⟨value, h⟩

theorem memValues {m : OrderedMap α} {value : α} : value ∈ m.values ↔ ∃ key, m.get? key = some value := by
  simp [values, getIffMem]

def mapWithKey {β : Type} (f : String → α → β) (m : OrderedMap α) : OrderedMap β where
  entries := m.entries.map fun entry => (entry.1, f entry.1 entry.2)
  distinct := by simpa [Function.comp_def] using m.distinct

def map {β : Type} (f : α → β) (m : OrderedMap α) : OrderedMap β := m.mapWithKey fun _ => f

@[simp] theorem keysMapWithKey {β : Type} (f : String → α → β) (m : OrderedMap α) :
    (m.mapWithKey f).keys = m.keys := by
  simp [keys, mapWithKey, Function.comp_def]

@[simp] theorem keysMap {β : Type} (f : α → β) (m : OrderedMap α) : (m.map f).keys = m.keys :=
  keysMapWithKey _ m

@[simp] theorem valuesMap {β : Type} (f : α → β) (m : OrderedMap α) :
    (m.map f).values = m.values.map f := by
  simp [values, map, mapWithKey, Function.comp_def]

theorem getMapWithKey {β : Type} (f : String → α → β) (m : OrderedMap α) (key : String) :
    (m.mapWithKey f).get? key = (m.get? key).map (f key) := by
  obtain ⟨entries, distinct⟩ := m
  simp only [get?, mapWithKey]
  induction entries with
  | nil => rfl
  | cons entry rest ih =>
    by_cases same : entry.1 = key
    · simp [same]
    · simpa [same] using ih (List.nodup_cons.mp distinct).2

@[simp] theorem getMap {β : Type} (f : α → β) (m : OrderedMap α) (key : String) :
    (m.map f).get? key = (m.get? key).map f :=
  getMapWithKey _ m key

theorem mapWithKeyTwice {β γ : Type} (f : String → α → β) (g : String → β → γ) (m : OrderedMap α) :
    (m.mapWithKey f).mapWithKey g = m.mapWithKey fun key value => g key (f key value) := by
  simp [mapWithKey, Function.comp_def]

theorem mapWithKeyCongr {β : Type} {f g : String → α → β} {m : OrderedMap α}
    (same : ∀ key value, m.get? key = some value → f key value = g key value) : m.mapWithKey f = m.mapWithKey g := by
  simp only [mapWithKey, mk.injEq]
  exact List.map_congr_left fun entry h => congrArg (Prod.mk entry.1) (same _ _ (getIffMem.mpr h))

theorem mapMap {β γ : Type} (f : α → β) (g : β → γ) (m : OrderedMap α) : (m.map f).map g = m.map (g ∘ f) :=
  mapWithKeyTwice ..

theorem mapCongr {β : Type} {f g : α → β} {m : OrderedMap α}
    (same : ∀ key value, m.get? key = some value → f value = g value) : m.map f = m.map g :=
  mapWithKeyCongr same

theorem mapTwice {f : α → α} (twice : ∀ a, f (f a) = f a) (m : OrderedMap α) : (m.map f).map f = m.map f := by
  rw [mapMap]
  exact mapCongr fun _ value _ => twice value

def modify (m : OrderedMap α) (key : String) (f : α → α) : OrderedMap α :=
  m.mapWithKey fun k v => if k = key then f v else v

@[simp] theorem keysModify (m : OrderedMap α) (key : String) (f : α → α) :
    (m.modify key f).keys = m.keys :=
  keysMapWithKey _ m

theorem getModify (m : OrderedMap α) (key : String) (f : α → α) (k : String) :
    (m.modify key f).get? k = if k = key then (m.get? k).map f else m.get? k := by
  rw [modify, getMapWithKey]
  split <;> simp

theorem modifySplit {m : OrderedMap α} {key : String} (known : key ∈ m.keys) :
    ∃ before value after, m.entries = before ++ (key, value) :: after ∧
      ∀ f : α → α, (m.modify key f).entries = before ++ (key, f value) :: after := by
  obtain ⟨value, found⟩ := memKeys.mp known
  obtain ⟨before, after, entries⟩ := List.append_of_mem (getIffMem.mp found)
  have distinct := m.distinct
  simp only [entries, List.map_append, List.map_cons, List.nodup_append, List.nodup_cons] at distinct
  have first : ∀ entry ∈ before, entry.1 ≠ key := fun entry h =>
    distinct.2.2 _ (List.mem_map.mpr ⟨entry, h, rfl⟩) _ (by simp)
  have last : ∀ entry ∈ after, entry.1 ≠ key := fun entry h same =>
    distinct.2.1.1 (List.mem_map.mpr ⟨entry, h, same⟩)
  refine ⟨before, value, after, entries, fun f => ?_⟩
  have others (part : List (String × α)) (h : ∀ entry ∈ part, entry.1 ≠ key) :
      part.map (fun entry => (entry.1, if entry.1 = key then f entry.2 else entry.2)) = part := by
    rw [List.map_congr_left (g := id) fun entry he => by rw [if_neg (h entry he)]; rfl, List.map_id]
  simp [modify, mapWithKey, entries, others before first, others after last]

def append (m : OrderedMap α) (key : String) (value : α) (fresh : key ∉ m.keys) : OrderedMap α where
  entries := m.entries ++ [(key, value)]
  distinct := by
    rw [List.map_append, List.nodup_append]
    exact ⟨m.distinct, by simp, by
      intro a ha b hb h
      simp only [List.map_cons, List.map_nil, List.mem_singleton] at hb
      exact fresh (by rw [← hb, ← h]; exact ha)⟩

theorem getAppend (m : OrderedMap α) (key : String) (value : α) (fresh : key ∉ m.keys) (k : String) :
    (m.append key value fresh).get? k = if k = key then some value else m.get? k := by
  have absent := getNone.mpr fresh
  simp only [get?, Option.map_eq_none_iff] at absent
  by_cases same : k = key
  · simp [get?, append, List.find?_append, same, absent]
  · simp [get?, append, List.find?_append, same, Ne.symm same]

def insert (m : OrderedMap α) (key : String) (value : α) : OrderedMap α :=
  if fresh : key ∈ m.keys then m.modify key fun _ => value else m.append key value fresh

theorem keysInsert (m : OrderedMap α) (key : String) (value : α) :
    (m.insert key value).keys = if key ∈ m.keys then m.keys else m.keys ++ [key] := by
  unfold insert
  split
  · simp
  · simp [append, keys]

theorem getInsert (m : OrderedMap α) (key : String) (value : α) (k : String) :
    (m.insert key value).get? k = if k = key then some value else m.get? k := by
  unfold insert
  split
  · rename_i known
    obtain ⟨old, h⟩ := memKeys.mp known
    rw [getModify]
    split
    · rename_i same
      simp [same, h]
    · rfl
  · exact getAppend m key value _ k

theorem entriesInsertFresh (m : OrderedMap α) (key : String) (value : α) (fresh : key ∉ m.keys) :
    (m.insert key value).entries = m.entries ++ [(key, value)] := by
  simp [insert, fresh, append]

def erase (m : OrderedMap α) (key : String) : OrderedMap α where
  entries := m.entries.filter fun entry => entry.1 != key
  distinct := m.distinct.sublist ((List.filter_sublist ..).map Prod.fst)

theorem keysErase (m : OrderedMap α) (key : String) :
    (m.erase key).keys = m.keys.filter (· != key) := by
  simp [keys, erase, List.filter_map, Function.comp_def]

theorem getErase (m : OrderedMap α) (key k : String) :
    (m.erase key).get? k = if k = key then none else m.get? k := by
  simp only [get?, erase, List.find?_filter]
  split
  · rename_i same
    simp [same]
  · rename_i other
    congr 2
    funext entry
    by_cases h : entry.1 = k
    · simp [h, other]
    · simp [h]

/-- Later pairs replace the values of earlier ones with the same name. -/
def ofList (pairs : List (String × α)) : OrderedMap α :=
  pairs.foldl (fun m pair => m.insert pair.1 pair.2) empty

theorem entriesFoldInsert (m : OrderedMap α) (pairs : List (String × α))
    (distinct : ((m.entries ++ pairs).map Prod.fst).Nodup) :
    (pairs.foldl (fun m pair => m.insert pair.1 pair.2) m).entries = m.entries ++ pairs := by
  induction pairs generalizing m with
  | nil => simp
  | cons pair rest ih =>
    have fresh : pair.1 ∉ m.keys := by
      rw [List.map_append, List.nodup_append] at distinct
      exact fun known => distinct.2.2 _ known _ (by simp) rfl
    have entries := entriesInsertFresh m pair.1 pair.2 fresh
    rw [List.foldl_cons, ih _ (by simpa [entries] using distinct), entries]
    simp

theorem entriesOfList {pairs : List (String × α)} (distinct : (pairs.map Prod.fst).Nodup) :
    (ofList pairs).entries = pairs :=
  entriesFoldInsert empty pairs (by simpa [empty] using distinct)

def All (P : String → α → Prop) (m : OrderedMap α) : Prop :=
  ∀ key value, m.get? key = some value → P key value

section All
variable {m : OrderedMap α} {P : String → α → Prop} {key : String}

theorem allEmpty : (empty : OrderedMap α).All P := by
  intro key value h
  simp [empty, get?] at h

theorem allMap {β : Type} {Q : String → β → Prop} {f : α → β} (h : m.All P)
    (keeps : ∀ k v, P k v → Q k (f v)) : (m.map f).All Q := by
  intro k v found
  rw [getMap] at found
  obtain ⟨old, known, rfl⟩ := Option.map_eq_some_iff.mp found
  exact keeps k old (h k old known)

theorem allModify {f : α → α} (h : m.All P) (keeps : ∀ v, P key v → P key (f v)) : (m.modify key f).All P := by
  intro k v found
  rw [getModify] at found
  split at found
  · rename_i same
    subst same
    obtain ⟨old, known, rfl⟩ := Option.map_eq_some_iff.mp found
    exact keeps old (h k old known)
  · exact h k v found

theorem allInsert {value : α} (h : m.All P) (new : P key value) : (m.insert key value).All P := by
  intro k v found
  rw [getInsert] at found
  split at found
  · rename_i same
    cases found
    exact same ▸ new
  · exact h k v found

end All
end OrderedMap
end ClassDocs
