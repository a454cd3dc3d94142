import ClassDocs.Proofs.Graph.Completion
import ClassDocs.Proofs.Registry.Related

/-! What earlier releases tell, by their age: they are listed oldest first. The first one with an item dates it, the last one with
words for it lends them, and an item that none of them has is new. What an item has of its own is never replaced. -/
namespace ClassDocs

namespace Metadata

section History
variable (releases : List Release) (mention? : Release → Option (Option String))

def Tells (r : Release) (text : String) : Prop := mention? r = some (some text) ∧ documented (some text) = true

inductive Since (m : Metadata) : Option String → Prop where
  | own {version} (given : m.since = some version) : Since m (some version)
  | oldest {before r after} (undated : m.since = none) (split : releases = before ++ r :: after)
      (known : mention? r ≠ none) (unknown : ∀ older ∈ before, mention? older = none) : Since m (some r.version)
  | never (undated : m.since = none) (unknown : ∀ r ∈ releases, mention? r = none) : Since m none

inductive Worded (m : Metadata) : Option String → Prop where
  | own (documented : m.hasDoc = true) : Worded m m.doc
  | newest {before r after text} (undocumented : m.hasDoc = false) (split : releases = before ++ r :: after)
      (told : Tells mention? r text) (silent : ∀ newer ∈ after, ∀ text, ¬Tells mention? newer text) : Worded m (some text)
  | untold (undocumented : m.hasDoc = false) (silent : ∀ r ∈ releases, ∀ text, ¬Tells mention? r text) : Worded m none

/-- An item before and after it has been looked up in the releases. -/
structure Merged (m m' : Metadata) : Prop where
  isNew : m'.isNew = true ↔ ∀ r ∈ releases, mention? r = none
  since : Since releases mention? m m'.since
  doc : Worded releases mention? m m'.doc
  rest : m' = { m with isNew := m'.isNew, since := m'.since, doc := m'.doc }

/-- What is known of an item stays known when there are more releases. -/
structure Refined (m m' : Metadata) : Prop where
  since : ∀ version, m.since = some version → m'.since = some version
  known : m.isNew = false → m'.isNew = false

theorem tellsIff {r : Release} {text : String} :
    (((mention? r).bind id).filter fun d => documented (some d)) = some text ↔ Tells mention? r text := by
  rw [Option.filter_eq_some_iff, Tells]
  refine and_congr_left fun _ => ?_
  cases mention? r <;> simp

theorem silentIff {r : Release} :
    (((mention? r).bind id).filter fun d => documented (some d)) = none ↔ ∀ text, ¬Tells mention? r text := by
  rw [Option.eq_none_iff_forall_ne_some]
  exact forall_congr' fun text => not_congr (tellsIff mention?)

theorem lentWords {m : Metadata} (undocumented : m.hasDoc = false) :
    Worded releases mention? m (lent releases mention?) := by
  cases found : lent releases mention? with
  | none =>
    rw [lent, List.findSome?_eq_none_iff] at found
    exact .untold undocumented fun r hr => (silentIff mention?).mp (found r (List.mem_reverse.mpr hr))
  | some text =>
    obtain ⟨newer, r, older, split, told, unheard⟩ := List.findSome?_eq_some_iff.mp found
    -- the newest release is looked at first, so those in front of the one found are newer
    have split := List.reverse_eq_iff.mp split
    rw [List.reverse_append, List.reverse_cons, List.append_assoc] at split
    exact .newest undocumented split ((tellsIff mention?).mp told) fun e he =>
      (silentIff mention?).mp (unheard e (List.mem_reverse.mp he))

theorem merged (m : Metadata) : m.Merged releases mention? (m.withHistory releases mention?) := by
  have unknown : (releases.find? fun r => (mention? r).isSome) = none ↔ ∀ r ∈ releases, mention? r = none := by
    simp only [List.find?_eq_none, Bool.not_eq_true, Option.isSome_eq_false_iff, Option.isNone_iff_eq_none]
  refine ⟨Option.isNone_iff_eq_none.trans unknown, ?_, ?_, rfl⟩
  · cases given : m.since with
    | some version =>
      have kept : (m.withHistory releases mention?).since = some version := by
        rw [withHistory]
        cases releases.find? fun r => (mention? r).isSome <;> simp [given]
      rw [kept]
      exact .own given
    | none =>
      rw [withHistory]
      cases first : releases.find? fun r => (mention? r).isSome with
      | none =>
        rw [given]
        exact .never given (unknown.mp first)
      | some r =>
        obtain ⟨known, before, after, split, missing⟩ := List.find?_eq_some_iff_append.mp first
        rw [given]
        exact .oldest given split (Option.isSome_iff_ne_none.mp known) fun older ho => by simpa using missing older ho
  · have words : (m.withHistory releases mention?).doc = if m.hasDoc then m.doc else lent releases mention? := rfl
    rw [words]
    split
    · rename_i documented
      exact .own documented
    · rename_i undocumented
      exact lentWords releases mention? (Bool.eq_false_iff.mpr undocumented)

theorem refined (m : Metadata) (r : Release) :
    (m.withHistory releases mention?).Refined (m.withHistory (releases ++ [r]) mention?) := by
  cases first : releases.find? fun r => (mention? r).isSome with
  | some oldest =>
    have still : (releases ++ [r]).find? (fun r => (mention? r).isSome) = some oldest := by
      rw [List.find?_append, first, Option.some_or]
    constructor <;> simp [withHistory, first, still]
  | none =>
    refine ⟨fun version dated => ?_, fun known => ?_⟩
    · have own : m.since = some version := by simpa [withHistory, first] using dated
      rw [withHistory]
      cases (releases ++ [r]).find? fun r => (mention? r).isSome <;> simp [own]
    · simp [withHistory, first] at known

end History
end Metadata

namespace Declaration

def mention (className : String) (m : Declaration) (r : Release) : Option (Option String) :=
  (r.member? className m.kind m.name).map ExportedMember.doc

structure Merged (releases : List Release) (className : String) (m m' : Declaration) : Prop where
  info : m.info.Merged releases (m.mention className) m'.info
  rest : m' = { m with info := m'.info }

end Declaration

namespace ClassRecord

def mention (c : ClassRecord) (r : Release) : Option (Option String) := (r.class? c.name).map ExportedClass.doc

structure Merged (releases : List Release) (c c' : ClassRecord) : Prop where
  info : c.info.Merged releases c.mention c'.info
  members : List.Forall₂ (Declaration.Merged releases c.name) c.members c'.members
  rest : c' = { c with info := c'.info, members := c'.members }

structure Refined (c c' : ClassRecord) : Prop where
  info : c.info.Refined c'.info
  members : List.Forall₂ (fun m m' : Declaration => m.info.Refined m'.info) c.members c'.members

theorem merged (releases : List Release) (c : ClassRecord) : c.Merged releases (c.withHistory releases) :=
  ⟨c.info.merged releases c.mention, relatedImage (fun m => ⟨m.info.merged releases (m.mention c.name), rfl⟩) c.members, rfl⟩

theorem refined (releases : List Release) (r : Release) (c : ClassRecord) :
    (c.withHistory releases).Refined (c.withHistory (releases ++ [r])) := by
  refine ⟨c.info.refined releases c.mention r, ?_⟩
  refine List.forall₂_map_left_iff.mpr (List.forall₂_map_right_iff.mpr (List.forall₂_same.mpr fun m _ => ?_))
  exact m.info.refined releases (m.mention c.name) r

theorem datedTwice (releases : List Release) (c : ClassRecord) : (c.dated releases).dated releases = c.dated releases := by
  have members : (c.members.map (·.dated releases c.name)).map (·.dated releases c.name) =
      c.members.map (·.dated releases c.name) := by
    rw [List.map_map]
    exact List.map_congr_left fun m _ => m.datedTwice releases c.name
  exact congrArg₂ (fun info members => { c with info, members }) (c.info.datedTwice releases _) members

end ClassRecord

namespace ClassGraph

/-- Taking releases in dates items by the oldest of them and words them by the newest, over nothing that they have. Doing it again
changes nothing, and with one more release no date goes away or changes, and nothing known gets new. -/
theorem historyMerged (g : ClassGraph) {releases : List Release} (given : releases ≠ []) :
    (g.classes.Related (ClassRecord.Merged releases) (g.withHistory releases).classes ∧
      (g.withHistory releases).stubs = g.stubs ∧ (g.withHistory releases).patterns = g.patterns) ∧
    (g.withHistory releases).withHistory releases = g.withHistory releases ∧
    ∀ r, (g.withHistory releases).classes.Related ClassRecord.Refined (g.withHistory (releases ++ [r])).classes := by
  have taken {releases : List Release} (given : releases ≠ []) :
      g.withHistory releases = g.mapClasses (ClassRecord.withHistory releases) := if_neg (by simpa using given)
  refine ⟨⟨?_, ?_, ?_⟩, ?_, fun r => ?_⟩
  · rw [taken given]
    exact OrderedMap.relatedImage (ClassRecord.merged releases) g.classes
  · rw [taken given]
    rfl
  · rw [taken given]
    rfl
  · rw [historyMap, historyMap]
    exact congrArg (fun classes => { g with classes }) (OrderedMap.mapTwice (ClassRecord.datedTwice releases) g.classes)
  · rw [taken given, taken (List.append_ne_nil_of_right_ne_nil releases (List.cons_ne_nil r []))]
    exact OrderedMap.relatedMap (OrderedMap.relatedSame.mpr rfl) fun c c' same => by
      rw [same]
      exact c.refined releases r

def barePanel : ClassRecord := { name := "Panel" }

/- The class is lost in the second release and comes back without words. -/
def panelReleases : List Release :=
  [.ofExport "1.0" ⟨[⟨"Panel", some "A panel.", []⟩]⟩, .ofExport "2.0" ⟨[]⟩, .ofExport "3.0" ⟨[⟨"Panel", some " ", []⟩]⟩]

theorem panelReturned : panelReleases ≠ [] ∧
    ∃ c, ((ofClasses [barePanel] []).withHistory panelReleases).get? "Panel" = some c ∧
      c.info.isNew = false ∧ c.info.since = some "1.0" := by
  have given : panelReleases ≠ [] := List.cons_ne_nil _ _
  obtain ⟨⟨merged, -⟩, -⟩ := historyMerged (ofClasses [barePanel] []) given
  refine ⟨given, ?_⟩
  rcases OrderedMap.relatedGet merged "Panel" with ⟨unknown, -⟩ | ⟨c, c', found, found', panel⟩
  · cases (show some barePanel = none from unknown)
  · cases (show some barePanel = some c from found)
    refine ⟨c', found', Bool.eq_false_iff.mpr fun isNew => ?_, ?_⟩
    · cases panel.info.isNew.mp isNew _ List.mem_cons_self
    · have dated := panel.info.since
      generalize c'.info.since = since at dated
      cases dated with
      | own given => cases given
      | never _ unknown => cases unknown _ List.mem_cons_self
      | @oldest before r after _ split _ unknown =>
        cases before with
        | nil => cases (List.cons.inj split).1; rfl
        | cons older before =>
          cases (List.cons.inj split).1
          cases unknown _ List.mem_cons_self

end ClassGraph
end ClassDocs
