import ClassDocs.Graph.History
import ClassDocs.Proofs.Graph.Building
import ClassDocs.Proofs.Json.Fields
import ClassDocs.Proofs.Registry.Related

/-! A release that is exported and imported again. Nothing is lost on the way through structured data, and the classes and
members of the release are just the ones that a later graph gets dated by it. -/
namespace ClassDocs
open Json (Keeps fieldsOf givenBack)
open Json.Given

section Passed
variable {pass : Json → Json} (h : Keeps pass)
include h

theorem ExportedMember.readBack (m : ExportedMember) : ofJson? (pass m.toJson) = some m := by
  let slots : List (String × Option Json) :=
    [("name", some (.string m.name)), ("tagname", some (.string m.kind.name)), ("doc", m.doc.map .string)]
  have written : m.toJson = .object (fieldsOf slots) := by simp [toJson, slots, fieldsOf, Json.field?]
  obtain ⟨g, given, -, found⟩ := givenBack h ["name", "tagname", "doc"] (by decide) slots rfl
  simp only [slots, List.forall_mem_cons, Option.map_some] at found
  obtain ⟨nameAt, kindAt, docAt, -⟩ := found
  have kind : g.required "tagname" Kind.ofJson? = some m.kind :=
    requiredBack kindAt (by rw [h.string]; exact Kind.ofNameName m.kind)
  have doc := nullableBack docAt rfl fun s _ => Json.stringPassed h s
  rw [written, ofJson?, bindBack given, bindBack (stringBack h nameAt), bindBack kind, bindBack doc]

theorem ExportedClass.readBack (c : ExportedClass) : ofJson? (pass c.toJson) = some c := by
  let slots : List (String × Option Json) := [("name", some (.string c.name)), ("doc", c.doc.map .string),
    ("members", some (.array (c.members.map ExportedMember.toJson)))]
  have written : c.toJson = .object (fieldsOf slots) := by simp [toJson, slots, fieldsOf, Json.field?]
  obtain ⟨g, given, -, found⟩ := givenBack h ["name", "doc", "members"] (by decide) slots rfl
  simp only [slots, List.forall_mem_cons, Option.map_some] at found
  obtain ⟨nameAt, docAt, membersAt, -⟩ := found
  have doc := nullableBack docAt rfl fun s _ => Json.stringPassed h s
  have members : g.withDefault "members" (Json.list? ExportedMember.ofJson?) [] = some c.members :=
    defaultBack membersAt (Json.listPassed h fun m _ => m.readBack h)
  rw [written, ofJson?, bindBack given, bindBack (stringBack h nameAt), bindBack doc, bindBack members]

theorem Export.passedBack (e : Export) : ofJson? (pass e.toJson) = some e := by
  let slots : List (String × Option Json) := [("classes", some (.array (e.classes.map ExportedClass.toJson)))]
  have written : e.toJson = .object (fieldsOf slots) := rfl
  obtain ⟨g, given, -, found⟩ := givenBack h ["classes"] (by decide) slots rfl
  have classesAt := List.forall_mem_singleton.mp found
  have classes : g.withDefault "classes" (Json.list? ExportedClass.ofJson?) [] = some e.classes :=
    defaultBack classesAt (Json.listPassed h fun c _ => c.readBack h)
  rw [written, ofJson?, bindBack given, bindBack classes]

end Passed

theorem Export.readBack (e : Export) : ofJson? e.toJson = some e ∧ ofJson? e.toJson.asMaps = some e :=
  ⟨e.passedBack Json.keepsSame, e.passedBack Json.keepsMaps⟩

def ClassRecord.exported (c : ClassRecord) : ExportedClass :=
  ⟨c.name, c.info.doc, c.members.map fun m => ⟨m.name, m.kind, m.info.doc⟩⟩

section Known
variable {old : ClassGraph} (named : old.classes.All fun key c => c.name = key) (version : String)
include named

/- Names of classes tell them apart, so the release has each of them. -/
theorem classOfExport (name : String) :
    (Release.ofExport version old.export).class? name = (old.get? name).map ClassRecord.exported := by
  have pairs : old.export.classes.map (fun c => (c.name, c)) = old.classes.entries.map fun entry => (entry.1, entry.2.exported) := by
    simp only [ClassGraph.export, ClassGraph.records, OrderedMap.values, List.map_map]
    exact List.map_congr_left fun entry he => congrArg (·, entry.2.exported) (named _ _ (OrderedMap.getIffMem.mpr he))
  have distinct : ((old.export.classes.map fun c => (c.name, c)).map Prod.fst).Nodup := by
    rw [pairs, List.map_map]
    exact old.classes.distinct
  refine Option.ext fun c => ?_
  rw [Release.class?, Release.ofExport, OrderedMap.getIffMem, OrderedMap.entriesOfList distinct, pairs, Option.map_eq_some_iff]
  simp only [List.mem_map, Prod.mk.injEq, Prod.exists, ClassGraph.get?, OrderedMap.getIffMem]
  constructor
  · rintro ⟨key, o, ho, rfl, rfl⟩
    exact ⟨o, ho, rfl⟩
  · rintro ⟨o, ho, rfl⟩
    exact ⟨name, o, ho, rfl, rfl⟩

theorem knowsClass (name : String) : ((Release.ofExport version old.export).class? name).isSome = true ↔
    ∃ o, old.get? name = some o := by
  rw [classOfExport named, Option.isSome_map, Option.isSome_iff_exists]

theorem knowsMember (className : String) (kind : Kind) (name : String) :
    ((Release.ofExport version old.export).member? className kind name).isSome = true ↔
      ∃ o, old.get? className = some o ∧ ∃ m ∈ o.members, m.kind = kind ∧ m.name = name := by
  rw [Release.member?, classOfExport named]
  cases old.get? className with
  | none => simp
  | some o => simp [ClassRecord.exported]

end Known

/-- One release has been taken in, and the item is there or not. -/
structure Metadata.DatedBy (version : String) (there : Prop) (m m' : Metadata) : Prop where
  isNew : m'.isNew = false ↔ there
  since : there → m'.since = m.since.or (some version)
  undated : ¬there → m'.since = m.since
  doc : m.hasDoc = true → m'.doc = m.doc
  rest : { m' with isNew := m.isNew, since := m.since, doc := m.doc } = m

theorem Metadata.datedBy (m : Metadata) (r : Release) {mention? : Release → Option (Option String)} {there : Prop}
    (known : (mention? r).isSome = true ↔ there) : m.DatedBy r.version there (m.withHistory [r] mention?) := by
  have doc : m.hasDoc = true → (m.withHistory [r] mention?).doc = m.doc := fun documented => if_pos documented
  cases has : (mention? r).isSome with
  | true =>
    have first : [r].find? (fun r => (mention? r).isSome) = some r := List.find?_cons_of_pos has
    refine ⟨?_, fun _ => ?_, fun missing => absurd (known.mp has) missing, doc, rfl⟩
    · simp [withHistory, first, known.mp has]
    · simp [withHistory, first]
  | false =>
    have unknown : ¬there := fun yes => by simp [known.mpr yes] at has
    have first : [r].find? (fun r => (mention? r).isSome) = none := by simp [has]
    refine ⟨?_, fun yes => absurd yes unknown, fun _ => ?_, doc, rfl⟩
    · simp [withHistory, first, unknown]
    · simp [withHistory, first]

/-- A class with its members, after a release with the classes of `old` has been taken in. -/
structure ClassRecord.DatedBy (version : String) (old : ClassGraph) (c c' : ClassRecord) : Prop where
  info : c.info.DatedBy version (∃ o, old.get? c.name = some o) c'.info
  members : List.Forall₂ (fun m m' => m' = { m with info := m'.info } ∧ m.info.DatedBy version
    (∃ o, old.get? c.name = some o ∧ ∃ x ∈ o.members, x.kind = m.kind ∧ x.name = m.name) m'.info) c.members c'.members
  rest : c' = { c with info := c'.info, members := c'.members }

section Export
variable {old : ClassGraph} (named : old.classes.All fun key c => c.name = key)
include named

theorem memberDatedBy (version className : String) (m : Declaration) :
    m.info.DatedBy version (∃ o, old.get? className = some o ∧ ∃ x ∈ o.members, x.kind = m.kind ∧ x.name = m.name)
      (m.info.withHistory [.ofExport version old.export] fun r =>
        (r.member? className m.kind m.name).map ExportedMember.doc) := by
  refine m.info.datedBy (.ofExport version old.export) ?_
  rw [Option.isSome_map]
  exact knowsMember named version className m.kind m.name

theorem classDatedBy (version : String) (c : ClassRecord) :
    c.DatedBy version old (c.withHistory [.ofExport version old.export]) := by
  refine ⟨c.info.datedBy (.ofExport version old.export) ?_, ?_, rfl⟩
  · rw [Option.isSome_map]
    exact knowsClass named version c.name
  · exact relatedImage (fun m => ⟨rfl, memberDatedBy named version c.name m⟩) c.members

/-- A release comes back from its export just as it was exported. A later graph gets dated by it where it has the same
classes and members, everything else in it is new, and no documentation is replaced; in the release itself nothing is new. -/
theorem exportDates (new : ClassGraph) (version : String) :
    Export.ofJson? old.export.toJson = some old.export ∧ Export.ofJson? old.export.toJson.asMaps = some old.export ∧
    OrderedMap.Related (ClassRecord.DatedBy version old) new.classes (new.withHistory [.ofExport version old.export]).classes ∧
    ∀ c ∈ (old.withHistory [.ofExport version old.export]).records, c.info.isNew = false ∧ ∀ m ∈ c.members, m.info.isNew = false := by
  obtain ⟨read, readMaps⟩ := old.export.readBack
  refine ⟨read, readMaps, ?_, fun c hc => ?_⟩
  · exact List.forall₂_map_right_iff.mpr (List.forall₂_same.mpr fun entry _ => ⟨rfl, classDatedBy named version entry.2⟩)
  · change c ∈ (old.classes.map (ClassRecord.withHistory [.ofExport version old.export])).values at hc
    rw [OrderedMap.valuesMap] at hc
    obtain ⟨o, ho, rfl⟩ := List.mem_map.mp hc
    have known := ClassGraph.getRecord named ho
    refine ⟨(classDatedBy named version o).info.isNew.mpr ⟨o, known⟩, fun m hm => ?_⟩
    obtain ⟨x, hx, rfl⟩ := List.mem_map.mp hm
    exact (memberDatedBy named version o.name x).isNew.mpr ⟨o, known, x, hx, rfl, rfl⟩

end Export

def firstPanel : ClassRecord :=
  { name := "Panel", info := { doc := some " " }, members := [
    { kind := .cfg, name := "title", files := [⟨"panel.js", 3⟩], info := { doc := some "The title." } },
    { kind := .cfg, name := "title", files := [⟨"panel.js", 9⟩] }] }

def laterPanel : ClassRecord :=
  { name := "Panel", info := { doc := some "A panel." }, members := [
    { kind := .cfg, name := "title", files := [⟨"panel.js", 4⟩], info := { since := some "0.9" } },
    { kind := .method, name := "title", files := [⟨"panel.js", 12⟩] }] }

theorem panelsDated : ((ClassGraph.ofClasses [firstPanel] []).classes.All fun key c => c.name = key) ∧
    ∃ c, ((ClassGraph.ofClasses [laterPanel] []).withHistory
        [.ofExport "1.0" (ClassGraph.ofClasses [firstPanel] []).export]).get? "Panel" = some c ∧
      c.info.isNew = false ∧ c.info.since = some "1.0" ∧ c.info.doc = some "A panel." := by
  have named : (ClassGraph.ofClasses [firstPanel] []).classes.All fun key c => c.name = key :=
    fun key c found => ((ClassGraph.getOfClasses (by decide)).mp found).2
  obtain ⟨-, -, dated, -⟩ := exportDates named (ClassGraph.ofClasses [laterPanel] []) "1.0"
  refine ⟨named, ?_⟩
  rcases OrderedMap.relatedGet dated "Panel" with ⟨unknown, -⟩ | ⟨c, c', found, found', panel⟩
  · cases (show some laterPanel = none from unknown)
  · cases (show some laterPanel = some c from found)
    have there : ∃ o, (ClassGraph.ofClasses [firstPanel] []).get? "Panel" = some o := ⟨firstPanel, rfl⟩
    exact ⟨c', found', panel.info.isNew.mpr there, panel.info.since there, panel.info.doc (by decide)⟩

end ClassDocs
