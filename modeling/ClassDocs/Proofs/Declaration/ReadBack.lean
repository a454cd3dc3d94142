import ClassDocs.Proofs.Expression.ReadBack

/-! Files with their declarations, written and read again. What is left out because it says nothing is filled in as nothing:
no text, no items, a flag that is off. -/
namespace ClassDocs
open Json (Keeps fieldsOf listSlot givenBack)
open Json.Given

/-- The expressions of the default value, of what is returned and of the values of an enumeration. -/
def Metadata.expressions (m : Metadata) : List Expression :=
  m.value.toList ++ m.returnExpressions ++ (m.classInfo.enumSpec.bind EnumSpec.values).toList

/-- The numbers in all the expressions of a file. -/
def FileResult.numbers (f : FileResult) : List Float :=
  f.records.flatMap fun d => d.info.expressions.flatMap Expression.numbers

section Passed
variable {pass : Json → Json} (h : Keeps pass)
include h

theorem nameBack {α : Type} {g : Json.Given} {field : String} {values : List α} {name : α → String} {a missing : α}
    (found : g.lookup field = some (pass (.string (name a)))) (known : values.find? (name · == name a) = some a) :
    g.withDefault field (nameAmong values name) missing = some a :=
  defaultBack found (by rw [h.string]; exact known)

theorem Location.readBack (l : Location) : ofJson? (pass l.toJson) = some l := by
  let slots : List (String × Option Json) := [("file", some (.string l.file)), ("line", some (.int l.line.toNat))]
  have written : l.toJson = .object (fieldsOf slots) := rfl
  obtain ⟨g, given, -, found⟩ := givenBack h ["file", "line"] (by decide) slots rfl
  simp only [slots, List.forall_mem_cons, Option.map_some] at found
  obtain ⟨fileAt, lineAt, -⟩ := found
  have line : g.required "line" (Json.natBelow? (Nat.pow 2 32)) = some l.line.toNat :=
    requiredBack lineAt (by rw [h.int]; exact Json.natBack l.line.toNat_lt)
  rw [written, ofJson?, bindBack given, bindBack (stringBack h fileAt), bindBack line, UInt32.ofNat_toNat]

theorem Tag.readBack (t : Tag) : ofJson? (pass t.toJson) = some t := by
  let slots : List (String × Option Json) := [("tag", some (.string t.name)), ("type_hint", t.typeHint.map .string),
    ("body", if t.body.isEmpty then none else some (.string t.body))]
  have written : t.toJson = .object (fieldsOf slots) := by
    cases empty : t.body.isEmpty <;> simp [toJson, slots, fieldsOf, Json.field?, empty]
  obtain ⟨g, given, byName, found⟩ := givenBack h ["tag", "type_hint", "body"] (by decide) slots rfl
  simp only [slots, List.forall_mem_cons, Option.map_some] at found
  obtain ⟨nameAt, typeHintAt, bodyAt, -⟩ := found
  have body : g.withDefault "body" Json.string? "" = some t.body := by
    split at bodyAt
    · rename_i empty
      rw [withDefault, bodyAt, String.isEmpty_iff.mp empty]
      rfl
    · exact defaultBack bodyAt (Json.stringPassed h t.body)
  rw [written, ofJson?, bindBack given, bindBack (stringBack h nameAt), bindBack (textBack h byName typeHintAt),
    bindBack body]

theorem Param.readBack (p : Param) : ofJson? (pass p.toJson) = some p := by
  let slots : List (String × Option Json) := [("name", some (.string p.name)), ("type_name", p.typeName.map .string),
    ("doc", p.doc.map .string), ("optional", some (.bool p.optional)), ("default", p.defaultText.map .string)]
  have written : p.toJson = .object (fieldsOf slots) := by simp [toJson, slots, fieldsOf, Json.field?]
  obtain ⟨g, given, byName, found⟩ := givenBack h ["name", "type_name", "doc", "optional", "default"] (by decide) slots rfl
  simp only [slots, List.forall_mem_cons, Option.map_some] at found
  obtain ⟨nameAt, typeNameAt, docAt, optionalAt, defaultAt, -⟩ := found
  rw [written, ofJson?, bindBack given, bindBack (stringBack h nameAt), bindBack (textBack h byName typeNameAt),
    bindBack (textBack h byName docAt), bindBack (flagBack h optionalAt), bindBack (textBack h byName defaultAt)]

theorem ReturnDoc.readBack (r : ReturnDoc) : ofJson? (pass r.toJson) = some r := by
  let slots : List (String × Option Json) := [("type_name", r.typeName.map .string), ("doc", r.doc.map .string)]
  have written : r.toJson = .object (fieldsOf slots) := by simp [toJson, slots, fieldsOf]
  obtain ⟨g, given, byName, found⟩ := givenBack h ["type_name", "doc"] (by decide) slots rfl
  simp only [slots, List.forall_mem_cons] at found
  obtain ⟨typeNameAt, docAt, -⟩ := found
  rw [written, ofJson?, bindBack given, bindBack (textBack h byName typeNameAt), bindBack (textBack h byName docAt)]

theorem InheritDoc.readBack (i : InheritDoc) : ofJson? (pass i.toJson) = some i := by
  let slots : List (String × Option Json) := [("target", i.target.map .string)]
  have written : i.toJson = .object (fieldsOf slots) := by simp [toJson, slots, fieldsOf]
  obtain ⟨g, given, byName, found⟩ := givenBack h ["target"] (by decide) slots rfl
  have targetAt := List.forall_mem_singleton.mp found
  rw [written, ofJson?, bindBack given, bindBack (textBack h byName targetAt)]

theorem EnumSpec.readBack {e : EnumSpec} (finite : ∀ v ∈ e.values, ∀ x ∈ v.numbers, x.isFinite = true) :
    ofJson? (pass e.toJson) = some e := by
  let slots : List (String × Option Json) := [("type_name", e.typeName.map .string), ("values", e.values.map Expression.toJson)]
  have written : e.toJson = .object (fieldsOf slots) := by simp [toJson, slots, fieldsOf]
  obtain ⟨g, given, byName, found⟩ := givenBack h ["type_name", "values"] (by decide) slots rfl
  simp only [slots, List.forall_mem_cons] at found
  obtain ⟨typeNameAt, valuesAt, -⟩ := found
  have values := optionalBack byName valuesAt rfl fun v hv => Expression.readBack h (finite v hv)
  rw [written, ofJson?, bindBack given, bindBack (textBack h byName typeNameAt), bindBack values]

theorem ClassInfo.readBack {c : ClassInfo} (finite : ∀ v ∈ c.enumSpec.bind EnumSpec.values, ∀ x ∈ v.numbers, x.isFinite = true) :
    ofJson? (pass c.toJson) = some c := by
  let slots : List (String × Option Json) := [("extends", c.parent.map .string), ("mixins", listSlot (c.mixins.map .string)),
    ("requires", listSlot (c.requires.map .string)), ("override_target", c.overrideTarget.map .string),
    ("singleton", some (.bool c.singleton)), ("enum_spec", c.enumSpec.map EnumSpec.toJson),
    ("code_style", some (.string c.codeStyle.name))]
  have written : c.toJson = .object (fieldsOf slots) := by
    simp [toJson, slots, fieldsOf, Json.field?, Json.listFieldSlot]
  obtain ⟨g, given, byName, found⟩ := givenBack h
    ["extends", "mixins", "requires", "override_target", "singleton", "enum_spec", "code_style"] (by decide) slots rfl
  simp only [slots, List.forall_mem_cons, Option.map_some] at found
  obtain ⟨parentAt, mixinsAt, requiresAt, overrideTargetAt, singletonAt, enumSpecAt, codeStyleAt, -⟩ := found
  have enumSpec := optionalBack byName enumSpecAt rfl fun s hs =>
    EnumSpec.readBack h fun v hv => finite v (Option.mem_bind_iff.mpr ⟨s, hs, hv⟩)
  have codeStyle : g.withDefault "code_style" (nameAmong CodeStyle.all CodeStyle.name) .plain = some c.codeStyle :=
    nameBack h codeStyleAt (by cases c.codeStyle <;> rfl)
  rw [written, ofJson?, bindBack given, bindBack (textBack h byName parentAt),
    bindBack (listSlotBack h mixinsAt fun s _ => Json.stringPassed h s),
    bindBack (listSlotBack h requiresAt fun s _ => Json.stringPassed h s), bindBack (textBack h byName overrideTargetAt),
    bindBack (flagBack h singletonAt), bindBack enumSpec, bindBack codeStyle]

def Metadata.slots (m : Metadata) : List (String × Option Json) :=
  [("doc", m.doc.map .string), ("type_name", m.typeName.map .string), ("default", m.defaultText.map .string),
    ("value", m.value.map Expression.toJson), ("visibility", some (.string m.visibility.name)),
    ("is_static", some (.bool m.isStatic)), ("accessor", some (.bool m.accessor)), ("evented", some (.bool m.evented)),
    ("params", listSlot (m.params.map Param.toJson)), ("returns", m.returns.map ReturnDoc.toJson),
    ("return_expressions", listSlot (m.returnExpressions.map Expression.toJson)), ("chainable", some (.bool m.chainable)),
    ("template", some (.bool m.template)), ("inheritdoc", m.inheritDoc.map InheritDoc.toJson),
    ("ignore", some (.bool m.ignore)), ("deprecated", m.deprecated.map .string), ("since", m.since.map .string),
    ("is_new", some (.bool m.isNew)), ("autogenerated", some (.bool m.autogenerated)),
    ("inherited_from", m.inheritedFrom.map .string), ("extra_tags", listSlot (m.extraTags.map Tag.toJson)),
    ("class", some m.classInfo.toJson)]

theorem Metadata.readBack {m : Metadata} (finite : ∀ e ∈ m.expressions, ∀ x ∈ e.numbers, x.isFinite = true) :
    ofJson? (pass m.toJson) = some m := by
  have written : m.toJson = .object (fieldsOf m.slots) := by
    simp [toJson, slots, fieldsOf, Json.field?, Json.listFieldSlot]
  obtain ⟨g, given, byName, found⟩ := givenBack h fieldNames (by decide) m.slots rfl
  simp only [slots, List.forall_mem_cons, Option.map_some] at found
  obtain ⟨docAt, typeNameAt, defaultAt, valueAt, visibilityAt, isStaticAt, accessorAt, eventedAt, paramsAt, returnsAt,
    returnExpressionsAt, chainableAt, templateAt, inheritDocAt, ignoreAt, deprecatedAt, sinceAt, isNewAt, autogeneratedAt,
    inheritedFromAt, extraTagsAt, classInfoAt, -⟩ := found
  simp only [expressions, List.forall_mem_append, Option.mem_toList] at finite
  obtain ⟨⟨valueFinite, returnsFinite⟩, enumFinite⟩ := finite
  have value := optionalBack byName valueAt rfl fun e he => Expression.readBack h (valueFinite e he)
  have visibility : g.withDefault "visibility" (nameAmong Visibility.all Visibility.name) .publicAccess = some m.visibility :=
    nameBack h visibilityAt (by cases m.visibility <;> rfl)
  have params := listSlotBack h paramsAt fun p _ => p.readBack h
  have returns := optionalBack byName returnsAt rfl fun r _ => r.readBack h
  have returnExpressions := listSlotBack h returnExpressionsAt fun e he => Expression.readBack h (returnsFinite e he)
  have inheritDoc := optionalBack byName inheritDocAt rfl fun i _ => i.readBack h
  have extraTags := listSlotBack h extraTagsAt fun t _ => t.readBack h
  have classInfo : g.withDefault "class" ClassInfo.ofJson? {} = some m.classInfo :=
    defaultBack classInfoAt (ClassInfo.readBack h enumFinite)
  rw [written, ofJson?, bindBack given, bindBack (textBack h byName docAt), bindBack (textBack h byName typeNameAt),
    bindBack (textBack h byName defaultAt), bindBack value, bindBack visibility, bindBack (flagBack h isStaticAt),
    bindBack (flagBack h accessorAt), bindBack (flagBack h eventedAt), bindBack params, bindBack returns,
    bindBack returnExpressions, bindBack (flagBack h chainableAt), bindBack (flagBack h templateAt), bindBack inheritDoc,
    bindBack (flagBack h ignoreAt), bindBack (textBack h byName deprecatedAt), bindBack (textBack h byName sinceAt),
    bindBack (flagBack h isNewAt), bindBack (flagBack h autogeneratedAt), bindBack (textBack h byName inheritedFromAt),
    bindBack extraTags, bindBack classInfo]

theorem Declaration.readBack {d : Declaration} (finite : ∀ e ∈ d.info.expressions, ∀ x ∈ e.numbers, x.isFinite = true) :
    ofJson? (pass d.toJson) = some d := by
  let slots : List (String × Option Json) := [("tag", some (.string d.kind.name)), ("name", some (.string d.name)),
    ("owner", d.owner.map .string), ("files", some (.array (d.files.map Location.toJson))), ("meta", some d.info.toJson),
    ("ignored", some (.bool d.ignored))]
  have written : d.toJson = .object (fieldsOf slots) := by simp [toJson, slots, fieldsOf, Json.field?]
  obtain ⟨g, given, byName, found⟩ := givenBack h ["tag", "name", "owner", "files", "meta", "ignored"] (by decide) slots rfl
  simp only [slots, List.forall_mem_cons, Option.map_some] at found
  obtain ⟨kindAt, nameAt, ownerAt, filesAt, infoAt, ignoredAt, -⟩ := found
  have kind : g.required "tag" Kind.ofJson? = some d.kind :=
    requiredBack kindAt (by rw [h.string]; exact Kind.ofNameName d.kind)
  have files := itemsBack h filesAt fun l _ => l.readBack h
  have info : g.withDefault "meta" Metadata.ofJson? {} = some d.info := defaultBack infoAt (Metadata.readBack h finite)
  rw [written, ofJson?, bindBack given, bindBack kind, bindBack (stringBack h nameAt), bindBack (textBack h byName ownerAt),
    bindBack files, bindBack info, bindBack (flagBack h ignoredAt)]

theorem FileResult.readBack {f : FileResult} (finite : ∀ x ∈ f.numbers, x.isFinite = true) :
    ofJson? (pass f.toJson) = some f := by
  let slots : List (String × Option Json) :=
    [("path", some (.string f.path)), ("records", some (.array (f.records.map Declaration.toJson)))]
  have written : f.toJson = .object (fieldsOf slots) := rfl
  obtain ⟨g, given, -, found⟩ := givenBack h ["path", "records"] (by decide) slots rfl
  simp only [slots, List.forall_mem_cons, Option.map_some] at found
  obtain ⟨pathAt, recordsAt, -⟩ := found
  simp only [numbers, List.mem_flatMap, forall_exists_index, and_imp] at finite
  have records := itemsBack h recordsAt fun d hd => Declaration.readBack h fun e he x hx => finite x d hd e he hx
  rw [written, ofJson?, bindBack given, bindBack (stringBack h pathAt), bindBack records]

end Passed

/-- A file comes back from its data as it was, and from the same data with every object read as a map. -/
theorem FileResult.nothingLost (f : FileResult) (finite : ∀ x ∈ f.numbers, x.isFinite = true) :
    ofJson? f.toJson = some f ∧ ofJson? f.toJson.asMaps = some f :=
  ⟨readBack Json.keepsSame finite, readBack Json.keepsMaps finite⟩

/- An enumeration with numbers deep in its values, and a member with little to say. -/
def sidesFile : FileResult :=
  { path := "sides.js", records := [
    { kind := .classKind, name := "Sides", files := [⟨"sides.js", 1⟩], info := { classInfo := { enumSpec := some {
        values := some (.object [(.identifier "LEFT", .literal "0.5" (.number 0.5)), (.literal "'all'" (.string "all"),
          .array [.unary "-" (.literal "2" (.number 2)), .dot .this "all", .ofNull])]) } } } },
    { kind := .cfg, name := "side", owner := some "Sides", files := [], info := {
        value := some (.conditional (.identifier "wide") (.literal "1e3" (.number 1e3)) (.ofString "")),
        extraTags := [{ name := "author" }] }, ignored := true }] }

theorem sidesKept : (∀ x ∈ sidesFile.numbers, x.isFinite = true) ∧
    FileResult.ofJson? sidesFile.toJson = some sidesFile ∧ FileResult.ofJson? sidesFile.toJson.asMaps = some sidesFile := by
  have finite : ∀ x ∈ sidesFile.numbers, x.isFinite = true := by decide
  exact ⟨finite, sidesFile.nothingLost finite⟩

end ClassDocs
