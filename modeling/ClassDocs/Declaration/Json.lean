import ClassDocs.Declaration
import ClassDocs.Json.Decode

/-! Declarations and expressions as structured data. A field with nothing to say is left out when
it is written, except for flags; reading fills in what is missing. -/
namespace ClassDocs
open Json (field? listField)

def nameAmong {α : Type} (values : List α) (name : α → String) (j : Json) : Option α :=
  j.name?.bind fun s => values.find? (name · == s)

namespace Literal

def toJson : Literal → Json
  | .string s => tagged "string" (some (.string s))
  | .number x => tagged "number" (some (.ofFloat x))
  | .boolean b => tagged "boolean" (some (.bool b))
  | .null => tagged "null" none
  | .regex source => tagged "regex" (some (.string source))
where
  tagged (kind : String) (value : Option Json) : Json :=
    .object (("kind", .string kind) :: field? "value" value)

/-- The literal of a kind from its value, which only null does without. -/
def ofKind? (kind : String) (value : Option Json) : Option Literal :=
  match kind, value with
  | "string", some j => j.string?.map .string
  | "number", some j => j.float?.map .number
  | "boolean", some j => j.bool?.map .boolean
  | "regex", some j => j.string?.map .regex
  | "null", none => some .null
  | "null", some .null => some .null
  | _, _ => none

def ofJson? : Json → Option Literal
  | .array [kind, value] => kind.name?.bind fun k => ofKind? k (some value)
  | .array _ => none
  | j => do
    let g ← j.given? ["kind", "value"]
    let kind ← g.required "kind" Json.name?
    ofKind? kind (g.lookup "value")

end Literal

namespace Expression

mutual
def toJson : Expression → Json
  | .literal raw value =>
    .object [("type", .string "literal"), ("raw", .string raw), ("value", value.toJson)]
  | .array elements => .object [("type", .string "array"), ("elements", .array (toJsonAll elements))]
  | .object entries => .object [("type", .string "object"), ("entries", .array (toJsonEntries entries))]
  | .binary operator left right =>
    .object [("type", .string "binary"), ("operator", .string operator), ("left", toJson left),
      ("right", toJson right)]
  | .member owner property computed =>
    .object [("type", .string "member"), ("object", toJson owner), ("property", toJson property),
      ("computed", .bool computed)]
  | .identifier name => .object [("type", .string "identifier"), ("name", .string name)]
  | .this => .object [("type", .string "this")]
  | .unary operator argument =>
    .object [("type", .string "unary"), ("operator", .string operator), ("argument", toJson argument)]
  | .logical operator left right =>
    .object [("type", .string "logical"), ("operator", .string operator), ("left", toJson left),
      ("right", toJson right)]
  | .conditional test consequent alternate =>
    .object [("type", .string "conditional"), ("test", toJson test), ("consequent", toJson consequent),
      ("alternate", toJson alternate)]
  | .assignment operator target value =>
    .object [("type", .string "assignment"), ("operator", .string operator), ("target", toJson target),
      ("value", toJson value)]
  | .other name => .object [("type", .string "other"), ("node_type", .string name)]

def toJsonAll : List Expression → List Json
  | [] => []
  | e :: es => toJson e :: toJsonAll es

def toJsonEntries : List (Expression × Expression) → List Json
  | [] => []
  | (key, value) :: rest =>
    .object [("key", toJson key), ("value", toJson value)] :: toJsonEntries rest
end

def fieldNames : String → List String
  | "literal" => ["raw", "value"]
  | "array" => ["elements"]
  | "object" => ["entries"]
  | "binary" => ["operator", "left", "right"]
  | "member" => ["object", "property", "computed"]
  | "identifier" => ["name"]
  | "unary" => ["operator", "argument"]
  | "logical" => ["operator", "left", "right"]
  | "conditional" => ["test", "consequent", "alternate"]
  | "assignment" => ["operator", "target", "value"]
  | "other" => ["node_type"]
  | _ => []

/-- The form of a written expression and its fields: an object with a `type`, or an array that
begins with the type. -/
def form? : Json → Option (String × Json.Given)
  | .array (type :: items) => do
    let type ← type.string?
    if type = "this" then some (type, ⟨true, []⟩)
    else
      let g ← Json.given? (fieldNames type) (.array items)
      some (type, g)
  | .object fields => do
    let g ← Json.given? ["type"] (.object fields)
    let type ← g.required "type" Json.string?
    let g ← Json.given? (fieldNames type) (.object fields)
    some (type, g)
  | _ => none

def keyAndValue? (decode : Json → Option Expression) (j : Json) : Option (Expression × Expression) := do
  let g ← j.given? ["key", "value"]
  let key ← g.required "key" decode
  let value ← g.required "value" decode
  some (key, value)

def ofJsonWithin : Nat → Json → Option Expression
  | 0, _ => none
  | depth + 1, j => do
    let sub := ofJsonWithin depth
    let (type, g) ← form? j
    match type with
    | "literal" => do
      let raw ← g.required "raw" Json.string?
      let value ← g.required "value" Literal.ofJson?
      some (.literal raw value)
    | "array" => (g.required "elements" (Json.list? sub)).map .array
    | "object" => (g.required "entries" (Json.list? (keyAndValue? sub))).map .object
    | "binary" => do
      let operator ← g.required "operator" Json.string?
      let left ← g.required "left" sub
      let right ← g.required "right" sub
      some (.binary operator left right)
    | "member" => do
      let owner ← g.required "object" sub
      let property ← g.required "property" sub
      let computed ← g.required "computed" Json.bool?
      some (.member owner property computed)
    | "identifier" => (g.required "name" Json.string?).map .identifier
    | "this" => some .this
    | "unary" => do
      let operator ← g.required "operator" Json.string?
      let argument ← g.required "argument" sub
      some (.unary operator argument)
    | "logical" => do
      let operator ← g.required "operator" Json.string?
      let left ← g.required "left" sub
      let right ← g.required "right" sub
      some (.logical operator left right)
    | "conditional" => do
      let test ← g.required "test" sub
      let consequent ← g.required "consequent" sub
      let alternate ← g.required "alternate" sub
      some (.conditional test consequent alternate)
    | "assignment" => do
      let operator ← g.required "operator" Json.string?
      let target ← g.required "target" sub
      let value ← g.required "value" sub
      some (.assignment operator target value)
    | "other" => (g.required "node_type" Json.string?).map .other
    | _ => none

end Expression

namespace Json

mutual
/-- How deep arrays and objects nest in `j`, scalars counted as one. -/
def depth : Json → Nat
  | .array items => depthItems items + 1
  | .object fields => depthFields fields + 1
  | _ => 1

def depthItems : List Json → Nat
  | [] => 0
  | j :: rest => max (depth j) (depthItems rest)

def depthFields : List (String × Json) → Nat
  | [] => 0
  | (_, j) :: rest => max (depth j) (depthFields rest)
end

end Json

/-- Every step into an expression is a step into the data, so its depth bounds the reading. -/
def Expression.ofJson? (j : Json) : Option Expression := ofJsonWithin j.depth j

namespace Location

def toJson (l : Location) : Json :=
  .object [("file", .string l.file), ("line", .int l.line.toNat)]

def ofJson? (j : Json) : Option Location := do
  let g ← j.given? ["file", "line"]
  let file ← g.required "file" Json.string?
  let line ← g.required "line" (Json.natBelow? (Nat.pow 2 32))
  some ⟨file, UInt32.ofNat line⟩

end Location

namespace Visibility

def all : List Visibility := [publicAccess, protectedAccess, privateAccess]

def name : Visibility → String
  | publicAccess => "public"
  | protectedAccess => "protected"
  | privateAccess => "private"

end Visibility

namespace CodeStyle

def all : List CodeStyle := [plain, extDefine]

def name : CodeStyle → String
  | plain => "plain"
  | extDefine => "ext_define"

end CodeStyle

def Kind.ofJson? (j : Json) : Option Kind := nameAmong Kind.all Kind.name j

namespace Tag

def toJson (t : Tag) : Json :=
  .object ([("tag", .string t.name)] ++ field? "type_hint" (t.typeHint.map .string) ++
    (if t.body.isEmpty then [] else [("body", .string t.body)]))

def ofJson? (j : Json) : Option Tag := do
  let g ← j.given? ["tag", "type_hint", "body"]
  let name ← g.required "tag" Json.string?
  let typeHint ← g.optional "type_hint" Json.string?
  let body ← g.withDefault "body" Json.string? ""
  some ⟨name, typeHint, body⟩

end Tag

namespace Param

def toJson (p : Param) : Json :=
  .object ([("name", .string p.name)] ++ field? "type_name" (p.typeName.map .string) ++
    field? "doc" (p.doc.map .string) ++ [("optional", .bool p.optional)] ++
    field? "default" (p.defaultText.map .string))

def ofJson? (j : Json) : Option Param := do
  let g ← j.given? ["name", "type_name", "doc", "optional", "default"]
  let name ← g.required "name" Json.string?
  let typeName ← g.optional "type_name" Json.string?
  let doc ← g.optional "doc" Json.string?
  let optional ← g.flag "optional"
  let defaultText ← g.optional "default" Json.string?
  some ⟨name, typeName, doc, optional, defaultText⟩

end Param

namespace ReturnDoc

def toJson (r : ReturnDoc) : Json :=
  .object (field? "type_name" (r.typeName.map .string) ++ field? "doc" (r.doc.map .string))

def ofJson? (j : Json) : Option ReturnDoc := do
  let g ← j.given? ["type_name", "doc"]
  let typeName ← g.optional "type_name" Json.string?
  let doc ← g.optional "doc" Json.string?
  some ⟨typeName, doc⟩

end ReturnDoc

namespace InheritDoc

def toJson (i : InheritDoc) : Json := .object (field? "target" (i.target.map .string))

def ofJson? (j : Json) : Option InheritDoc := do
  let g ← j.given? ["target"]
  let target ← g.optional "target" Json.string?
  some ⟨target⟩

end InheritDoc

namespace EnumSpec

def toJson (e : EnumSpec) : Json :=
  .object (field? "type_name" (e.typeName.map .string) ++ field? "values" (e.values.map Expression.toJson))

def ofJson? (j : Json) : Option EnumSpec := do
  let g ← j.given? ["type_name", "values"]
  let typeName ← g.optional "type_name" Json.string?
  let values ← g.optional "values" Expression.ofJson?
  some ⟨typeName, values⟩

end EnumSpec

namespace ClassInfo

def toJson (c : ClassInfo) : Json :=
  .object (field? "extends" (c.parent.map .string) ++ listField "mixins" (c.mixins.map .string) ++
    listField "requires" (c.requires.map .string) ++
    field? "override_target" (c.overrideTarget.map .string) ++ [("singleton", .bool c.singleton)] ++
    field? "enum_spec" (c.enumSpec.map EnumSpec.toJson) ++ [("code_style", .string c.codeStyle.name)])

def ofJson? (j : Json) : Option ClassInfo := do
  let g ← j.given? ["extends", "mixins", "requires", "override_target", "singleton", "enum_spec", "code_style"]
  let parent ← g.optional "extends" Json.string?
  let mixins ← g.withDefault "mixins" (Json.list? Json.string?) []
  let requires ← g.withDefault "requires" (Json.list? Json.string?) []
  let overrideTarget ← g.optional "override_target" Json.string?
  let singleton ← g.flag "singleton"
  let enumSpec ← g.optional "enum_spec" EnumSpec.ofJson?
  let codeStyle ← g.withDefault "code_style" (nameAmong CodeStyle.all CodeStyle.name) .plain
  some ⟨parent, mixins, requires, overrideTarget, singleton, enumSpec, codeStyle⟩

end ClassInfo

namespace Metadata

def toJson (m : Metadata) : Json :=
  .object (field? "doc" (m.doc.map .string) ++ field? "type_name" (m.typeName.map .string) ++
    field? "default" (m.defaultText.map .string) ++ field? "value" (m.value.map Expression.toJson) ++
    [("visibility", .string m.visibility.name), ("is_static", .bool m.isStatic),
      ("accessor", .bool m.accessor), ("evented", .bool m.evented)] ++
    listField "params" (m.params.map Param.toJson) ++
    field? "returns" (m.returns.map ReturnDoc.toJson) ++
    listField "return_expressions" (m.returnExpressions.map Expression.toJson) ++
    [("chainable", .bool m.chainable), ("template", .bool m.template)] ++
    field? "inheritdoc" (m.inheritDoc.map InheritDoc.toJson) ++ [("ignore", .bool m.ignore)] ++
    field? "deprecated" (m.deprecated.map .string) ++ field? "since" (m.since.map .string) ++
    [("is_new", .bool m.isNew), ("autogenerated", .bool m.autogenerated)] ++
    field? "inherited_from" (m.inheritedFrom.map .string) ++
    listField "extra_tags" (m.extraTags.map Tag.toJson) ++ [("class", m.classInfo.toJson)])

def fieldNames : List String :=
  ["doc", "type_name", "default", "value", "visibility", "is_static", "accessor", "evented", "params",
    "returns", "return_expressions", "chainable", "template", "inheritdoc", "ignore", "deprecated",
    "since", "is_new", "autogenerated", "inherited_from", "extra_tags", "class"]

def ofJson? (j : Json) : Option Metadata := do
  let g ← j.given? fieldNames
  let doc ← g.optional "doc" Json.string?
  let typeName ← g.optional "type_name" Json.string?
  let defaultText ← g.optional "default" Json.string?
  let value ← g.optional "value" Expression.ofJson?
  let visibility ← g.withDefault "visibility" (nameAmong Visibility.all Visibility.name) .publicAccess
  let isStatic ← g.flag "is_static"
  let accessor ← g.flag "accessor"
  let evented ← g.flag "evented"
  let params ← g.withDefault "params" (Json.list? Param.ofJson?) []
  let returns ← g.optional "returns" ReturnDoc.ofJson?
  let returnExpressions ← g.withDefault "return_expressions" (Json.list? Expression.ofJson?) []
  let chainable ← g.flag "chainable"
  let template ← g.flag "template"
  let inheritDoc ← g.optional "inheritdoc" InheritDoc.ofJson?
  let ignore ← g.flag "ignore"
  let deprecated ← g.optional "deprecated" Json.string?
  let since ← g.optional "since" Json.string?
  let isNew ← g.flag "is_new"
  let autogenerated ← g.flag "autogenerated"
  let inheritedFrom ← g.optional "inherited_from" Json.string?
  let extraTags ← g.withDefault "extra_tags" (Json.list? Tag.ofJson?) []
  let classInfo ← g.withDefault "class" ClassInfo.ofJson? {}
  some { doc, typeName, defaultText, value, visibility, isStatic, accessor, evented, params, returns,
         returnExpressions, chainable, template, inheritDoc, ignore, deprecated, since, isNew,
         autogenerated, inheritedFrom, extraTags, classInfo }

end Metadata

namespace Declaration

def toJson (d : Declaration) : Json :=
  .object ([("tag", .string d.kind.name), ("name", .string d.name)] ++
    field? "owner" (d.owner.map .string) ++
    [("files", .array (d.files.map Location.toJson)), ("meta", d.info.toJson),
      ("ignored", .bool d.ignored)])

def ofJson? (j : Json) : Option Declaration := do
  let g ← j.given? ["tag", "name", "owner", "files", "meta", "ignored"]
  let kind ← g.required "tag" Kind.ofJson?
  let name ← g.required "name" Json.string?
  let owner ← g.optional "owner" Json.string?
  let files ← g.required "files" (Json.list? Location.ofJson?)
  let info ← g.withDefault "meta" Metadata.ofJson? {}
  let ignored ← g.flag "ignored"
  some { kind, name, owner, files, info, ignored }

end Declaration

namespace FileResult

def toJson (f : FileResult) : Json :=
  .object [("path", .string f.path), ("records", .array (f.records.map Declaration.toJson))]

def ofJson? (j : Json) : Option FileResult := do
  let g ← j.given? ["path", "records"]
  let path ← g.required "path" Json.string?
  let records ← g.required "records" (Json.list? Declaration.ofJson?)
  some ⟨path, records⟩

end FileResult
end ClassDocs
