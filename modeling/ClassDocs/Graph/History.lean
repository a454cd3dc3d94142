import ClassDocs.Graph
import ClassDocs.Declaration.Json

/-! Earlier releases. The documentation of a release is kept as a list of its classes and members;
from such lists a later release learns since when an item exists and what was said about it. -/
namespace ClassDocs

structure ExportedMember where
  name : String
  kind : Kind
  doc : Option String := none
  deriving DecidableEq, Inhabited

structure ExportedClass where
  name : String
  doc : Option String := none
  members : List ExportedMember := []
  deriving DecidableEq, Inhabited

structure Export where
  classes : List ExportedClass := []
  deriving DecidableEq, Inhabited

namespace ExportedMember

def toJson (m : ExportedMember) : Json :=
  .object ([("name", .string m.name), ("tagname", .string m.kind.name)] ++
    Json.field? "doc" (m.doc.map .string))

def ofJson? (j : Json) : Option ExportedMember := do
  let g ← j.given? ["name", "tagname", "doc"]
  let name ← g.required "name" Json.string?
  let kind ← g.required "tagname" Kind.ofJson?
  let doc ← g.nullable "doc" Json.string?
  some ⟨name, kind, doc⟩

end ExportedMember

namespace ExportedClass

def toJson (c : ExportedClass) : Json :=
  .object ([("name", .string c.name)] ++ Json.field? "doc" (c.doc.map .string) ++
    [("members", .array (c.members.map ExportedMember.toJson))])

def ofJson? (j : Json) : Option ExportedClass := do
  let g ← j.given? ["name", "doc", "members"]
  let name ← g.required "name" Json.string?
  let doc ← g.nullable "doc" Json.string?
  let members ← g.withDefault "members" (Json.list? ExportedMember.ofJson?) []
  some ⟨name, doc, members⟩

end ExportedClass

namespace Export

def toJson (e : Export) : Json := .object [("classes", .array (e.classes.map ExportedClass.toJson))]

def ofJson? (j : Json) : Option Export := do
  let g ← j.given? ["classes"]
  let classes ← g.withDefault "classes" (Json.list? ExportedClass.ofJson?) []
  some ⟨classes⟩

end Export

def ClassGraph.export (g : ClassGraph) : Export where
  classes := g.records.map fun c =>
    ⟨c.name, c.info.doc, c.members.map fun m => ⟨m.name, m.kind, m.info.doc⟩⟩

structure Release where
  version : String
  classes : OrderedMap ExportedClass

namespace Release

/-- Of several classes with one name the last one counts. -/
def ofExport (version : String) (e : Export) : Release :=
  ⟨version, .ofList (e.classes.map fun c => (c.name, c))⟩

def class? (r : Release) (name : String) : Option ExportedClass := r.classes.get? name

def member? (r : Release) (className : String) (kind : Kind) (name : String) : Option ExportedMember :=
  (r.class? className).bind fun c => c.members.find? fun m => m.kind == kind && m.name == name

end Release

/-- Merges the history of an item. `mention?` tells whether a release has the item, and what it says
about it. The oldest release with the item dates it; the newest one with something to say lends
its words where there are none. -/
def Metadata.withHistory (m : Metadata) (releases : List Release)
    (mention? : Release → Option (Option String)) : Metadata :=
  let first := releases.find? fun r => (mention? r).isSome
  { m with
    since := match first with
      | some r => m.since.or (some r.version)
      | none => m.since
    isNew := first.isNone
    doc := if m.hasDoc then m.doc
      else releases.reverse.findSome? fun r => ((mention? r).bind id).filter fun d => documented (some d) }

namespace ClassRecord

def withHistory (releases : List Release) (c : ClassRecord) : ClassRecord :=
  { c with
    info := c.info.withHistory releases fun r => (r.class? c.name).map ExportedClass.doc
    members := c.members.map fun m =>
      { m with info := m.info.withHistory releases fun r =>
          (r.member? c.name m.kind m.name).map ExportedMember.doc } }

end ClassRecord

/-- Without earlier releases nothing is new. -/
def ClassGraph.withHistory (g : ClassGraph) (releases : List Release) : ClassGraph :=
  if releases.isEmpty then g else g.mapClasses (ClassRecord.withHistory releases)

end ClassDocs
