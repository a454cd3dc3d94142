import ClassDocs.Registry
import ClassDocs.Diagnostic
import ClassDocs.Settings

/-! The class graph: documented classes, and names of classes documented elsewhere. Every parent
and mixin of a class is one or the other. -/
namespace ClassDocs

structure ClassRecord where
  name : String
  files : List Location := []
  info : Metadata := {}
  members : List Declaration := []
  deriving Inhabited

namespace ClassRecord

def parent? (c : ClassRecord) : Option String := c.info.classInfo.parent

def mixins (c : ClassRecord) : List String := c.info.classInfo.mixins

/-- The classes that a class inherits from, parent first. -/
def bases (c : ClassRecord) : List String := c.parent?.toList ++ c.mixins

def findMember? (c : ClassRecord) (kind : Kind) (name : String) : Option Declaration :=
  c.members.find? (·.isFor kind name)

def membersOf (c : ClassRecord) (kind : Kind) : List Declaration := c.members.filter (·.kind == kind)

def location? (c : ClassRecord) : Option Location := c.files.head?

end ClassRecord

structure ClassGraph where
  classes : OrderedMap ClassRecord
  /-- Names of classes documented elsewhere. -/
  stubs : NameSet
  /-- Beginnings of such names, each with a star at the end. -/
  patterns : List String

inductive ClassRef where
  | documented (c : ClassRecord)
  | external (name : String)

namespace ClassRef

def name : ClassRef → String
  | documented c => c.name
  | external name => name

def isDocumented : ClassRef → Bool
  | documented _ => true
  | external _ => false

end ClassRef

namespace ClassGraph

/-- Builds the graph. Of two classes with one name the later one counts; unknown bases become
stubs, and a class that is documented is no stub even if it is listed as external. -/
def ofClasses (classes : List ClassRecord) (externals : List String) : ClassGraph :=
  let classes := OrderedMap.ofList (classes.map fun c => (c.name, c))
  let isPattern (name : String) : Bool := (patternStem? name).isSome
  let dangling := (classes.values.flatMap ClassRecord.bases).filter (!classes.contains ·)
  { classes
    stubs := ((NameSet.ofList (externals.filter (!isPattern ·))).addAll dangling).filter (!classes.contains ·)
    patterns := externals.filter isPattern }

def get? (g : ClassGraph) (name : String) : Option ClassRecord := g.classes.get? name

def contains (g : ClassGraph) (name : String) : Bool := g.classes.contains name

def names (g : ClassGraph) : List String := g.classes.keys

def records (g : ClassGraph) : List ClassRecord := g.classes.values

def lookup? (g : ClassGraph) (name : String) : Option ClassRef :=
  match g.get? name with
  | some c => some (.documented c)
  | none =>
    if g.stubs.contains name || g.patterns.any (matchesExternal · name) then some (.external name) else none

def isExternal (g : ClassGraph) (name : String) : Bool := (g.lookup? name).any (!·.isDocumented)

def parentOf? (g : ClassGraph) (name : String) : Option ClassRef :=
  ((g.get? name).bind ClassRecord.parent?).bind g.lookup?

def mixinsOf (g : ClassGraph) (name : String) : List ClassRef :=
  match g.get? name with
  | some c => c.mixins.filterMap g.lookup?
  | none => []

/-- Documented ancestors above a class, nearest first, among the names still `unvisited`. -/
def ancestorsFrom (g : ClassGraph) (unvisited : List String) (c : ClassRecord) : List ClassRecord :=
  match c.parent? with
  | none => []
  | some parent =>
    if parent ∈ unvisited then
      match g.get? parent with
      | none => []
      | some p => p :: ancestorsFrom g (unvisited.erase parent) p
    else []
termination_by unvisited.length
decreasing_by exact Names.eraseShorter (by assumption)

/-- Ends at a class without a documented parent, or before a class would come again. -/
def ancestors (g : ClassGraph) (name : String) : List ClassRecord :=
  match g.get? name with
  | some c => g.ancestorsFrom (g.names.erase name) c
  | none => []

def subclasses (g : ClassGraph) (name : String) : List ClassRecord :=
  g.records.filter fun c => c.parent? == some name

def mixedInto (g : ClassGraph) (name : String) : List ClassRecord :=
  g.records.filter fun c => c.mixins.contains name

def mapClasses (g : ClassGraph) (f : ClassRecord → ClassRecord) : ClassGraph :=
  { g with classes := g.classes.map f }

@[simp] theorem namesMapClasses (g : ClassGraph) (f : ClassRecord → ClassRecord) :
    (g.mapClasses f).names = g.names :=
  OrderedMap.keysMap f g.classes

def setParent (g : ClassGraph) (name : String) (parent : Option String) : ClassGraph :=
  { g with classes := g.classes.modify name fun c =>
      { c with info := { c.info with classInfo := { c.info.classInfo with parent } } } }

end ClassGraph

namespace ClassEntry

def visible (e : ClassEntry) : ClassRecord where
  name := e.record.name
  files := e.record.files
  info := e.record.info
  members := e.members.filter (!·.ignored)

def isGlobal (e : ClassEntry) : Bool := e.record.name == globalName

/-- Every visible member of the global class is a finding. -/
def globalFindings (e : ClassEntry) : List Diagnostic :=
  e.visible.members.map fun m =>
    .warning .global ("Global " ++ m.kind.name ++ ": " ++ m.name) m.location?

end ClassEntry

/-- The graph of what is not ignored. The global class may be left out, but its members are
reported in either case. -/
def Draft.toGraph (d : Draft) (dropGlobal : Bool) : Reported ClassGraph :=
  let entries := d.registry.values.filter (!·.record.ignored)
  let kept := entries.filter fun e => !(e.isGlobal && dropGlobal)
  ⟨.ofClasses (kept.map ClassEntry.visible) d.externals.names,
    (entries.filter ClassEntry.isGlobal).flatMap ClassEntry.globalFindings⟩

end ClassDocs
