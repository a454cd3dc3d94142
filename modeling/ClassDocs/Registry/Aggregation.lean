import ClassDocs.Registry
import ClassDocs.Diagnostic

/-! Declarations find their classes. A class may be opened any number of times; a member whose
owner is not known yet waits, and what is left without an owner goes to the global class. -/
namespace ClassDocs

structure Aggregation where
  registry : Registry := .empty
  orphans : List Declaration := []
  /-- The class that members without an owner belong to. -/
  current : Option String := none
  deriving Inhabited

def globalClassDoc : String := "Global variables and functions."

def mergeNames (names more : List String) : List String :=
  more.foldl (fun done n => if n ∈ done then done else done ++ [n]) names

namespace ClassInfo

/-- What was given first stays; lists grow. -/
def merge (old new : ClassInfo) : ClassInfo where
  parent := old.parent.or new.parent
  mixins := mergeNames old.mixins new.mixins
  requires := mergeNames old.requires new.requires
  overrideTarget := old.overrideTarget.or new.overrideTarget
  singleton := old.singleton || new.singleton
  enumSpec := old.enumSpec.or new.enumSpec
  codeStyle := if new.codeStyle = .extDefine then .extDefine else old.codeStyle

end ClassInfo

namespace Declaration

def parentConflict (old new : Declaration) : List Diagnostic :=
  match old.info.classInfo.parent, new.info.classInfo.parent with
  | some here, some other =>
    if here = other then []
    else [.warning .conflictingParent
      ("Class " ++ old.name ++ " extends " ++ other ++ " here but " ++ here ++ " elsewhere") new.location?]
  | _, _ => []

def reopen (old new : Declaration) : Declaration :=
  { old with
    info := { old.info with
      classInfo := old.info.classInfo.merge new.info.classInfo
      doc := if !old.hasDoc && new.hasDoc then new.info.doc else old.info.doc
      ignore := old.info.ignore || new.info.ignore }
    files := old.files ++ new.files }

end Declaration

namespace Aggregation

def adopt (a : Aggregation) (className : String) : Aggregation :=
  let mine (d : Declaration) : Bool := d.owner == some className
  { a with
    registry := (a.orphans.filter mine).foldl (fun r d => Registry.pushMember r className d) a.registry
    orphans := a.orphans.filter (!mine ·) }

def addClass (a : Aggregation) (d : Declaration) : Reported Aggregation :=
  let (registry, findings) := match a.registry.get? d.name with
    | some e =>
      (a.registry.modify d.name fun e => { e with record := e.record.reopen d }, e.record.parentConflict d)
    | none => (Registry.insertEntry a.registry ⟨d, []⟩, [])
  ⟨{ adopt { a with registry } d.name with current := some d.name }, findings⟩

/-- A member goes to the class it names, if that one is known, or else to the current class. -/
def addMember (a : Aggregation) (d : Declaration) : Aggregation :=
  let target := match d.owner with
    | some owner => some owner
    | none => a.current
  match target with
  | some className =>
    if a.registry.contains className then { a with registry := Registry.pushMember a.registry className d }
    else { a with orphans := a.orphans ++ [d] }
  | none => { a with orphans := a.orphans ++ [d] }

def add (a : Aggregation) (d : Declaration) : Reported Aggregation :=
  if d.kind = .classKind then a.addClass d else ⟨a.addMember d, []⟩

/-- Takes in one file. A class that is open ends with its file. -/
def addFile (a : Aggregation) (f : FileResult) : Reported Aggregation :=
  f.records.foldlM add { a with current := none }

/-- Orphans that name an owner get their class, even if it was never declared. -/
def classifyOrphans (a : Aggregation) : Aggregation :=
  a.orphans.foldl
    (fun a d => match d.owner with
      | some owner => { a with registry := Registry.pushMember (Registry.ensure a.registry owner) owner d }
      | none => { a with orphans := a.orphans ++ [d] })
    { a with orphans := [] }

def describeGlobal (e : ClassEntry) : ClassEntry :=
  if e.record.hasDoc then e
  else { e with record := { e.record with info := { e.record.info with doc := some globalClassDoc } } }

/-- The rest of the orphans goes to the global class, which is made only when it is needed. -/
def createGlobalClass (a : Aggregation) : Aggregation :=
  if a.orphans.isEmpty then a
  else
    let registry := (Registry.ensure a.registry globalName).modify globalName describeGlobal
    { a with
      registry := a.orphans.foldl (fun r d => Registry.pushMember r globalName d) registry
      orphans := [] }

end Aggregation

def aggregate (files : List FileResult) : Reported Registry := do
  let a ← files.foldlM Aggregation.addFile {}
  pure a.classifyOrphans.createGlobalClass.registry

end ClassDocs
