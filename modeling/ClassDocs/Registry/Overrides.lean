import ClassDocs.Registry
import ClassDocs.Diagnostic

/-! Overrides. A class that overrides another is folded into it and becomes an external name.
Overrides of overrides go to the class at the end of the chain. -/
namespace ClassDocs
namespace Registry

def overrideTarget? (r : Registry) (name : String) : Option String :=
  (r.get? name).bind (·.record.info.classInfo.overrideTarget)

/-- The class at the end of the chain of overrides that begins at `current`; none when the chain
comes back to a class that is not in `unvisited` any more. -/
def chainEnd? (r : Registry) (unvisited : List String) (current : String) : Option String :=
  match r.overrideTarget? current with
  | none => some current
  | some next =>
    if current ∈ unvisited then chainEnd? r (unvisited.erase current) next else none
termination_by unvisited.length
decreasing_by exact Names.eraseShorter (by assumption)

def overrideEnd? (r : Registry) (name : String) : Option String :=
  (r.overrideTarget? name).bind fun _ => chainEnd? r r.keys name

def overrides (r : Registry) : List (String × Option String) :=
  (r.values.filter (·.record.info.classInfo.overrideTarget.isSome)).map fun e =>
    (e.name, r.overrideEnd? e.name)

end Registry

namespace Declaration

def fromOverride (source doc : String) : String := "**From override `" ++ source ++ "`:** " ++ doc

def mergeOverride (d : Declaration) (source : String) (member : Declaration) : Declaration :=
  let paragraph := match member.info.doc with
    | some doc => if Text.isBlankText doc then "**Overridden in `" ++ source ++ "`.**" else fromOverride source doc
    | none => "**Overridden in `" ++ source ++ "`.**"
  { d with info := d.info.appendDoc paragraph, files := d.files ++ member.files }

def definedInOverride (d : Declaration) (source : String) : Declaration :=
  { d with info := d.info.appendDoc ("**Defined in override `" ++ source ++ "`.**") }

end Declaration

namespace ClassEntry

/-- One member of the override `source`. Ignored members stay behind. -/
def foldMember (source : String) (e : ClassEntry) (member : Declaration) : ClassEntry :=
  if member.ignored then e
  else if e.hasMember member.kind member.name then
    { e with members :=
        Declaration.alterFirst (·.isFor member.kind member.name) (·.mergeOverride source member) e.members }
  else e.push (member.definedInOverride source)

def foldOverride (e source : ClassEntry) : ClassEntry :=
  let info := match source.record.info.doc with
    | some doc =>
      if Text.isBlankText doc then e.record.info
      else e.record.info.appendDoc (Declaration.fromOverride source.name doc)
    | none => e.record.info
  let record := { e.record with info, files := e.record.files ++ source.record.files }
  source.members.foldl (foldMember source.name) { e with record }

end ClassEntry

namespace Draft

/-- Folds one override, unless it is gone. A target that does not exist is made, but not for an
ignored override. -/
def foldOverride (d : Draft) (step : String × Option String) : Reported Draft := do
  let (name, target) := step
  match target, d.registry.get? name with
  | none, none => pure { d with externals := d.externals.add name }
  | none, some e =>
    Reported.warn .override ("Override " ++ name ++ " overrides itself") e.record.location?
    pure ⟨d.registry.erase name, d.externals.add name⟩
  | some _, none => pure d
  | some target, some e =>
    let registry := d.registry.erase name
    if !registry.contains target then
      Reported.warn .override
        ("Class " ++ target ++ " overridden by " ++ name ++ " not found, creating it") e.record.location?
    let registry :=
      if e.record.ignored then registry
      else (Registry.ensure registry target).modify target (·.foldOverride e)
    pure ⟨registry, d.externals.add name⟩

/-- Ends of chains are found before anything is folded, so that an override that is gone does not
cut the chain of another. -/
def foldOverrides (d : Draft) : Reported Draft := (Registry.overrides d.registry).foldlM foldOverride d

end Draft
end ClassDocs
