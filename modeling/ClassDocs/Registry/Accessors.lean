import ClassDocs.Registry
import ClassDocs.Text.Case

/-! Accessors. A cfg marked as one brings a getter and a setter, and an event when it is evented;
members that are already there stay as they are. -/
namespace ClassDocs
namespace Declaration

def derived (cfg : Declaration) (kind : Kind) (name doc : String) : Declaration where
  kind := kind
  name := name
  owner := cfg.owner
  files := cfg.files
  info := {
    doc := some doc
    visibility := cfg.info.visibility
    isStatic := cfg.info.isStatic
    deprecated := cfg.info.deprecated
    since := cfg.info.since
    autogenerated := true }

def cfgLink (name : String) : String := "\x7b@link #cfg-" ++ name ++ "\x7d"

def getter (cfg : Declaration) : Declaration :=
  let d := cfg.derived .method ("get" ++ Text.capitalized cfg.name)
    ("Returns the value of " ++ cfgLink cfg.name ++ ".")
  { d with info := { d.info with returns := some ⟨cfg.info.typeName, none⟩ } }

def setter (cfg : Declaration) : Declaration :=
  let d := cfg.derived .method ("set" ++ Text.capitalized cfg.name)
    ("Sets the value of " ++ cfgLink cfg.name ++ ".")
  { d with info := { d.info with params := [{ name := cfg.name, typeName := cfg.info.typeName }] } }

def changeEvent (cfg : Declaration) (className : String) : Declaration :=
  let d := cfg.derived .event (Text.lower cfg.name ++ "change")
    ("Fires when the " ++ cfgLink cfg.name ++ " configuration is changed by \x7b@link #method-set" ++
      Text.capitalized cfg.name ++ "\x7d.")
  { d with info := { d.info with params := [
      { name := "this", typeName := some className, doc := some ("The " ++ className ++ " instance.") },
      { name := "value", typeName := cfg.info.typeName, doc := some "The new value being set." },
      { name := "oldValue", typeName := cfg.info.typeName, doc := some "The existing value." }] } }

def isAccessor (d : Declaration) : Bool := d.kind == .cfg && !d.ignored && d.info.accessor

def accessors (cfg : Declaration) (className : String) : List Declaration :=
  [cfg.getter, cfg.setter] ++ if cfg.info.evented then [cfg.changeEvent className] else []

end Declaration

def addMissing (members : List Declaration) (d : Declaration) : List Declaration :=
  if members.any (·.isFor d.kind d.name) then members else members ++ [d]

namespace ClassEntry

def withAccessors (e : ClassEntry) : ClassEntry :=
  if e.record.ignored then e
  else
    let wanted := (e.members.filter (·.isAccessor)).flatMap (·.accessors e.name)
    { e with members := wanted.foldl addMissing e.members }

end ClassEntry

def Registry.withAccessors (r : Registry) : Registry := r.map ClassEntry.withAccessors

end ClassDocs
