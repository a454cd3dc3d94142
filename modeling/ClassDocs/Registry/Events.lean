import ClassDocs.Registry
import ClassDocs.Settings

/-! The event convention: names in lower case and an options parameter at the end. -/
namespace ClassDocs

def optionsParam : Param where
  name := "eOpts"
  typeName := some "Object"
  doc := some "The options object passed to \x7b@link Ext.util.Observable#addListener\x7d."

namespace Declaration

def isEvent (d : Declaration) : Bool := d.kind == .event && !d.ignored

def conventionalEvent (d : Declaration) : Declaration :=
  let params := d.info.params
  { d with
    name := Text.lower d.name
    info := { d.info with
      params := if params.any (·.name == optionsParam.name) then params else params ++ [optionsParam] } }

end Declaration

namespace ClassEntry

def withEventConvention (e : ClassEntry) : ClassEntry :=
  if e.record.ignored then e
  else { e with members := e.members.map fun m => if m.isEvent then m.conventionalEvent else m }

end ClassEntry

namespace Registry

def eventConventionApplies (mode : EventMode) (r : Registry) : Bool :=
  match mode with
  | .ext4 => true
  | .legacy => false
  | .auto => r.values.any fun e => e.record.info.classInfo.codeStyle == .extDefine

def withEventConvention (mode : EventMode) (r : Registry) : Registry :=
  if eventConventionApplies mode r then r.map ClassEntry.withEventConvention else r

end Registry
end ClassDocs
