import ClassDocs.Registry

/-! Ignored declarations. A class that is ignored takes its members with it. -/
namespace ClassDocs

namespace ClassEntry

def markIgnored (e : ClassEntry) : ClassEntry :=
  let ignored := e.record.ignored || e.record.info.ignore
  { record := { e.record with ignored }
    members := e.members.map fun m => { m with ignored := m.ignored || ignored || m.info.ignore } }

end ClassEntry

def Registry.markIgnored (r : Registry) : Registry := r.map ClassEntry.markIgnored

end ClassDocs
