import ClassDocs.Settings
import ClassDocs.Json.Decode

/-! Settings as structured data. Values are taken as they are: a word is no flag, and a number
with a fraction is no count. -/
namespace ClassDocs

namespace EventMode

def ofJson? (j : Json) : Option EventMode := j.name?.bind fun s => all.find? (name · == s)

end EventMode

namespace ImportSpec

def toJson (i : ImportSpec) : Json := .object [("version", .string i.version), ("path", .string i.path)]

def ofJson? (j : Json) : Option ImportSpec := do
  let g ← j.given? ["version", "path"]
  let version ← g.required "version" Json.string?
  let path ← g.required "path" Json.string?
  some ⟨version, path⟩

end ImportSpec

namespace Settings

def strings? : Json → Option (List String) := Json.list? Json.string?

def disabledOfJson? (j : Json) : Option (List String) := do
  let g ← j.given? ["disabled"]
  g.withDefault "disabled" strings? []

def strings (items : List String) : Json := .array (items.map .string)

def toJson (s : Settings) : Json :=
  .object [("input_files", strings s.inputFiles), ("drop_global_class", .bool s.dropGlobalClass),
    ("event_compatibility", .string s.eventMode.name), ("external_classes", strings s.externalClasses.names),
    ("check_mixin_cycles", .bool s.checkMixinCycles), ("imports", .array (s.imports.map ImportSpec.toJson)),
    ("warnings", .object [("disabled", strings s.disabledWarnings)]),
    ("parallel_jobs", .ofOption (s.parallelJobs.map fun n => .int n))]

def fieldNames : List String :=
  ["input_files", "drop_global_class", "event_compatibility", "external_classes", "check_mixin_cycles",
    "imports", "warnings", "parallel_jobs"]

def ofJson? (j : Json) : Option Settings := do
  let g ← j.given? fieldNames
  let inputFiles ← g.withDefault "input_files" strings? []
  let dropGlobalClass ← g.flag "drop_global_class"
  let eventMode ← g.withDefault "event_compatibility" EventMode.ofJson? .auto
  let externalClasses ← g.withDefault "external_classes" strings? []
  let checkMixinCycles ← g.withDefault "check_mixin_cycles" Json.bool? true
  let imports ← g.withDefault "imports" (Json.list? ImportSpec.ofJson?) []
  let disabledWarnings ← g.withDefault "warnings" disabledOfJson? []
  let parallelJobs ← g.nullable "parallel_jobs" (Json.natBelow? (Nat.pow 2 64))
  some { inputFiles, dropGlobalClass, eventMode, externalClasses := .ofList externalClasses, checkMixinCycles,
         imports, disabledWarnings, parallelJobs }

def ofJson (j : Json) : Except SettingsError Settings :=
  match ofJson? j with
  | some s => .ok s
  | none => .error (.invalidValue "config" none)

theorem ofEmptyArray : ofJson? (.array []) = some {} := rfl

end Settings
end ClassDocs
