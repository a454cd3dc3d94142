import ClassDocs.Settings.Environment
import ClassDocs.Settings.Json
import ClassDocs.FileTree

/-! Loading settings. Defaults lie below the settings file, and the environment above it. -/
namespace ClassDocs

namespace Json

mutual
/-- One layer over another: tables are joined key by key, everything else covers what is below. -/
def laidOver (below : Json) : Json → Json
  | .object fields =>
    match below with
    | .object under => .object (overFields under fields)
    | _ => .object fields
  | j => j

def overFields (under : List (String × Json)) : List (String × Json) → List (String × Json)
  | [] => under
  | (key, j) :: rest =>
    let merged := match under.find? (·.1 == key) with
      | some (_, old) => laidOver old j
      | none => j
    overFields (under.filter (·.1 != key) ++ [(key, merged)]) rest
end

end Json

namespace Settings

inductive Format where
  | toml
  | json
  deriving DecidableEq

/-- The ending of a file name behind its last point. A point in front is part of the name. -/
def extension? (path : String) : Option String := do
  let name ← (FileTree.steps path).getLast?
  if name == ".." then none
  else
    let backward := name.toList.reverse
    let ending := backward.takeWhile (· != '.')
    let stem := backward.drop (ending.length + 1)
    if stem.isEmpty then none else some (String.ofList ending.reverse)

def Format.ofPath? (path : String) : Option Format :=
  match extension? path with
  | some "toml" => some .toml
  | some "json" => some .json
  | _ => none

def Format.read? : Format → String → Option Json
  | .toml, text => Toml.read? text
  | .json, text =>
    match JsonText.read? JsonText.usualDepth text with
    | some (.object fields) => some (Json.object fields).asMaps
    | _ => none

/-- What goes wrong with a file or a variable is one problem. -/
def badConfiguration : SettingsError := .invalidValue "configuration" none

/-- The layer of a settings file. A file that is missing sets nothing. -/
def fileLayer (tree : FileTree) (format : Format) (path : String) : Except SettingsError Json :=
  match tree.bytes? path with
  | none => .ok (.object [])
  | some content =>
    match (String.fromUTF8? content).bind format.read? with
    | some j => .ok j
    | none => .error badConfiguration

def ofLayers (layers : List Json) : Except SettingsError Settings :=
  match ofJson? (layers.foldl Json.laidOver (toJson {})) with
  | some s => .ok s
  | none => .error badConfiguration

def load (tree : FileTree) (environment : List (String × String)) (path : Option String) :
    Except SettingsError Settings := do
  let file ← match path with
    | none => .ok []
    | some path =>
      match Format.ofPath? path with
      | none => .error (.unsupportedFormat path)
      | some format => do
        let layer ← fileLayer tree format path
        .ok [layer]
  ofLayers (file ++ [(Environment.layers environment).foldl Json.laidOver (.object [])])

def packageSection? (tree : FileTree) : Option Json := do
  let j ← JsonText.read? JsonText.usualDepth (← tree.text? "package.json")
  let found ← j.asMaps.get? "quire"
  if found == .null then none else some found

def discover? (tree : FileTree) : Option String :=
  (["quire.toml", "quire.json"].find? tree.exists?).or
    (if (packageSection? tree).isSome then some "package.json" else none)

/-- Loads settings from the file that is found. A package description is taken as it is, without
the environment. -/
def loadDiscovered (tree : FileTree) (environment : List (String × String)) : Except SettingsError Settings :=
  match discover? tree with
  | none => .error .notFound
  | some "package.json" => ofJson ((packageSection? tree).getD .null)
  | some path => load tree environment (some path)

end Settings
end ClassDocs
