import ClassDocs.NameSet
import ClassDocs.Text.Case
import ClassDocs.Text.Blank

/-! Settings of a run, and what can be wrong with them. -/
namespace ClassDocs

inductive EventMode where
  /-- Only when some class is declared by `Ext.define`. -/
  | auto
  | ext4
  | legacy
  deriving DecidableEq, Inhabited

structure ImportSpec where
  version : String
  path : String
  deriving DecidableEq, Inhabited

structure Settings where
  inputFiles : List String := []
  dropGlobalClass : Bool := false
  eventMode : EventMode := .auto
  /-- Classes documented elsewhere: names, and beginnings of names marked by a star. -/
  externalClasses : NameSet := .empty
  checkMixinCycles : Bool := true
  imports : List ImportSpec := []
  disabledWarnings : List String := []
  parallelJobs : Option Nat := none
  deriving Inhabited

inductive SettingsError where
  | notFound
  | unsupportedFormat (path : String)
  | invalidValue (field : String) (hint : Option String)
  | inputNotFound (path : String)
  | importNotFound (path : String)
  | validation (problem : String)
  | unreadable (path : String)
  deriving DecidableEq

def SettingsError.message : SettingsError → String
  | .notFound => "config not found"
  | .unsupportedFormat path => "unsupported configuration format: " ++ path
  | .invalidValue field hint =>
    "invalid config value for '" ++ field ++ "'" ++ (match hint with | some h => ": " ++ h | none => "")
  | .inputNotFound path => "input file not found: " ++ path
  | .importNotFound path => "import file not found: " ++ path
  | .validation problem => "validation failed: " ++ problem
  | .unreadable path => "I/O error: " ++ path

namespace EventMode

def all : List EventMode := [auto, ext4, legacy]

def name : EventMode → String
  | auto => "auto"
  | ext4 => "ext4"
  | legacy => "legacy"

/-- The mode of a name in any case; `ext3` is another name of the last one. -/
def parse (s : String) : Except SettingsError EventMode :=
  match Text.lowerAscii s with
  | "auto" => .ok auto
  | "ext4" => .ok ext4
  | "legacy" | "ext3" => .ok legacy
  | other =>
    .error (.invalidValue "event_compatibility"
      (some ("unknown mode '" ++ other ++ "', expected auto, ext4 or legacy")))

end EventMode

/-- Reads the form `version:path`, cut at the first colon. -/
def ImportSpec.parse (s : String) : Except SettingsError ImportSpec :=
  match Text.cut? (· == ':') s.toList with
  | some (version@(_ :: _), path@(_ :: _)) => .ok ⟨String.ofList version, String.ofList path⟩
  | _ => .error (.invalidValue "imports" (some ("expected 'version:path', got '" ++ s ++ "'")))

def patternStem? (pattern : String) : Option (List Char) :=
  match pattern.toList.reverse with
  | '*' :: stem => some stem.reverse
  | _ => none

def matchesExternal (pattern name : String) : Bool :=
  match patternStem? pattern with
  | some stem => stem.isPrefixOf name.toList
  | none => pattern == name

namespace Settings

/-- Problems that show without looking at files; the first one counts. -/
def check (s : Settings) : Except SettingsError Unit :=
  if s.parallelJobs = some 0 then .error (.validation "parallel_jobs must be at least 1")
  else
    match s.imports.find? fun spec => Text.isBlankText spec.version with
    | some spec => .error (.validation ("import '" ++ spec.path ++ "' has an empty version"))
    | none =>
      match s.externalClasses.names.find? fun name => Text.isBlankText name || name == "*" with
      | some name => .error (.validation ("invalid external class pattern '" ++ name ++ "'"))
      | none => .ok ()

def checkFiles (s : Settings) (fileExists : String → Bool) : Except SettingsError Unit := do
  s.check
  match s.inputFiles.find? (!fileExists ·) with
  | some path => .error (.inputNotFound path)
  | none =>
    match s.imports.find? fun spec => !fileExists spec.path with
    | some spec => .error (.importNotFound spec.path)
    | none => .ok ()

end Settings
end ClassDocs
