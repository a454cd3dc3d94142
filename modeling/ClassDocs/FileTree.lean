import ClassDocs.Text.Blank

/-! Files in memory. Directories are there as far as files are in them. -/
namespace ClassDocs

structure FileTree where
  files : List (List String × ByteArray)

namespace FileTree

/-- The steps of a path. Empty steps and `.` lead nowhere. -/
def steps (path : String) : List String :=
  ((Text.pieces (· == '/') path.toList).map String.ofList).filter fun step => step != "" && step != "."

def ofList (files : List (String × ByteArray)) : FileTree :=
  ⟨files.map fun (path, content) => (steps path, content)⟩

def file? (t : FileTree) (place : List String) : Option ByteArray :=
  (t.files.find? (·.1 == place)).map Prod.snd

/-- The root is a directory, and every place with a file below it. -/
def isDirectory (t : FileTree) (place : List String) : Bool :=
  place.isEmpty || t.files.any fun (path, _) => place.isPrefixOf path && path != place

/-- Takes steps from a directory. Each step but the last leads to a directory; nothing above the
root is known. -/
def walk (t : FileTree) (place : List String) : List String → Option (List String)
  | [] => some place
  | step :: rest =>
    if !t.isDirectory place then none
    else if step == ".." then if place.isEmpty then none else t.walk place.dropLast rest
    else t.walk (place ++ [step]) rest

def endsInDirectory (path : String) : Bool :=
  (Text.dropEnding? "/" path).isSome || (Text.dropEnding? "/." path).isSome

def resolve? (t : FileTree) (path : String) : Option (List String) :=
  if path == "" || path.toList.head? == some '/' then none
  else do
    let place ← t.walk [] (steps path)
    if endsInDirectory path && !t.isDirectory place then none else some place

def exists? (t : FileTree) (path : String) : Bool :=
  (t.resolve? path).any fun place => t.isDirectory place || (t.file? place).isSome

def bytes? (t : FileTree) (path : String) : Option ByteArray := (t.resolve? path).bind t.file?

def text? (t : FileTree) (path : String) : Option String := (t.bytes? path).bind String.fromUTF8?

theorem noEmptyPath (t : FileTree) : t.exists? "" = false := by simp [exists?, resolve?]

end FileTree
end ClassDocs
