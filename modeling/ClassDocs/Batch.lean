import ClassDocs.Run
import ClassDocs.SourceFile
import ClassDocs.FileTree
import ClassDocs.Json.Reader

/-! Runs over the files that the settings name. -/
namespace ClassDocs

namespace SourceFile

def load (tree : FileTree) (path : String) : Except Failure FileResult :=
  match tree.text? path with
  | some source => parse path source
  | none => .error (.unreadable path)

end SourceFile

namespace Release

def load (tree : FileTree) (spec : ImportSpec) : Except Failure Release :=
  match tree.text? spec.path with
  | none => .error (.unreadable spec.path)
  | some text =>
    match (JsonText.read? JsonText.usualDepth text).bind Export.ofJson? with
    | some e => .ok (ofExport spec.version e)
    | none => .error (.badImport spec.path)

end Release

structure Batch where
  graph : ClassGraph
  files : List FileResult
  findings : Sink

namespace Batch

/-- Checks the settings, reads all sources, then all earlier releases, and documents them. The first
failure ends the batch. -/
def run (tree : FileTree) (settings : Settings) : Except Failure Batch := do
  (settings.checkFiles tree.exists?).mapError .settings
  let files ← settings.inputFiles.mapM (SourceFile.load tree)
  let releases ← settings.imports.mapM (Release.load tree)
  let (findings, result) := ClassDocs.run settings releases files { muted := settings.disabledWarnings }
  let graph ← result
  .ok ⟨graph, files, findings⟩

end Batch
end ClassDocs
