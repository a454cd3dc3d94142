import ClassDocs.Settings
import ClassDocs.Script.Token

/-! What stops a run. Expressions that cannot be evaluated never do. -/
namespace ClassDocs

inductive Problem where
  | broken (error : Script.SyntaxError)
  | unfit (text : String)
  deriving DecidableEq

def Problem.text : Problem → String
  | .broken error => error.message ++ " at offset " ++ toString error.offset
  | .unfit text => text

inductive Failure where
  | unreadable (path : String)
  | malformed (path : String) (problem : Problem)
  | circularDependency (className : String) (chain : List String)
  | badImport (path : String)
  | settings (error : SettingsError)
  deriving DecidableEq

namespace Failure

/-- Several problems of one source make one failure. -/
def ofProblems (path : String) (problems : List String) : Failure :=
  .malformed path (.unfit (Text.joined "; " problems))

def message : Failure → String
  | .unreadable path => "failed to read source '" ++ path ++ "'"
  | .malformed path problem => "failed to parse source '" ++ path ++ "': " ++ problem.text
  | .circularDependency className chain =>
    "class " ++ className ++ " has a circular dependency: " ++ Text.joined " -> " chain
  | .badImport path => "failed to import '" ++ path ++ "'"
  | .settings error => error.message

end Failure
end ClassDocs
