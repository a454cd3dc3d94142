import ClassDocs.Registry.Aggregation
import ClassDocs.Registry.Ignoring
import ClassDocs.Registry.Accessors
import ClassDocs.Registry.Events
import ClassDocs.Registry.Enums
import ClassDocs.Registry.Overrides
import ClassDocs.Graph.Cycles
import ClassDocs.Graph.Inheritance
import ClassDocs.Graph.History
import ClassDocs.Graph.Returns
import ClassDocs.Graph.Lint

/-! A whole run, from the declarations of all files to the class graph. -/
namespace ClassDocs

inductive Refinement where
  | ignoring
  | accessors
  | events
  | enums
  | overrides
  deriving DecidableEq

namespace Refinement

/-- The order in which the steps build on one another. -/
def all : List Refinement := [ignoring, accessors, events, enums, overrides]

def name : Refinement → String
  | ignoring => "ignore"
  | accessors => "accessors"
  | events => "ext4_events"
  | enums => "enum"
  | overrides => "override"

def apply (settings : Settings) (step : Refinement) (d : Draft) : Reported Draft :=
  match step with
  | ignoring => pure { d with registry := Registry.markIgnored d.registry }
  | accessors => pure { d with registry := Registry.withAccessors d.registry }
  | events => pure { d with registry := Registry.withEventConvention settings.eventMode d.registry }
  | enums => do
    let registry ← Registry.withEnums d.registry
    pure { d with registry }
  | overrides => d.foldOverrides

end Refinement

inductive GraphStep where
  | cycles
  | inheritance
  | history
  | returns
  | lint
  deriving DecidableEq

namespace GraphStep

def all : List GraphStep := [cycles, inheritance, history, returns, lint]

def name : GraphStep → String
  | cycles => "circular_deps"
  | inheritance => "inherit_doc"
  | history => "importer"
  | returns => "return_values"
  | lint => "lint"

def apply (settings : Settings) (releases : List Release) (step : GraphStep) (g : ClassGraph) :
    Reported (Except Failure ClassGraph) :=
  match step with
  | cycles => do
    let passed ← g.checkCycles settings.checkMixinCycles
    pure (passed.map fun _ => g)
  | inheritance => do
    let g ← g.inheritDocs
    pure (.ok g)
  | history => pure (.ok (g.withHistory releases))
  | returns => pure (.ok g.withReturns)
  | lint => ⟨.ok g, g.lint⟩

end GraphStep

/-- Applies the steps in turn; the first failure ends the run. -/
def ClassGraph.complete (settings : Settings) (releases : List Release) :
    List GraphStep → ClassGraph → Reported (Except Failure ClassGraph)
  | [], g => pure (.ok g)
  | step :: rest, g => do
    match ← step.apply settings releases g with
    | .ok g => complete settings releases rest g
    | .error failure => pure (.error failure)

def Draft.refine (settings : Settings) (steps : List Refinement) (d : Draft) : Reported Draft :=
  steps.foldlM (fun d step => step.apply settings d) d

def draft (settings : Settings) (files : List FileResult) : Reported Draft := do
  let registry ← aggregate files
  Draft.refine settings Refinement.all ⟨registry, settings.externalClasses⟩

def document (settings : Settings) (releases : List Release) (files : List FileResult) :
    Reported (Except Failure ClassGraph) := do
  let d ← draft settings files
  let g ← d.toGraph settings.dropGlobalClass
  g.complete settings releases GraphStep.all

def run (settings : Settings) (releases : List Release) (files : List FileResult) (sink : Sink) :
    Sink × Except Failure ClassGraph :=
  let result := document settings releases files
  (sink.reportAll result.findings, result.value)

end ClassDocs
