import ClassDocs.Text.Case

/-! How much of a run is told. -/
namespace ClassDocs

inductive LogLevel where
  | silent
  | error
  | warn
  | info
  | debug
  | trace
  deriving DecidableEq, Inhabited

structure UnknownLogLevel where
  name : String
  deriving DecidableEq

def UnknownLogLevel.message (e : UnknownLogLevel) : String := "invalid log level: " ++ e.name

namespace LogLevel

def name : LogLevel → String
  | silent => "off"
  | error => "error"
  | warn => "warn"
  | info => "info"
  | debug => "debug"
  | trace => "trace"

/-- Warnings are told unless asked otherwise; each step goes one level up, and quiet wins. -/
def ofVerbosity (verbose : UInt8) (quiet : Bool) : LogLevel :=
  if quiet then silent
  else if verbose = 0 then warn
  else if verbose = 1 then info
  else if verbose = 2 then debug
  else trace

def parse (s : String) : Except UnknownLogLevel LogLevel :=
  match Text.lower s with
  | "silent" | "off" => .ok silent
  | "error" => .ok error
  | "warn" | "warning" => .ok warn
  | "info" => .ok info
  | "debug" => .ok debug
  | "trace" => .ok trace
  | other => .error ⟨other⟩

end LogLevel
end ClassDocs
