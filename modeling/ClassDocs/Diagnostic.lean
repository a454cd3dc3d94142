import ClassDocs.Declaration

/-! Findings of a run, and the sink that keeps those that are not muted. -/
namespace ClassDocs

inductive Level where
  | info
  | warning
  | fatal
  deriving DecidableEq, Inhabited

namespace Level

def all : List Level := [info, warning, fatal]

def name : Level → String
  | info => "info"
  | warning => "warning"
  | fatal => "fatal"

end Level

inductive Category where
  | global
  | conflictingParent
  | enumeration
  | override
  | inheritDoc
  | history
  | cycle
  | noDoc
  | noDocParam
  | dupMember
  | dupParam
  | reqAfterOpt
  | typeName
  deriving DecidableEq, Inhabited

namespace Category

def all : List Category :=
  [global, conflictingParent, enumeration, override, inheritDoc, history, cycle, noDoc, noDocParam,
    dupMember, dupParam, reqAfterOpt, typeName]

def name : Category → String
  | global => "global"
  | conflictingParent => "extend"
  | enumeration => "enum"
  | override => "override"
  | inheritDoc => "inheritdoc"
  | history => "import"
  | cycle => "cycle"
  | noDoc => "no_doc"
  | noDocParam => "no_doc_param"
  | dupMember => "dup_member"
  | dupParam => "dup_param"
  | reqAfterOpt => "req_after_opt"
  | typeName => "type_name"

end Category

structure Diagnostic where
  level : Level
  category : Category
  message : String
  file : Option String := none
  line : Option UInt32 := none
  deriving DecidableEq, Inhabited

namespace Diagnostic

def located (level : Level) (category : Category) (message : String) (location : Option Location) : Diagnostic :=
  ⟨level, category, message, location.map Location.file, location.map Location.line⟩

def warning (category : Category) (message : String) (location : Option Location) : Diagnostic :=
  located .warning category message location

def display (d : Diagnostic) : String :=
  let place := match d.file, d.line with
    | some file, some line => file ++ ":" ++ toString line.toNat ++ ": "
    | some file, none => file ++ ": "
    | none, _ => ""
  place ++ "[" ++ d.category.name ++ "] " ++ d.message

end Diagnostic

/-- Findings in order, without those of muted categories. Fatal ones cannot be muted. -/
structure Sink where
  muted : List String := []
  entries : List Diagnostic := []
  deriving Inhabited

namespace Sink

def accepts (s : Sink) (d : Diagnostic) : Bool := d.level == .fatal || !s.muted.contains d.category.name

def report (s : Sink) (d : Diagnostic) : Sink :=
  if s.accepts d then { s with entries := s.entries ++ [d] } else s

def reportAll (s : Sink) (ds : List Diagnostic) : Sink := ds.foldl report s

@[simp] theorem mutedReport (s : Sink) (d : Diagnostic) : (s.report d).muted = s.muted := by
  unfold report; split <;> rfl

theorem reportAllEntries (s : Sink) (ds : List Diagnostic) :
    (s.reportAll ds).entries = s.entries ++ ds.filter s.accepts := by
  induction ds generalizing s with
  | nil => simp [reportAll]
  | cons d rest ih =>
    have step : s.reportAll (d :: rest) = (s.report d).reportAll rest := rfl
    have same : (s.report d).accepts = s.accepts := by funext e; simp [accepts]
    rw [step, ih, same]
    by_cases h : s.accepts d = true <;> simp [report, h]

def ofCategory (s : Sink) (c : Category) : List Diagnostic := s.entries.filter (·.category == c)

def hasFatal (s : Sink) : Bool := s.entries.any (·.level == .fatal)

end Sink

structure Reported (α : Type) where
  value : α
  findings : List Diagnostic
  deriving Inhabited

namespace Reported

instance : Monad Reported where
  pure value := ⟨value, []⟩
  bind r f := let next := f r.value; ⟨next.value, r.findings ++ next.findings⟩

def warn (category : Category) (message : String) (location : Option Location) : Reported Unit :=
  ⟨(), [.warning category message location]⟩

variable {α β : Type}

@[simp] theorem valuePure (a : α) : (pure a : Reported α).value = a := rfl

@[simp] theorem valueBind (r : Reported α) (f : α → Reported β) : (r >>= f).value = (f r.value).value := rfl

theorem findingsBind (r : Reported α) (f : α → Reported β) : (r >>= f).findings = r.findings ++ (f r.value).findings := rfl

theorem valueFoldlM (f : β → α → Reported β) (init : β) (items : List α) :
    (items.foldlM f init).value = items.foldl (fun b a => (f b a).value) init := by
  induction items generalizing init with
  | nil => rfl
  | cons a rest ih => rw [List.foldlM_cons, valueBind, ih, List.foldl_cons]

end Reported
end ClassDocs
