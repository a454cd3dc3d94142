import ClassDocs.Json

/-! Decoding structures. A structure is written as an object, whose unknown fields do not matter,
or as the array of its fields in the order of declaration, where fields at the end may be missing
if they have a default. -/
namespace ClassDocs.Json

def bool? : Json → Option Bool
  | .bool b => some b
  | _ => none

def string? : Json → Option String
  | .string s => some s
  | _ => none

/-- Whole numbers are accepted where a double is asked for. -/
def float? : Json → Option Float
  | .float x => some x
  | .int n => some (Float.ofInt n)
  | _ => none

def natBelow? (bound : Nat) : Json → Option Nat
  | .int n => if 0 ≤ n ∧ n < bound then some n.toNat else none
  | _ => none

def list? {α : Type} (decode : Json → Option α) : Json → Option (List α)
  | .array items => items.mapM decode
  | _ => none

/-- A value of an enumeration: its name, alone or as the only field with the value null. -/
def name? : Json → Option String
  | .string s => some s
  | .object [(name, .null)] => some name
  | _ => none

structure Given where
  positional : Bool
  values : List (String × Json)

/-- The declared fields among those of `j`; none of them may stand twice. -/
def given? (names : List String) : Json → Option Given
  | .object fields =>
    let known := fields.filter fun f => names.contains f.1
    if (known.map Prod.fst).Nodup then some ⟨false, known⟩ else none
  | .array items => if items.length ≤ names.length then some ⟨true, names.zip items⟩ else none
  | _ => none

namespace Given

def lookup (g : Given) (name : String) : Option Json :=
  (g.values.find? (·.1 == name)).map Prod.snd

def required {α : Type} (g : Given) (name : String) (decode : Json → Option α) : Option α :=
  (g.lookup name).bind decode

def withDefault {α : Type} (g : Given) (name : String) (decode : Json → Option α) (missing : α) : Option α :=
  match g.lookup name with
  | some j => decode j
  | none => some missing

def nullable {α : Type} (g : Given) (name : String) (decode : Json → Option α) : Option (Option α) :=
  match g.lookup name with
  | some .null => some none
  | some j => (decode j).map some
  | none => some none

/-- A field that may be null, and may be missing from an object but not from an array. -/
def optional {α : Type} (g : Given) (name : String) (decode : Json → Option α) : Option (Option α) :=
  if g.positional && (g.lookup name).isNone then none else g.nullable name decode

def flag (g : Given) (name : String) : Option Bool := g.withDefault name bool? false

end Given
end ClassDocs.Json
