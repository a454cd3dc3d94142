import ClassDocs.Expression.Value
import ClassDocs.Json.Decode

/-! Values as structured data. -/
namespace ClassDocs.Value

def typed? (kind value : Json) : Option Value :=
  match kind.name? with
  | some "string" => value.string?.map .string
  | some "number" => value.float?.map .number
  | some "boolean" => value.bool?.map .boolean
  | some "regex" => value.string?.map .regex
  | _ => none

def tagged? : Json → Option Value
  | .array [kind, value] => typed? kind value
  | j => do typed? (← j.get? "type") (← j.get? "value")

mutual
/-- Reads a value. Whatever has no named kind is an array, an object or an unclassified literal. -/
def ofJson? : Json → Option Value
  | .string s => some (.unclassified s)
  | .array items => (tagged? (.array items)).or ((ofItems? items).map .array)
  | .object fields => (tagged? (.object fields)).or ((ofFields? fields).map .object)
  | _ => none

def ofItems? : List Json → Option (List Value)
  | [] => some []
  | j :: rest => do
    let v ← ofJson? j
    let vs ← ofItems? rest
    some (v :: vs)

def ofFields? : List (String × Json) → Option (List (String × Value))
  | [] => some []
  | (key, j) :: rest => do
    let v ← ofJson? j
    let entries ← ofFields? rest
    some ((key, v) :: entries)
end

end ClassDocs.Value
