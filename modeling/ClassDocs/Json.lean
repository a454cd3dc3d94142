/-! Structured data. Fields of an object keep their order, and a name may stand twice. -/
namespace ClassDocs

inductive Json where
  | null
  | bool (value : Bool)
  | int (value : Int)
  | float (value : Float)
  | string (value : String)
  | array (items : List Json)
  | object (fields : List (String × Json))
  deriving Inhabited, BEq

namespace Json

def field? (name : String) (value : Option Json) : List (String × Json) :=
  match value with
  | some v => [(name, v)]
  | none => []

def listField (name : String) (items : List Json) : List (String × Json) :=
  if items.isEmpty then [] else [(name, .array items)]

/-- Infinities and NaN have no number in the format and become null. -/
def ofFloat (x : Float) : Json := if x.isFinite then .float x else .null

def ofOption (value : Option Json) : Json := value.getD .null

def get? (name : String) : Json → Option Json
  | .object fields => (fields.reverse.find? (·.1 == name)).map Prod.snd
  | _ => none

def putSorted (name : String) (value : Json) : List (String × Json) → List (String × Json)
  | [] => [(name, value)]
  | (n, v) :: rest =>
    if name = n then (name, value) :: rest
    else if name < n then (name, value) :: (n, v) :: rest
    else (n, v) :: putSorted name value rest

mutual
/-- The same data with every object read as a map: sorted by name, the last of equal names. -/
def asMaps : Json → Json
  | .array items => .array (asMapsItems items)
  | .object fields => .object (asMapsFields [] fields)
  | j => j

def asMapsItems : List Json → List Json
  | [] => []
  | j :: rest => asMaps j :: asMapsItems rest

def asMapsFields (done : List (String × Json)) : List (String × Json) → List (String × Json)
  | [] => done
  | (name, j) :: rest => asMapsFields (putSorted name (asMaps j) done) rest
end

end Json
end ClassDocs
