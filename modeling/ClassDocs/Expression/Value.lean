import ClassDocs.Expression

/-! Values of expressions, and their texts: the plain text of a value and the literal that
stands for it in documentation. -/
namespace ClassDocs

inductive Value where
  | string (value : String)
  | number (value : Float)
  | boolean (value : Bool)
  | regex (source : String)
  /-- A literal without a kind of its own, such as `null`; its source text is kept. -/
  | unclassified (raw : String)
  | array (items : List Value)
  /-- Entries by key; every key stands once. -/
  | object (entries : List (String × Value))
  deriving Inhabited

namespace Value

def scalarText? : Value → Option String
  | .string s => some s
  | .number x => some (Number.text x)
  | .boolean b => some (booleanText b)
  | .regex source => some source
  | _ => none

def string? : Value → Option String
  | .string s => some s
  | _ => none

/-- The name of the value's kind; an unclassified literal has none. -/
def typeName? : Value → Option String
  | .string _ => some "String"
  | .number _ => some "Number"
  | .boolean _ => some "Boolean"
  | .regex _ => some "RegExp"
  | .unclassified _ => none
  | .array _ => some "Array"
  | .object _ => some "Object"

mutual
/-- The value as a literal. Keys of objects stand as they are, without quotes. -/
def literal : Value → String
  | .string s => quoted s
  | .number x => Number.text x
  | .boolean b => booleanText b
  | .regex source => source
  | .unclassified raw => raw
  | .array items => "[" ++ Text.joined ", " (itemLiterals items) ++ "]"
  | .object entries => "\x7b" ++ Text.joined ", " (entryLiterals entries) ++ "\x7d"

def itemLiterals : List Value → List String
  | [] => []
  | v :: vs => literal v :: itemLiterals vs

def entryLiterals : List (String × Value) → List String
  | [] => []
  | (key, v) :: rest => (key ++ ": " ++ literal v) :: entryLiterals rest
end

/-- The value as plain text: a string without quotes, everything else as its literal. -/
def text (v : Value) : String := v.scalarText?.getD v.literal

/-- Sets `key`: in place when it is there already, else at the end. -/
def setEntry (entries : List (String × Value)) (key : String) (v : Value) : List (String × Value) :=
  if entries.any (·.1 == key) then
    entries.map fun entry => if entry.1 == key then (key, v) else entry
  else entries ++ [(key, v)]

theorem setEntryFresh {entries : List (String × Value)} {key : String} (v : Value)
    (fresh : ∀ entry ∈ entries, entry.1 ≠ key) : setEntry entries key v = entries ++ [(key, v)] := by
  have h : entries.any (·.1 == key) = false := by simpa using fresh
  simp [setEntry, h]

end Value
end ClassDocs
