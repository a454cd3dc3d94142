import ClassDocs.Registry
import ClassDocs.Diagnostic
import ClassDocs.Expression.Evaluate

/-! Enumerations. Every value becomes a property, and the common kind of the values the type of
them all. -/
namespace ClassDocs

structure EnumValue where
  name : String
  literal : String
  typeName : Option String

namespace EnumValue

def ofItem (v : Value) : EnumValue := ⟨v.text, v.literal, v.typeName?⟩

/-- Items of an array by their text, entries of an object by their key, anything else alone. -/
def ofValue : Value → List EnumValue
  | .array items => items.map ofItem
  | .object entries => entries.map fun (key, v) => ⟨key, v.literal, v.typeName?⟩
  | v => [ofItem v]

end EnumValue

def mixedType : String := "Mixed"

/-- The type that all items share, `Mixed` as soon as two differ, none when there is no item or
one without a type comes first. -/
def commonTypeFrom (common : Option String) : List (Option String) → Option String
  | [] => common
  | none :: _ => none
  | some type :: rest =>
    match common with
    | none => commonTypeFrom (some type) rest
    | some c => if c = type then commonTypeFrom common rest else some mixedType

def commonType (types : List (Option String)) : Option String := commonTypeFrom none types

namespace Declaration

def isProperty (d : Declaration) : Bool := d.kind == .property

def withDefault (text : String) (d : Declaration) : Declaration :=
  if d.info.defaultText.isSome then d
  else { d with info := { d.info with defaultText := some text } }

def withType (type : String) (d : Declaration) : Declaration :=
  if d.isProperty && !d.ignored && d.info.typeName.isNone then
    { d with info := { d.info with typeName := some type } }
  else d

end Declaration

namespace ClassEntry

def enumProperty (e : ClassEntry) (v : EnumValue) : Declaration where
  kind := .property
  name := v.name
  owner := some e.record.name
  files := e.record.files
  info := { defaultText := some v.literal, autogenerated := true }

/-- The members and the properties added to them, after one more value. A repeated value changes
nothing. -/
def addEnumValue (e : ClassEntry) (state : List Declaration × List Declaration) (v : EnumValue) :
    List Declaration × List Declaration :=
  let (members, added) := state
  if added.any (·.name == v.name) then state
  else if members.any (·.isFor .property v.name) then
    (Declaration.alterFirst (·.isFor .property v.name) (·.withDefault v.literal) members, added)
  else (members, added ++ [e.enumProperty v])

theorem addEnumValueCases (e : ClassEntry) (members added : List Declaration) (v : EnumValue) :
    ((∃ d ∈ added, d.name = v.name) ∧ e.addEnumValue (members, added) v = (members, added)) ∨
    ((∀ d ∈ added, d.name ≠ v.name) ∧ members.any (·.isFor .property v.name) = true ∧ e.addEnumValue (members, added) v =
      (Declaration.alterFirst (·.isFor .property v.name) (·.withDefault v.literal) members, added)) ∨
    ((∀ d ∈ added, d.name ≠ v.name) ∧ members.any (·.isFor .property v.name) = false ∧
      e.addEnumValue (members, added) v = (members, added ++ [e.enumProperty v])) := by
  simp only [addEnumValue]
  by_cases repeated : ∃ d ∈ added, d.name = v.name
  · exact .inl ⟨repeated, if_pos (by simpa using repeated)⟩
  · have fresh : ∀ d ∈ added, d.name ≠ v.name := fun d hd same => repeated ⟨d, hd, same⟩
    have unlike : ¬added.any (·.name == v.name) = true := by simpa using fresh
    rw [if_neg unlike]
    cases known : members.any (·.isFor .property v.name) with
    | true => exact .inr (.inl ⟨fresh, rfl, rfl⟩)
    | false => exact .inr (.inr ⟨fresh, rfl, rfl⟩)

/-- The values of the enumeration; when they cannot be told, a warning stands for them. -/
def enumValues (e : ClassEntry) (spec : EnumSpec) : Reported (List EnumValue) :=
  match spec.values.map Expression.evaluate with
  | some (.ok v) => pure (EnumValue.ofValue v)
  | some (.error error) => do
    Reported.warn .enumeration
      ("Unable to evaluate values of enum " ++ e.name ++ ": " ++ error.message) e.record.location?
    pure []
  | none => pure []

def enumType (e : ClassEntry) (spec : EnumSpec) (values : List EnumValue) : Option String :=
  (spec.typeName.or (commonType (values.map EnumValue.typeName))).or
    (commonType ((e.members.filter (·.isProperty)).map (·.info.typeName)))

def withEnumType (e : ClassEntry) (type : Option String) : ClassEntry :=
  let info := e.record.info
  let classInfo := { info.classInfo with
    enumSpec := info.classInfo.enumSpec.map fun spec => { spec with typeName := type } }
  { record := { e.record with info := { info with classInfo } }
    members := match type with
      | some t => e.members.map (·.withType t)
      | none => e.members }

def expandEnum (e : ClassEntry) (spec : EnumSpec) : Reported ClassEntry := do
  let values ← e.enumValues spec
  let type := e.enumType spec values
  let (members, added) := values.foldl e.addEnumValue (e.members, [])
  pure ({ e with members := members ++ added }.withEnumType type)

def withEnum (e : ClassEntry) : Reported ClassEntry :=
  match e.record.info.classInfo.enumSpec with
  | some spec => if e.record.ignored then pure e else e.expandEnum spec
  | none => pure e

end ClassEntry

def Registry.withEnums (r : Registry) : Reported Registry :=
  let expanded := r.map ClassEntry.withEnum
  ⟨expanded.map Reported.value, expanded.values.flatMap Reported.findings⟩

end ClassDocs
