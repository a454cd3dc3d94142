import ClassDocs.Expression

/-! Declarations: what one doc comment says about one class or one member of a class, together
with what the code behind the comment tells. -/
namespace ClassDocs

/-- The class that takes in declarations without an owner. -/
def globalName : String := "global"

inductive Kind where
  | classKind
  | cfg
  | property
  | method
  | event
  deriving DecidableEq, Inhabited

namespace Kind

def all : List Kind := [classKind, cfg, property, method, event]

def name : Kind → String
  | classKind => "class"
  | cfg => "cfg"
  | property => "property"
  | method => "method"
  | event => "event"

def isMember (k : Kind) : Bool := k != classKind

def ofName? (s : String) : Option Kind := all.find? (·.name == s)

theorem ofNameName (k : Kind) : ofName? k.name = some k := by cases k <;> decide

end Kind

/-- Where a doc comment stands; lines count from 1. -/
structure Location where
  file : String
  line : UInt32
  deriving DecidableEq, Inhabited

inductive Visibility where
  | publicAccess
  | protectedAccess
  | privateAccess
  deriving DecidableEq, Inhabited

structure Tag where
  name : String
  typeHint : Option String := none
  body : String := ""
  deriving DecidableEq, Inhabited

structure Param where
  name : String
  typeName : Option String := none
  doc : Option String := none
  optional : Bool := false
  defaultText : Option String := none
  deriving DecidableEq, Inhabited

structure ReturnDoc where
  typeName : Option String := none
  doc : Option String := none
  deriving DecidableEq, Inhabited

/-- A wish to copy documentation, from the place that `target` names or from the overridden
member. -/
structure InheritDoc where
  target : Option String := none
  deriving DecidableEq, Inhabited

structure EnumSpec where
  typeName : Option String := none
  values : Option Expression := none
  deriving Inhabited

inductive CodeStyle where
  | plain
  | extDefine
  deriving DecidableEq, Inhabited

structure ClassInfo where
  parent : Option String := none
  mixins : List String := []
  requires : List String := []
  overrideTarget : Option String := none
  singleton : Bool := false
  enumSpec : Option EnumSpec := none
  codeStyle : CodeStyle := .plain
  deriving Inhabited

structure Metadata where
  doc : Option String := none
  typeName : Option String := none
  defaultText : Option String := none
  value : Option Expression := none
  visibility : Visibility := .publicAccess
  isStatic : Bool := false
  accessor : Bool := false
  evented : Bool := false
  params : List Param := []
  returns : Option ReturnDoc := none
  returnExpressions : List Expression := []
  chainable : Bool := false
  template : Bool := false
  inheritDoc : Option InheritDoc := none
  /-- The comment asks to leave the declaration out. -/
  ignore : Bool := false
  deprecated : Option String := none
  since : Option String := none
  /-- No earlier release has it. -/
  isNew : Bool := false
  /-- Not written in the source. -/
  autogenerated : Bool := false
  inheritedFrom : Option String := none
  extraTags : List Tag := []
  classInfo : ClassInfo := {}
  deriving Inhabited

/-- Documentation that is there and not blank. -/
def documented (doc : Option String) : Bool := doc.any fun d => !Text.isBlankText d

namespace Metadata

def hasDoc (m : Metadata) : Bool := documented m.doc

/-- Adds a paragraph. Blank documentation is replaced. -/
def appendDoc (m : Metadata) (paragraph : String) : Metadata :=
  { m with doc := some (if m.hasDoc then m.doc.getD "" ++ "\n\n" ++ paragraph else paragraph) }

end Metadata

structure Declaration where
  kind : Kind
  name : String
  owner : Option String := none
  /-- Every place that contributed, first one first. -/
  files : List Location
  info : Metadata := {}
  /-- Left out of the documentation. -/
  ignored : Bool := false
  deriving Inhabited

namespace Declaration

def emptyClass (name : String) : Declaration := { kind := .classKind, name, files := [] }

def location? (d : Declaration) : Option Location := d.files.head?

def hasDoc (d : Declaration) : Bool := d.info.hasDoc

def isFor (kind : Kind) (name : String) (d : Declaration) : Bool := d.kind == kind && d.name == name

theorem isForIff {kind : Kind} {name : String} {d : Declaration} : d.isFor kind name = true ↔ d.kind = kind ∧ d.name = name := by
  simp only [isFor, Bool.and_eq_true, beq_iff_eq]

end Declaration

structure FileResult where
  path : String
  records : List Declaration
  deriving Inhabited

end ClassDocs
