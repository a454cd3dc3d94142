import ClassDocs.Script.Walk
import ClassDocs.Expression.Evaluate

/-! The code that doc comments document: class definitions, functions and values, each at the byte
offset where it begins. -/
namespace ClassDocs.Script

/-- A call `Ext.define(name, body)`. -/
structure ClassCode where
  name : String
  parent : Option String := none
  mixins : List String := []
  requires : List String := []
  overrideTarget : Option String := none
  singleton : Bool := false
  deriving DecidableEq

structure FunctionCode where
  name : String
  /-- The object that the function is assigned to, as `Foo.Bar` in `Foo.Bar.baz = function`. -/
  owner : Option String := none
  params : List String
  returns : List Expression
  isStatic : Bool := false

structure ValueCode where
  name : String
  owner : Option String := none
  value : Option Expression
  inConfig : Bool := false
  isStatic : Bool := false

inductive Code where
  | classDefinition (code : ClassCode)
  | function (code : FunctionCode)
  | value (code : ValueCode)

namespace Code

def name : Code → String
  | .classDefinition code => code.name
  | .function code => code.name
  | .value code => code.name

def owner : Code → Option String
  | .classDefinition _ => none
  | .function code => code.owner
  | .value code => code.owner

/-- The name with the owner in front, as in `My.Enum = ...`. -/
def fullName (code : Code) : String :=
  match code.owner with
  | some owner => owner ++ "." ++ code.name
  | none => code.name

inductive Block where
  | config
  | statics
  deriving DecidableEq

def Block.ofKey? (key : String) : Option Block :=
  if key == "config" then some .config
  else if key == "statics" || key == "inheritableStatics" then some .statics
  else none

/-- Code as a member of a block. Functions in a `config` block stay what they are. -/
def within (block : Block) : Code → Code
  | .value code =>
    match block with
    | .config => .value { code with inConfig := true }
    | .statics => .value { code with isStatic := true }
  | .function code =>
    match block with
    | .config => .function code
    | .statics => .function { code with isStatic := true }
  | .classDefinition code => .classDefinition code

end Code

namespace Tree

def mayReturn : Tree → Bool
  | .function .. => false
  | .arrow _ => false
  | .ret _ => false
  | _ => true

def returned? : Tree → Option Expression
  | .ret (some argument) => some argument.lower
  | .ret none => some (.identifier "undefined")
  | _ => none

/-- What the statements of a function return, functions inside it left aside. -/
def returns (body : List Tree) : List Expression :=
  body.flatMap fun t => (t.subtrees mayReturn).filterMap returned?

def plainName? : Tree → Option String
  | .identifier name => some name
  | _ => none

def functionCode (name : String) (owner : Option String) (params body : List Tree) : Code :=
  .function { name, owner, params := params.filterMap plainName?, returns := returns body }

def valueCode (name : String) (owner : Option String) : Option Tree → Code
  | some (.function _ _ params body) => functionCode name owner params body
  | value => .value { name, owner, value := value.map lower }

def propertyCode? (key : Tree) (computed : Bool) (value : Tree) : Option Code :=
  (keyName? computed key).map fun name => valueCode name none (some value)

def assignmentCode? (target value : Tree) : Option Code :=
  match target with
  | .identifier name => some (valueCode name none (some value))
  | .dot owner name => some (valueCode name (owner.path?.filter (· != "this")) (some value))
  | _ => none

/-- Class names from a string, an array of strings or an object of strings. -/
def classNames (t : Tree) : List String :=
  match t.lower.evaluate with
  | .ok (.array items) => items.filterMap Value.string?
  | .ok (.object entries) => entries.filterMap (·.2.string?)
  | .ok value => value.string?.toList
  | .error _ => []

def defineEntry (code : ClassCode) (key : String) (value : Tree) : ClassCode :=
  match key with
  | "extend" => { code with parent := value.string? }
  | "override" => { code with overrideTarget := value.string? }
  | "mixins" => { code with mixins := value.classNames }
  | "requires" => { code with requires := value.classNames }
  | "singleton" =>
    { code with singleton := match value with | .literal _ (.boolean b) => b | _ => false }
  | _ => code

def namedMembers : Tree → List (String × Nat × Tree)
  | .object members => members.filterMap fun member =>
    match member with
    | .property start key computed value => (keyName? computed key).map fun name => (name, start, value)
    | _ => none
  | _ => []

def blockCode (block : Code.Block) (t : Tree) : List (Nat × Code) :=
  t.namedMembers.map fun (name, start, value) => (start, (valueCode name none (some value)).within block)

/-- A call of `Ext.define` with a name in quotes: the members of its blocks, then the class. -/
def defineCode (start : Nat) (callee : Tree) (args : List Tree) : List (Nat × Code) :=
  if callee.path? == some "Ext.define" then
    match args.head?.bind string? with
    | some name =>
      let entries := (args[1]?.map namedMembers).getD []
      let code := entries.foldl (fun code (key, _, value) => defineEntry code key value) { name }
      entries.flatMap (fun (key, _, value) =>
        ((Code.Block.ofKey? key).map fun block => blockCode block value).getD []) ++
      [(start, .classDefinition code)]
    | none => []
  else []

def codeAt : Tree → List (Nat × Code)
  | .call start callee args => defineCode start callee args
  | .property start key computed value => ((propertyCode? key computed value).map fun code => (start, code)).toList
  | .assign start _ target value => ((assignmentCode? target value).map fun code => (start, code)).toList
  | .declare start (.declarator (.identifier name) value :: _) => [(start, valueCode name none value)]
  | .function start (some name) params body => [(start, functionCode name none params body)]
  | _ => []

end Tree

/-- All code of a script. Of several pieces at one offset the first counts. -/
def codeOf (statements : List Tree) : List (Nat × Code) :=
  statements.flatMap fun t => (t.subtrees fun _ => true).flatMap Tree.codeAt

def codeAt? (code : List (Nat × Code)) (offset : Nat) : Option Code :=
  (code.find? (·.1 == offset)).map Prod.snd

end ClassDocs.Script
