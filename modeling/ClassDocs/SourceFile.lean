import ClassDocs.Comment
import ClassDocs.Failure
import ClassDocs.Expression.Classify
import ClassDocs.Script.Code
import ClassDocs.Script.Parse.Program

/-! Source files: every doc comment of a script becomes a declaration. Tags decide its kind and its
name, and the code behind the comment fills in what the tags leave out. -/
namespace ClassDocs
open Script

def Expression.parse (text : String) : Except Failure Expression :=
  match Program.read ("(" ++ text ++ ");") with
  | .error error => .error (.malformed "<expression>" (.broken error))
  | .ok program =>
    match program.statements with
    | [.effect e] => .ok e.lower
    | _ => .error (.ofProblems "<expression>" ["not a single expression: " ++ text])

namespace SourceFile

def kindTag? (tag : Tag) : Option (Kind × Option Tag) := (Kind.ofName? tag.name).map fun kind => (kind, some tag)

/-- Tags that only classes have. An `override` without a class is one of a member. -/
def isClassBlock (b : DocBlock) : Bool :=
  ["enum", "extends", "extend", "mixins", "singleton"].any b.has || (b.tag? "override").any (·.body != "")

def kindOfCode : Code → Kind
  | .classDefinition _ => .classKind
  | .function _ => .method
  | .value code => if code.inConfig then .cfg else .property

/-- The kind of a declaration and the tag that names it. A tag goes before the code. -/
def kind? (b : DocBlock) (code : Option Code) : Option (Kind × Option Tag) :=
  (b.tags.findSome? kindTag?).or <|
    if isClassBlock b then some (.classKind, none) else code.map fun code => (kindOfCode code, none)

def nameSpec (primary : Option Tag) : Option NameSpec × Option String :=
  match primary with
  | some tag => NameSpec.split tag.body
  | none => (none, none)

def composed (b : DocBlock) (description : Option String) : Option String :=
  match b.summary.toList ++ description.toList with
  | [] => none
  | paragraphs => some (Text.joined "\n\n" paragraphs)

def firstWordOf? (b : DocBlock) (names : List String) : Option String :=
  names.findSome? fun name => (b.tag? name).bind fun tag => Text.firstWord? tag.body

def wordsOf (b : DocBlock) (names : List String) : List String :=
  names.flatMap fun name => (b.tagsNamed name).flatMap fun tag => Text.words tag.body

/-- Whether a text begins like an array or an object. -/
def looksLikeValues (body : List Char) : Bool := body.head? == some '[' || body.head? == some '\x7b'

/-- Text behind `@enum` that is documentation rather than a list of values. -/
def enumDescription? (b : DocBlock) : Option String := do
  let tag ← b.tag? "enum"
  let body := Text.trim tag.body.toList
  if looksLikeValues body then none else Text.content? body

def codeValue? : Option Code → Option Expression
  | some (.value code) => code.value
  | _ => none

/-- The values of an enumeration: those in the tag, else those in the code. -/
def enumValues? (tag : Tag) (code : Option Code) : Option Expression :=
  let body := Text.trim tag.body.toList
  let inTag := if looksLikeValues body then (Expression.parse (String.ofList body)).toOption else none
  inTag.or (codeValue? code)

def definition? : Option Code → Option ClassCode
  | some (.classDefinition code) => some code
  | _ => none

/-- `names`, or what `other` offers in their place. -/
def orElseNames (names : List String) (other : Option (List String)) : List String :=
  if names.isEmpty then other.getD [] else names

def classInfo (b : DocBlock) (code : Option Code) : ClassInfo :=
  let definition := definition? code
  { parent := (firstWordOf? b ["extends", "extend"]).or (definition.bind ClassCode.parent)
    mixins := orElseNames (wordsOf b ["mixins", "mixin"]) (definition.map ClassCode.mixins)
    requires := orElseNames (wordsOf b ["requires"]) (definition.map ClassCode.requires)
    overrideTarget := (firstWordOf? b ["override"]).or (definition.bind ClassCode.overrideTarget)
    singleton := b.has "singleton" || definition.any ClassCode.singleton
    enumSpec := (b.tag? "enum").map fun tag => ⟨tag.typeHint, enumValues? tag code⟩
    codeStyle := if definition.isSome then .extDefine else .plain }

def classDeclaration? (b : DocBlock) (primary : Option Tag) (code : Option Code) (location : Location) :
    Option Declaration := do
  let (spec, description) := nameSpec primary
  let name ← (spec.map NameSpec.name).or (code.map Code.fullName)
  some
    { kind := .classKind, name, files := [location]
      info := { doc := composed b (description.or (enumDescription? b)), classInfo := classInfo b code } }

/-- The class that `Foo.prototype` in front of a name speaks of. Other owners leave the member to
the current class. -/
def prototypeOwner? (code : Option Code) : Option String := do
  let owner ← (← code).owner
  Text.dropEnding? ".prototype" owner

def typeOfTag? (tag : Tag) : Option String := tag.typeHint.or (Text.firstWord? tag.body)

def docParams (b : DocBlock) : List Param :=
  (b.tagsNamed "param").filterMap fun tag =>
    let (spec, doc) := NameSpec.split tag.body
    spec.map fun spec =>
      { name := spec.name, typeName := tag.typeHint, doc, optional := spec.optional, defaultText := spec.defaultText }

def docReturns? (b : DocBlock) : Option ReturnDoc :=
  ((b.tag? "return").or (b.tag? "returns")).map fun tag =>
    ⟨tag.typeHint, if tag.body == "" then none else some tag.body⟩

def guessedType? (e : Expression) : Option String :=
  match e.classify with
  | .boolean => some "Boolean"
  | .string => some "String"
  | .regexp => some "RegExp"
  | _ => if e.nodeType == "FunctionExpression" then some "Function" else none

/-- Takes the default and the type from the value in code where the tags leave them open. -/
def withValue (m : Metadata) (e : Expression) : Metadata :=
  let m := match e.evaluate with
    | .ok v =>
      { m with defaultText := m.defaultText.or (some v.literal), typeName := m.typeName.or v.typeName? }
    | .error _ => { m with typeName := m.typeName.or (guessedType? e) }
  { m with value := some e }

def withFieldCode (kind : Kind) (m : Metadata) : Option Code → Metadata
  | some (.value code) =>
    let m := { m with
      isStatic := m.isStatic || code.isStatic
      accessor := m.accessor || (code.inConfig && kind == .cfg) }
    match code.value with
    | some e => withValue m e
    | none => m
  | some (.function _) => { m with typeName := m.typeName.or (some "Function") }
  | _ => m

/-- What code adds to a method. Documented parameters go before those in code. -/
def withMethodCode (m : Metadata) : Option Code → Metadata
  | some (.function code) =>
    { m with
      params := if m.params.isEmpty then code.params.map fun name => { name } else m.params
      returnExpressions := code.returns
      isStatic := m.isStatic || code.isStatic }
  | _ => m

def memberDeclaration? (kind : Kind) (b : DocBlock) (primary : Option Tag) (code : Option Code)
    (location : Location) : Option Declaration := do
  let (spec, description) := nameSpec primary
  let name ← (spec.map NameSpec.name).or (code.map Code.name)
  let owner := ((b.tag? "member").bind fun tag => Text.firstWord? tag.body).or (prototypeOwner? code)
  let m : Metadata :=
    { doc := composed b description
      typeName := (primary.bind Tag.typeHint).or ((b.tag? "type").bind typeOfTag?) }
  let m := match kind with
    | .cfg | .property => withFieldCode kind { m with defaultText := spec.bind NameSpec.defaultText } code
    | .method => withMethodCode { m with params := docParams b, returns := docReturns? b } code
    | .event => { m with params := docParams b }
    | .classKind => m
  some { kind, name, owner, files := [location], info := m }

def knownTags : List String :=
  ["class", "cfg", "property", "method", "event", "param", "return", "returns", "type", "member", "private",
    "protected", "public", "static", "accessor", "evented", "enum", "inheritdoc", "inheritDoc", "chainable",
    "ignore", "deprecated", "since", "template", "extends", "extend", "mixins", "mixin", "requires", "singleton",
    "override"]

def withCommonTags (b : DocBlock) (m : Metadata) : Metadata :=
  { m with
    visibility :=
      if b.has "private" then .privateAccess else if b.has "protected" then .protectedAccess else m.visibility
    isStatic := m.isStatic || b.has "static"
    accessor := m.accessor || b.has "accessor"
    evented := m.evented || b.has "evented"
    chainable := m.chainable || b.has "chainable"
    template := m.template || b.has "template"
    ignore := m.ignore || b.has "ignore"
    deprecated := (b.tag? "deprecated").map Tag.body
    since := (b.tag? "since").bind fun tag => Text.content? tag.body.toList
    inheritDoc := ((b.tag? "inheritdoc").or (b.tag? "inheritDoc")).map fun tag => ⟨Text.firstWord? tag.body⟩
    extraTags := b.tags.filter (!knownTags.contains ·.name) }

/-- The declaration that a doc comment makes, together with the code behind it. A comment without
a kind or a name makes none. -/
def declaration? (b : DocBlock) (code : Option Code) (location : Location) : Option Declaration := do
  let (kind, primary) ← kind? b code
  let d ← if kind == .classKind then classDeclaration? b primary code location
    else memberDeclaration? kind b primary code location
  some { d with info := withCommonTags b d.info }

/-- Doc comments with the code that each documents. Of several comments in front of the same code
the last one documents it. -/
def withCode (code : List (Nat × Code)) : List (DocComment × Nat) → List (DocComment × Option Code)
  | [] => []
  | (comment, offset) :: rest =>
    (comment, if rest.any (·.2 == offset) then none else codeAt? code offset) :: withCode code rest

def parse (path source : String) : Except Failure FileResult :=
  match Program.read source with
  | .error error => .error (.malformed path (.broken error))
  | .ok program =>
    let table := Text.LineTable.ofSource source
    .ok ⟨path, (withCode (codeOf program.statements) program.remarks).filterMap fun (comment, code) =>
      declaration? (Comment.parse comment.content) code ⟨path, table.line comment.start⟩⟩

end SourceFile
end ClassDocs
