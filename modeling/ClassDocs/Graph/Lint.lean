import ClassDocs.Graph

/-! Problems of the documentation: missing texts, repeated names, optional parameters in front of
required ones, unknown types. -/
namespace ClassDocs

def builtinTypes : List String :=
  ["*", "Arguments", "Array", "Boolean", "CSSStyleRule", "CSSStyleSheet", "Date", "Element", "Error",
    "Event", "Function", "HTMLElement", "Mixed", "NodeList", "Number", "Object", "RegExp", "String",
    "TextNode", "Window", "XMLElement", "boolean", "null", "number", "string", "undefined"]

namespace TypeText
open Text

def dropDots : List Char → List Char
  | '.' :: '.' :: '.' :: rest => dropDots rest
  | s => s

/-- Takes every `[]` off the end; the text is given backwards. -/
def dropBrackets : List Char → List Char
  | ']' :: '[' :: rest => dropBrackets rest
  | s => s

def dropEnd (p : Char → Bool) (s : List Char) : List Char := (s.reverse.dropWhile p).reverse

/-- A part of a type without its decoration: dots, marks for nullable types, a mark for optional
ones, brackets of arrays. -/
def bareName (part : List Char) : List Char :=
  let s := dropDots (trim part)
  let s := (dropDots s.reverse).reverse
  let s := s.dropWhile fun c => c == '?' || c == '!'
  let s := dropEnd (· == '=') s
  trim (dropBrackets s.reverse).reverse

def isClassName (s : List Char) : Bool :=
  match s with
  | [] => false
  | c :: _ =>
    !(c == '\x7b' || c == '"' || c == '\'' || c.isDigit || c == '-') &&
      !s.any fun c => c == '<' || c == '(' || c == ':'

/-- The names of classes in a type such as `String/Number[]|Ext.Element...`. -/
def names (type : String) : List String :=
  (((pieces (fun c => c == '/' || c == '|' || c == ',') type.toList).map bareName).filter isClassName).map
    String.ofList

end TypeText

namespace Declaration

def types (m : Declaration) : List String :=
  m.info.typeName.toList ++ m.info.params.filterMap Param.typeName ++
    (m.info.returns.bind ReturnDoc.typeName).toList

def wantsDoc (m : Declaration) : Bool :=
  m.info.visibility == .publicAccess && !m.info.autogenerated

end Declaration

namespace Lint

/-- Findings about one parameter. `names` are those of the parameters before it, `optional` the
first optional one among them. -/
def paramFindings (m : Declaration) (fullName : String) (names : List String) (optional : Option String)
    (p : Param) : List Diagnostic :=
  (if p.name ∈ names then
    [.warning .dupParam ("Duplicate parameter name " ++ p.name ++ " in " ++ fullName) m.location?]
  else []) ++
  (if m.wantsDoc && !documented p.doc then
    [.warning .noDocParam ("No documentation for parameter " ++ p.name ++ " of " ++ fullName) m.location?]
  else []) ++
  match optional with
  | some previous =>
    if p.optional then []
    else [.warning .reqAfterOpt ("Optional parameter " ++ previous ++ " followed by required parameter " ++
      p.name ++ " in " ++ fullName) m.location?]
  | none => []

def paramsFindings (m : Declaration) (fullName : String) (names : List String) (optional : Option String) :
    List Param → List Diagnostic
  | [] => []
  | p :: rest =>
    paramFindings m fullName names optional p ++
      paramsFindings m fullName (p.name :: names)
        (optional.or (if p.optional then some p.name else none)) rest

def isKnownType (g : ClassGraph) (name : String) : Bool :=
  builtinTypes.contains name || (g.lookup? name).isSome

def typeFindings (g : ClassGraph) (m : Declaration) (fullName : String) : List Diagnostic :=
  ((m.types.flatMap TypeText.names).filter (!isKnownType g ·)).map fun name =>
    .warning .typeName ("Unknown type " ++ name ++ " in " ++ fullName) m.location?

def memberFindings (g : ClassGraph) (c : ClassRecord) (m : Declaration) : List Diagnostic :=
  let fullName := c.name ++ "#" ++ m.name
  (if m.wantsDoc && !m.hasDoc then
    [.warning .noDoc ("No documentation for " ++ fullName) m.location?]
  else []) ++
  (if m.kind = .method ∨ m.kind = .event then paramsFindings m fullName [] none m.info.params else []) ++
  typeFindings g m fullName

/-- Findings about members in order; `seen` are the kinds and names of those before. -/
def membersFindings (g : ClassGraph) (c : ClassRecord) (seen : List (Kind × String)) :
    List Declaration → List Diagnostic
  | [] => []
  | m :: rest =>
    (if (m.kind, m.name) ∈ seen then
      [.warning .dupMember ("Duplicate " ++ m.kind.name ++ " name " ++ c.name ++ "#" ++ m.name) m.location?]
    else []) ++
    memberFindings g c m ++ membersFindings g c ((m.kind, m.name) :: seen) rest

def classFindings (g : ClassGraph) (c : ClassRecord) : List Diagnostic :=
  (if c.info.visibility ≠ .privateAccess ∧ !c.info.hasDoc then
    [.warning .noDoc ("No documentation for " ++ c.name) c.location?]
  else []) ++
  membersFindings g c [] c.members

end Lint

def ClassGraph.lint (g : ClassGraph) : List Diagnostic := g.records.flatMap (Lint.classFindings g)

end ClassDocs
