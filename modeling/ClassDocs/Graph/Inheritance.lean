import ClassDocs.Graph

/-! Inherited documentation. Members without documentation, and members that ask for it, copy it
from the member they override. Only gaps are filled. -/
namespace ClassDocs

structure Found where
  className : String
  member : Declaration
  deriving Inhabited

namespace ClassGraph

/-- The first class with a fitting member among those that are reached from `waiting`: a class
comes before its bases, its parent with all above it before its mixins. A class that is not in
`unvisited` is passed over. -/
def findInHierarchy (g : ClassGraph) (fits : Declaration → Bool) (unvisited : List String) :
    List String → Option Found
  | [] => none
  | name :: waiting =>
    if name ∈ unvisited then
      match g.get? name with
      | none => findInHierarchy g fits (unvisited.erase name) waiting
      | some c =>
        match c.members.find? fits with
        | some m => some ⟨c.name, m⟩
        | none => findInHierarchy g fits (unvisited.erase name) (c.bases ++ waiting)
    else findInHierarchy g fits unvisited waiting
termination_by waiting => (unvisited.length, waiting.length)
decreasing_by
  · exact Prod.Lex.left _ _ (Names.eraseShorter (by assumption))
  · exact Prod.Lex.left _ _ (Names.eraseShorter (by assumption))
  · exact Prod.Lex.right _ (by simp)

/-- The nearest documented member of that kind and name above a class. An overridden member
without documentation sends the search on to what it overrides itself. -/
def findDocumentedFrom (g : ClassGraph) (kind : Kind) (name : String) (unsearched : List String)
    (className : String) : Option Found :=
  if className ∈ unsearched then
    match g.get? className with
    | none => none
    | some c =>
      match g.findInHierarchy (·.isFor kind name) (g.names.erase className) c.bases with
      | none => none
      | some found =>
        if found.member.hasDoc then some found
        else findDocumentedFrom g kind name (unsearched.erase className) found.className
  else none
termination_by unsearched.length
decreasing_by exact Names.eraseShorter (by assumption)

def findDocumented (g : ClassGraph) (className : String) (kind : Kind) (name : String) : Option Found :=
  g.findDocumentedFrom kind name g.names className

end ClassGraph

/-- A reference to a member, written `Class#member`, `Class#kind-member`, `#member` or `Class`. -/
structure MemberRef where
  className : String
  kind : Kind
  name : String
  deriving DecidableEq

namespace MemberRef
open Text

def memberKind? (s : String) : Option Kind := (Kind.ofName? s).filter Kind.isMember

def parse (className : String) (member : Declaration) (target : String) : MemberRef :=
  let (before, after) := (cut? (· == '#') target.toList).getD (target.toList, [])
  let (kind, name) := match cut? (· == '-') after with
    | some (kind, name) => (memberKind? (String.ofList kind), String.ofList name)
    | none => (none, if after.isEmpty then member.name else String.ofList after)
  ⟨if before.isEmpty then className else String.ofList before, kind.getD member.kind, name⟩

end MemberRef

namespace ClassGraph

/-- The documentation that a reference leads to. A member of another kind is taken when there is
none of the kind asked for, and what is found without documentation is searched from upwards. -/
def resolve (g : ClassGraph) (r : MemberRef) : Option Found := do
  let found ← (g.findInHierarchy (·.isFor r.kind r.name) g.names [r.className]).or
    (g.findInHierarchy (·.name == r.name) g.names [r.className])
  if found.member.hasDoc then some found
  else g.findDocumented found.className found.member.kind found.member.name

/-- Where a member gets its documentation from; none when it needs none. -/
def source? (g : ClassGraph) (c : ClassRecord) (m : Declaration) : Option (Option Found) :=
  match m.info.inheritDoc with
  | some ⟨some target⟩ => some (g.resolve (MemberRef.parse c.name m target))
  | some ⟨none⟩ => some (g.findDocumented c.name m.kind m.name)
  | none =>
    if m.hasDoc || m.info.autogenerated then none else some (g.findDocumented c.name m.kind m.name)

/-- A reference that leads nowhere is a finding; missing documentation as such is not. -/
def inheritFindings (g : ClassGraph) (c : ClassRecord) (m : Declaration) : List Diagnostic :=
  match m.info.inheritDoc, g.source? c m with
  | some wish, some none =>
    let target := wish.target.getD (c.name ++ "#" ++ m.name)
    [.warning .inheritDoc ("@inheritdoc " ++ target ++ " - parent member not found") m.location?]
  | _, _ => []

end ClassGraph

def Param.inherit (sources : List Param) (p : Param) : Param :=
  match sources.find? (·.name == p.name) with
  | some source => { p with doc := p.doc.or source.doc, typeName := p.typeName.or source.typeName }
  | none => p

def ReturnDoc.inherit (own source : Option ReturnDoc) : Option ReturnDoc :=
  match own, source with
  | none, source => source
  | some own, some source => some ⟨own.typeName.or source.typeName, own.doc.or source.doc⟩
  | some own, none => some own

def Declaration.inherit (m : Declaration) (found : Found) : Declaration :=
  let own := m.info
  let source := found.member.info
  let takes := !own.hasDoc && source.hasDoc
  { m with info := { own with
      doc := if takes then source.doc else own.doc
      inheritedFrom := if takes then some found.className else own.inheritedFrom
      typeName := own.typeName.or source.typeName
      params := if own.params.isEmpty then source.params else own.params.map (Param.inherit source.params)
      returns := ReturnDoc.inherit own.returns source.returns } }

namespace ClassGraph

def inheritMember (g : ClassGraph) (c : ClassRecord) (m : Declaration) : Declaration :=
  match g.source? c m with
  | some (some found) => m.inherit found
  | _ => m

/-- Copies documentation down. Every source is looked up before anything is copied. -/
def inheritDocs (g : ClassGraph) : Reported ClassGraph :=
  ⟨g.mapClasses fun c => { c with members := c.members.map (g.inheritMember c) },
    g.records.flatMap fun c => c.members.flatMap (g.inheritFindings c)⟩

end ClassGraph
end ClassDocs
