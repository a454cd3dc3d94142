import ClassDocs.Graph
import ClassDocs.Expression.Classify

/-! Types of return values. A chainable method returns its class; other methods without a declared
type get one when all their `return` statements agree. -/
namespace ClassDocs

def commonClass : List Expression → Option ResultClass
  | [] => none
  | e :: rest => if rest.all (·.classify == e.classify) then some e.classify else none

namespace ResultClass

def typeName? : ResultClass → Option String
  | boolean => some "Boolean"
  | string => some "String"
  | regexp => some "RegExp"
  | _ => none

end ResultClass

namespace Metadata

/-- A chainable method returns its owner, unless a type or a text is given. -/
def chained (m : Metadata) (owner : String) : Metadata :=
  let returns := m.returns.getD {}
  { m with returns := some ⟨returns.typeName.or (some owner), returns.doc.or (some "this")⟩ }

def declaresReturn (m : Metadata) : Bool := (m.returns.bind ReturnDoc.typeName).isSome

def withReturns (m : Metadata) (owner : String) : Metadata :=
  if m.chainable then m.chained owner
  else if m.declaresReturn then m
  else
    match commonClass m.returnExpressions with
    | some .thisReference => { m with chainable := true }.chained owner
    | some c =>
      match c.typeName? with
      | some type => { m with returns := some { m.returns.getD {} with typeName := some type } }
      | none => m
    | none => m

end Metadata

def ClassGraph.withReturns (g : ClassGraph) : ClassGraph :=
  g.mapClasses fun c =>
    { c with members := c.members.map fun m =>
        if m.kind = .method then { m with info := m.info.withReturns c.name } else m }

end ClassDocs
