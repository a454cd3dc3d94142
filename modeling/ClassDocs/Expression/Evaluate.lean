import ClassDocs.Expression.Value

/-! Static evaluation. Literals, arrays, objects, `+` over strings and numbers and the constant
`Ext.baseCSSPrefix` have a value; every other form is an error that names it. -/
namespace ClassDocs

inductive EvalError where
  | unknownNode (nodeType : String)
  | unsupportedOperator (operator : String)
  | unsupportedOperands (left right : String)
  | unsupportedMemberAccess
  | unsupportedKey (nodeType : String)
  deriving DecidableEq

def EvalError.message : EvalError → String
  | .unknownNode nodeType => "unknown node type: " ++ nodeType
  | .unsupportedOperator operator => "unable to handle operator: " ++ operator
  | .unsupportedOperands left right => "unable to concatenate " ++ left ++ " and " ++ right
  | .unsupportedMemberAccess => "unable to handle this member expression"
  | .unsupportedKey nodeType => "unsupported object key: " ++ nodeType

def baseCssPrefix : String := "x-"

def startsWithSlash (raw : String) : Bool := raw.toList.head? == some '/'

/-- The value of a literal. Text that starts with a slash is a regular expression, whatever the
literal says it denotes. -/
def Literal.evaluate (raw : String) (value : Literal) : Value :=
  if startsWithSlash raw then .regex raw
  else match value with
    | .string s => .string s
    | .number x => .number x
    | .boolean b => .boolean b
    | .regex _ => .regex raw
    | .null => .unclassified raw

namespace Value

/-- Strings and numbers add up; a string makes a string of a number beside it. -/
def concat (left right : Value) : Except EvalError Value :=
  match left, right with
  | .string l, .string r => .ok (.string (l ++ r))
  | .number l, .number r => .ok (.number (l + r))
  | .string l, .number r => .ok (.string (l ++ Number.text r))
  | .number l, .string r => .ok (.string (Number.text l ++ r))
  | l, r => .error (.unsupportedOperands (l.typeName?.getD "unclassified") (r.typeName?.getD "unclassified"))

end Value

namespace Expression

def keyText : Expression → Except EvalError String
  | .identifier name => .ok name
  | .literal _ (.string s) => .ok s
  | .literal raw value => .ok ((value.evaluate raw).scalarText?.getD raw)
  | e => .error (.unsupportedKey e.nodeType)

def isBaseCssPrefix : Expression → Bool
  | .member (.identifier "Ext") (.identifier "baseCSSPrefix") false => true
  | _ => false

mutual
def evaluate : Expression → Except EvalError Value
  | .literal raw value => .ok (value.evaluate raw)
  | .array elements => (evaluateAll elements).map .array
  | .object entries => (evaluateEntries [] entries).map .object
  | .binary operator left right =>
    if operator = "+" then do
      let l ← evaluate left
      let r ← evaluate right
      l.concat r
    else .error (.unsupportedOperator operator)
  | .member owner property computed =>
    if isBaseCssPrefix (.member owner property computed) then .ok (.string baseCssPrefix)
    else .error .unsupportedMemberAccess
  | e => .error (.unknownNode e.nodeType)

def evaluateAll : List Expression → Except EvalError (List Value)
  | [] => .ok []
  | e :: es => do
    let v ← evaluate e
    let vs ← evaluateAll es
    .ok (v :: vs)

def evaluateEntries (done : List (String × Value)) :
    List (Expression × Expression) → Except EvalError (List (String × Value))
  | [] => .ok done
  | (key, e) :: rest => do
    let k ← keyText key
    let v ← evaluate e
    evaluateEntries (Value.setEntry done k v) rest
end

end Expression
end ClassDocs
