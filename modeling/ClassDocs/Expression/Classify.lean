import ClassDocs.Expression.Evaluate

/-! The kind of result that an expression gives, as far as its form tells. Nothing is evaluated
and nothing fails. -/
namespace ClassDocs

inductive ResultClass where
  | undefined
  | thisReference
  | boolean
  | string
  | regexp
  | other
  deriving DecidableEq, Inhabited

/-- Operators whose result is a boolean, whatever they are applied to. -/
def booleanOperators : List String :=
  ["!", ">", ">=", "<", "<=", "==", "!=", "===", "!==", "in", "instanceof", "delete"]

namespace Expression

def isUndefined : Expression → Bool
  | .identifier name => name == "undefined"
  | .unary operator _ => operator == "void"
  | _ => false

def isBoolean : Expression → Bool
  | .literal _ (.boolean _) => true
  | .unary operator _ => booleanOperators.contains operator
  | .binary operator _ _ => booleanOperators.contains operator
  | .logical _ left right => isBoolean left && isBoolean right
  | .conditional _ consequent alternate => isBoolean consequent && isBoolean alternate
  | .assignment operator _ value => operator == "=" && isBoolean value
  | _ => false

def isString : Expression → Bool
  | .literal _ (.string _) => true
  | .binary operator left right => operator == "+" && (isString left || isString right)
  | .unary operator _ => operator == "typeof"
  | _ => false

def isRegexp : Expression → Bool
  | .literal raw _ => startsWithSlash raw
  | _ => false

def isThis : Expression → Bool
  | .this => true
  | _ => false

def classify (e : Expression) : ResultClass :=
  if e.isUndefined then .undefined
  else if e.isThis then .thisReference
  else if e.isBoolean then .boolean
  else if e.isString then .string
  else if e.isRegexp then .regexp
  else .other

theorem classifyThis : classify .this = .thisReference := rfl

end Expression
end ClassDocs
