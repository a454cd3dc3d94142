import ClassDocs.Text.Blank
import ClassDocs.Number.Text

/-! Expression trees as far as documentation needs them: literals with their source text, the
forms that can be evaluated or classified, and a name for everything else. -/
namespace ClassDocs

inductive Literal where
  | string (value : String)
  | number (value : Float)
  | boolean (value : Bool)
  | null
  | regex (source : String)
  deriving DecidableEq, Inhabited

inductive Expression where
  | literal (raw : String) (value : Literal)
  | array (elements : List Expression)
  | object (entries : List (Expression × Expression))
  | binary (operator : String) (left right : Expression)
  | member (object property : Expression) (computed : Bool)
  | identifier (name : String)
  | this
  | unary (operator : String) (argument : Expression)
  | logical (operator : String) (left right : Expression)
  | conditional (test consequent alternate : Expression)
  | assignment (operator : String) (target value : Expression)
  | other (nodeType : String)
  deriving Inhabited

/-- A string in single quotes. Only the quote itself is escaped. -/
def quoted (s : String) : String :=
  "'" ++ String.ofList (Text.replaceChar '\'' ['\\', '\''] s.toList) ++ "'"

def booleanText (b : Bool) : String := if b then "true" else "false"

namespace Expression

def ofString (s : String) : Expression := .literal (quoted s) (.string s)

def ofNumber (x : Float) : Expression := .literal (Number.text x) (.number x)

def ofBoolean (b : Bool) : Expression := .literal (booleanText b) (.boolean b)

def ofNull : Expression := .literal "null" .null

def ofRegex (source : String) : Expression := .literal source (.regex source)

def dot (object : Expression) (property : String) : Expression :=
  .member object (.identifier property) false

def nodeType : Expression → String
  | .literal .. => "Literal"
  | .array _ => "ArrayExpression"
  | .object _ => "ObjectExpression"
  | .binary .. => "BinaryExpression"
  | .member .. => "MemberExpression"
  | .identifier _ => "Identifier"
  | .this => "ThisExpression"
  | .unary .. => "UnaryExpression"
  | .logical .. => "LogicalExpression"
  | .conditional .. => "ConditionalExpression"
  | .assignment .. => "AssignmentExpression"
  | .other name => name

end Expression
end ClassDocs
