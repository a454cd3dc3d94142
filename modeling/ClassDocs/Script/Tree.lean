import ClassDocs.Expression

/-! Syntax trees of scripts. Forms that documentation looks at have constructors of their own; the
others keep their name and their parts, so that code inside them is found. -/
namespace ClassDocs.Script

inductive Tree where
  | literal (raw : String) (value : Literal)
  | identifier (name : String)
  | this
  | paren (inner : Tree)
  | array (elements : List Tree)
  /-- A left out element of an array. -/
  | hole
  | spread (argument : Tree)
  | object (members : List Tree)
  | property (start : Nat) (key : Tree) (computed : Bool) (value : Tree)
  | function (start : Nat) (name : Option String) (params body : List Tree)
  | arrow (parts : List Tree)
  | call (start : Nat) (callee : Tree) (arguments : List Tree)
  | dot (object : Tree) (property : String)
  | index (object property : Tree)
  | unary (operator : String) (argument : Tree)
  | binary (operator : String) (left right : Tree)
  | logical (operator : String) (left right : Tree)
  | conditional (test consequent alternate : Tree)
  | assign (start : Nat) (operator : String) (target value : Tree)
  | declare (start : Nat) (declarators : List Tree)
  | declarator (target : Tree) (value : Option Tree)
  /-- A target that is not a plain name or access: a destructuring, a default, a rest. -/
  | pattern (parts : List Tree)
  | ret (argument : Option Tree)
  | effect (expression : Tree)
  /-- A constant that has no literal of its own, with the text it has as a key. -/
  | constant (nodeType text : String)
  | group (nodeType : String) (parts : List Tree)
  deriving Inhabited

namespace Tree

mutual
/-- The expression that a tree stands for. Parentheses leave no trace. -/
def lower : Tree → Expression
  | .literal raw value => .literal raw value
  | .identifier name => .identifier name
  | .this => .this
  | .paren inner => lower inner
  | .array elements => .array (lowerAll elements)
  | .hole => .other "Elision"
  | .spread _ => .other "SpreadElement"
  | .object members => .object (lowerMembers members)
  | .function .. => .other "FunctionExpression"
  | .arrow _ => .other "ArrowFunctionExpression"
  | .call .. => .other "CallExpression"
  | .dot target name => (lower target).dot name
  | .index target key => .member (lower target) (lower key) true
  | .unary operator argument => .unary operator (lower argument)
  | .binary operator left right => .binary operator (lower left) (lower right)
  | .logical operator left right => .logical operator (lower left) (lower right)
  | .conditional test consequent alternate => .conditional (lower test) (lower consequent) (lower alternate)
  | .assign _ operator target value => .assignment operator (lower target) (lower value)
  | .pattern _ => .other "AssignmentTargetPattern"
  | .constant nodeType _ => .other nodeType
  | .group nodeType _ => .other nodeType
  | _ => .other "Expression"

def lowerAll : List Tree → List Expression
  | [] => []
  | t :: ts => lower t :: lowerAll ts

/-- Members as entries. A spread is an entry whose key only says so. -/
def lowerMembers : List Tree → List (Expression × Expression)
  | [] => []
  | .property _ key _ value :: ts => (lower key, lower value) :: lowerMembers ts
  | .spread argument :: ts => (.other "SpreadElement", lower argument) :: lowerMembers ts
  | _ :: ts => lowerMembers ts
end

theorem lowerParen (t : Tree) : (Tree.paren t).lower = t.lower := by simp [lower]

def path? : Tree → Option String
  | .identifier name => some name
  | .this => some "this"
  | .dot target name => (path? target).map fun path => path ++ "." ++ name
  | .paren inner => path? inner
  | _ => none

def usualFlags (flags : List Char) : List Char := "gimsuydv".toList.filter flags.contains

def regexKey (source : String) : String :=
  let backward := source.toList.reverse
  let flags := backward.takeWhile (· != '/')
  String.ofList ((backward.drop flags.length).reverse ++ usualFlags flags)

def keyName? (computed : Bool) : Tree → Option String
  | .identifier name => if computed then none else some name
  | .literal _ value =>
    match value with
    | .string s => some s
    | .number x => some (Number.display x)
    | .null => some "null"
    | .regex source => some (regexKey source)
    | .boolean _ => none
  | .constant _ text => some text
  | _ => none

/-- The value of a string literal. Parentheses around it hide it. -/
def string? : Tree → Option String
  | .literal _ (.string s) => some s
  | _ => none

end Tree
end ClassDocs.Script
