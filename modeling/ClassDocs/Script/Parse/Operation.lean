import ClassDocs.Script.Parse.Primary

/-! Expressions of operators, assignments and arrow functions. -/
namespace ClassDocs.Script.Parse

def prefixMarks : List String := ["+", "-", "~", "!"]

def prefixWords : List String := ["delete", "void", "typeof"]

def isStep (t : Token) : Bool := t == .punctuator "++" || t == .punctuator "--"

def steppedBehind (g : Grammar) : Parse Tree := do
  let t ← leftSide g
  let c ← get
  if !c.fresh && isStep c.token then
    let target ← asSimpleTarget t
    advance
    pure (.group "UpdateExpression" [target])
  else pure t

def unary (g : Grammar) : Parse Tree := do
  let token := (← get).token
  match token with
  | .punctuator mark =>
    if prefixMarks.contains mark then
      advance
      pure (.unary mark (← g .unary))
    else if isStep token then
      advance
      pure (.group "UpdateExpression" [← asSimpleTarget (← g .unary)])
    else steppedBehind g
  | .name word false =>
    if prefixWords.contains word then
      advance
      pure (.unary word (← g .unary))
    else if word == "await" && (← read).awaits then
      advance
      pure (.group "AwaitExpression" [← g .unary])
    else steppedBehind g
  | _ => steppedBehind g

/-- How tightly the operators bind, the loosest first. -/
def operatorLevels : List (List String) :=
  [["??"], ["||"], ["&&"], ["|"], ["^"], ["&"], ["==", "!=", "===", "!=="],
    ["<", ">", "<=", ">=", "in", "instanceof"], ["<<", ">>", ">>>"], ["+", "-"], ["*", "/", "%"], ["**"]]

def level? (text : String) : Option Nat := operatorLevels.findIdx? (·.contains text)

def comparison : Nat := 7

def operator? (ctx : Context) : Token → Option (String × Nat)
  | .punctuator mark => (level? mark).map fun level => (mark, level)
  | .name "in" false => if ctx.inAllowed then some ("in", comparison) else none
  | .name "instanceof" false => some ("instanceof", comparison)
  | _ => none

def logicalOperators : List String := ["??", "||", "&&"]

/-- Whether an operand without parentheses makes `operator` ambiguous: `??` does not mix with the
other two. -/
def mixes (operator : String) : Tree → Bool
  | .logical inner .. => (operator == "??") != (inner == "??")
  | _ => false

def isBase : Tree → Bool
  | .unary .. => false
  | .group "AwaitExpression" _ => false
  | _ => true

/-- The test whether an object has a private name, which is the current token. -/
def privateTest (g : Grammar) (level : Nat) : Parse Tree := do
  advance
  if comparison < level || !(← read).inAllowed then fail "a private name is no value"
  expectWord "in"
  pure (.group "Expression" [← g (.binary (comparison + 1))])

def binary (g : Grammar) (level : Nat) : Parse Tree := do
  let first ← match (← get).token with
    | .privateName _ => privateTest g level
    | _ => unary g
  loop first fun left => do
    match operator? (← read) (← get).token with
    | some (operator, own) =>
      if own < level then pure (.inr left)
      else
        if operator == "**" && !isBase left then fail "a base needs parentheses"
        advance
        let right ← g (.binary (if operator == "**" then own else own + 1))
        if logicalOperators.contains operator then
          if mixes operator left || mixes operator right then fail "operators need parentheses"
          pure (.inl (.logical operator left right))
        else pure (.inl (.binary operator left right))
    | none => pure (.inr left)

def conditional (g : Grammar) : Parse Tree := do
  let test ← binary g 0
  if ← acceptMark "?" then
    let consequent ← allowingIn (g .assignment)
    expectMark ":"
    pure (.conditional test consequent (← g .assignment))
  else pure test

def assignmentOperators : List String :=
  ["=", "+=", "-=", "*=", "/=", "%=", "**=", "<<=", ">>=", ">>>=", "&=", "|=", "^=", "&&=", "||=", "??="]

def endsYield : Token → Bool
  | .punctuator mark => [")", "]", "\x7d", ",", ";", ":"].contains mark
  | .name word false => word == "in" || word == "of"
  | .finish => true
  | _ => false

def yieldRest (g : Grammar) : Parse Tree := do
  let c ← get
  if c.fresh || endsYield c.token then pure (.group "YieldExpression" [])
  else
    let _ ← acceptMark "*"
    pure (.group "YieldExpression" [← g .assignment])

def assigned (g : Grammar) : Parse Tree := do
  let start := (← get).start
  let left ← conditional g
  match (← get).token with
  | .punctuator mark =>
    if assignmentOperators.contains mark then
      let target ← if mark == "=" then asTarget left else asSimpleTarget left
      advance
      pure (.assign start mark target (← g .assignment))
    else pure left
  | _ => pure left

def assignment (g : Grammar) : Parse Tree := do
  if (← read).yields && (← isWord "yield") then
    advance
    yieldRest g
  else
    match ← arrowFunction? g with
    | some t => pure t
    | none => assigned g

end ClassDocs.Script.Parse
