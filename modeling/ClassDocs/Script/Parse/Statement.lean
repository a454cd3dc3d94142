import ClassDocs.Script.Parse.Operation

/-! Statements. -/
namespace ClassDocs.Script.Parse

def plain (parts : List Tree) : Tree := .group "Statement" parts

def parenthesized (g : Grammar) : Parse Tree := do
  expectMark "("
  let test ← expression g
  expectMark ")"
  pure test

def body (g : Grammar) : Parse Tree := g (.statement true)

def declarators (g : Grammar) : Parse (List Tree) := do
  let declarator : Parse Tree := do
    let target ← g .binding
    let value ← if ← acceptMark "=" then some <$> g .assignment else pure none
    pure (.declarator target value)
  let first ← declarator
  loop [first] fun done => do
    if ← acceptMark "," then pure (.inl ((← declarator) :: done)) else pure (.inr done.reverse)

/-- Whether a declared target needs a value where no loop provides one. -/
def lacksValue (isConstant : Bool) : Tree → Bool
  | .declarator (.identifier _) none => isConstant
  | .declarator _ none => true
  | _ => false

/-- Whether a declaration of variables follows. `let` may also be a name. -/
def declarationAhead : Parse Bool := do
  if (← isWord "var") || (← isWord "const") then pure true
  else if ← isWord "let" then
    match ← ahead with
    | some c =>
      pure (((← read).nameOf? c.token).isSome || c.token == .punctuator "[" ||
        c.token == .punctuator "\x7b")
    | none => pure false
  else pure false

def declaration (g : Grammar) : Parse Tree := do
  let start := (← get).start
  let isConstant ← isWord "const"
  advance
  let ds ← declarators g
  if ds.any (lacksValue isConstant) then fail "a declaration lacks its value"
  semicolon
  pure (.declare start ds)

def countingRest (g : Grammar) (first : List Tree) : Parse Tree := do
  let test ← if ← isMark ";" then pure [] else pure [← expression g]
  expectMark ";"
  let step ← if ← isMark ")" then pure [] else pure [← expression g]
  expectMark ")"
  pure (plain (first ++ test ++ step ++ [← body g]))

def eachRest (g : Grammar) (isAwait : Bool) (target : Tree) : Parse Tree := do
  let range ←
    if ← acceptWord "of" then g .assignment
    else if isAwait then fail "expected of"
    else
      expectWord "in"
      expression g
  expectMark ")"
  pure (plain [target, range, ← body g])

def eachAhead : Parse Bool := do pure ((← isWord "of") || (← isWord "in"))

def forRest (g : Grammar) : Parse Tree := do
  let isAwait ← if (← read).awaits then acceptWord "await" else pure false
  expectMark "("
  if (← isMark ";") && !isAwait then
    advance
    countingRest g []
  else if ← declarationAhead then
    let start := (← get).start
    let isConstant ← isWord "const"
    advance
    let ds ← withoutIn (declarators g)
    if ← eachAhead then eachRest g isAwait (.declare start ds)
    else
      if isAwait || ds.any (lacksValue isConstant) then fail "a declaration lacks its value"
      expectMark ";"
      countingRest g [.declare start ds]
  else
    let isAsync ← isWord "async"
    let first ← withoutIn (expression g)
    if ← eachAhead then
      let target ← asTarget first
      match target with
      | .identifier "async" => if isAsync && !isAwait && (← isWord "of") then fail "async is no loop variable"
      | _ => pure ()
      eachRest g isAwait target
    else
      if isAwait then fail "expected of"
      expectMark ";"
      countingRest g [first]

def caseBody (g : Grammar) : Parse (List Tree) :=
  loop [] fun done => do
    if (← isWord "case") || (← isWord "default") || (← isMark "\x7d") then pure (.inr done.reverse)
    else pure (.inl ((← g (.statement false)) :: done))

def switchRest (g : Grammar) : Parse Tree := do
  let subject ← parenthesized g
  expectMark "\x7b"
  let cases ← itemsUntil "\x7d" do
    let test ← if ← acceptWord "case" then pure [← expression g]
      else
        expectWord "default"
        pure []
    expectMark ":"
    pure (plain (test ++ (← caseBody g)))
  pure (plain (subject :: cases))

def tryRest (g : Grammar) : Parse Tree := do
  let guarded ← block g
  let handler ←
    if ← acceptWord "catch" then
      let error ← if ← acceptMark "(" then
          let target ← g .binding
          expectMark ")"
          pure [target]
        else pure []
      pure (some (error ++ (← block g)))
    else pure none
  let finalizer ← if ← acceptWord "finally" then some <$> block g else pure none
  if handler.isNone && finalizer.isNone then fail "expected catch or finally"
  pure (plain (guarded ++ handler.getD [] ++ finalizer.getD []))

def ifRest (g : Grammar) : Parse Tree := do
  let test ← parenthesized g
  let yes ← body g
  let no ← if ← acceptWord "else" then pure [← body g] else pure []
  pure (plain (test :: yes :: no))

def doRest (g : Grammar) : Parse Tree := do
  let inner ← body g
  expectWord "while"
  let test ← parenthesized g
  let _ ← acceptMark ";"
  pure (plain [inner, test])

def endsHere : Parse Bool := do
  let c ← get
  pure (c.fresh || [.punctuator ";", .punctuator "\x7d", .finish].contains c.token)

def returnRest (g : Grammar) : Parse Tree := do
  if !(← read).returnAllowed then fail "a return stands outside of functions"
  let value ← if ← endsHere then pure none else some <$> expression g
  semicolon
  pure (.ret value)

def throwRest (g : Grammar) : Parse Tree := do
  if (← get).fresh then fail "expected an expression"
  let value ← expression g
  semicolon
  pure (plain [value])

def jumpRest : Parse Tree := do
  if !(← endsHere) then
    let _ ← variableName
  semicolon
  pure (plain [])

def expressionStatement (g : Grammar) : Parse Tree := do
  let e ← expression g
  semicolon
  pure (.effect e)

def namedStatement (g : Grammar) : Parse Tree := do
  if ((← read).nameOf? (← get).token).isSome && (← ahead).any (·.token == .punctuator ":") then
    advance
    advance
    pure (plain [← body g])
  else expressionStatement g

def keywordStatement? (g : Grammar) (word : String) : Option (Parse Tree) :=
  match word with
  | "if" => some (ifRest g)
  | "for" => some (forRest g)
  | "while" | "with" => some do pure (plain [← parenthesized g, ← body g])
  | "do" => some (doRest g)
  | "return" => some (returnRest g)
  | "break" | "continue" => some jumpRest
  | "throw" => some (throwRest g)
  | "try" => some (tryRest g)
  | "switch" => some (switchRest g)
  | "debugger" => some do
    semicolon
    pure (plain [])
  | _ => none

/-- A declaration, if one is here. Where a statement stands alone for a block, plain functions and
`var` are the only ones. -/
def declaration? (g : Grammar) (alone : Bool) : Parse (Option Tree) := do
  if ← functionAhead then
    let isAsync ← isWord "async"
    let generates := (← ahead).any (·.token == .punctuator "*")
    if alone && (isAsync || generates) then fail "a declaration needs a block"
    some <$> functionDeclaration g false
  else if ← isWord "class" then
    if alone then fail "a declaration needs a block"
    advance
    if ((← read).nameOf? (← get).token).isNone then fail "expected a name"
    some <$> classRest g
  else if ← declarationAhead then
    if alone && !(← isWord "var") then fail "a declaration needs a block"
    some <$> declaration g
  else pure none

def statement (g : Grammar) (alone : Bool) : Parse Tree := do
  match ← declaration? g alone with
  | some t => pure t
  | none =>
    match (← get).token with
    | .punctuator ";" =>
      advance
      pure (plain [])
    | .punctuator "\x7b" => pure (plain (← block g))
    | .name word false =>
      match keywordStatement? g word with
      | some rest =>
        advance
        rest
      | none => namedStatement g
    | _ => expressionStatement g

end ClassDocs.Script.Parse
