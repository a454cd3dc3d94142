import ClassDocs.Script.Parse.Target

/-! Functions, methods and classes. -/
namespace ClassDocs.Script.Parse

structure Manner where
  isAsync : Bool
  generates : Bool

def Manner.context (m : Manner) (ctx : Context) : Context :=
  { ctx with inAllowed := true, yields := m.generates, awaits := m.isAsync, returnAllowed := true }

/-- Parameters up to the closing parenthesis, which is passed. A rest comes last. -/
def parameters (g : Grammar) : Parse (List Tree) :=
  loop [] fun done => do
    if ← acceptMark ")" then pure (.inr done.reverse)
    else if ← acceptMark "..." then
      let rest ← g .binding
      expectMark ")"
      pure (.inr (.spread rest :: done).reverse)
    else
      let parameter ← bindingElement g
      if !(← isMark ")") then expectMark ","
      pure (.inl (parameter :: done))

def block (g : Grammar) : Parse (List Tree) := do
  expectMark "\x7b"
  itemsUntil "\x7d" (g (.statement false))

def functionRest (g : Grammar) (start : Nat) (name : Option String) (m : Manner) : Parse Tree :=
  withReader m.context do
    expectMark "("
    let params ← parameters g
    pure (.function start name params (← block g))

def functionWord (isAsync : Bool) : Parse Manner := do
  expectWord "function"
  pure ⟨isAsync, ← acceptMark "*"⟩

/-- Whether a function follows: `function`, or `async` with it on the same line. -/
def functionAhead : Parse Bool := do
  if ← isWord "function" then pure true
  else if ← isWord "async" then
    match ← ahead with
    | some c => pure (!c.fresh && c.token == .name "function" false)
    | none => pure false
  else pure false

/-- A function as an expression; its name is known inside it only. -/
def functionExpression (g : Grammar) : Parse Tree := do
  let start := (← get).start
  let m ← functionWord (← acceptWord "async")
  let name ← if ← isMark "(" then pure none else some <$> withReader m.context variableName
  functionRest g start name m

def functionDeclaration (g : Grammar) (nameless : Bool) : Parse Tree := do
  let start := (← get).start
  let m ← functionWord (← acceptWord "async")
  let name ← if nameless && (← isMark "(") then pure none else some <$> variableName
  functionRest g start name m

def startsKey : Token → Bool
  | .name .. | .privateName _ | .string _ | .number _ | .bigint _ => true
  | .punctuator mark => mark == "["
  | _ => false

inductive Accessor where
  | get
  | set
  deriving DecidableEq

structure MethodMarks where
  manner : Manner
  accessor : Option Accessor

def MethodMarks.isPlain (m : MethodMarks) : Bool :=
  !m.manner.isAsync && !m.manner.generates && m.accessor.isNone

/-- Passes `word` when a key that it marks follows. -/
def acceptModifier (word : String) (fits : Cursor → Bool) : Parse Bool := do
  if ← isWord word then
    match ← ahead with
    | some c =>
      if fits c then
        set c
        pure true
      else pure false
    | none => pure false
  else pure false

def methodMarks : Parse MethodMarks := do
  let isAsync ← acceptModifier "async" fun c => !c.fresh && (startsKey c.token || c.token == .punctuator "*")
  let generates ← acceptMark "*"
  if isAsync || generates then pure ⟨⟨isAsync, generates⟩, none⟩
  else if ← acceptModifier "get" (startsKey ·.token) then pure ⟨⟨false, false⟩, some .get⟩
  else if ← acceptModifier "set" (startsKey ·.token) then pure ⟨⟨false, false⟩, some .set⟩
  else pure ⟨⟨false, false⟩, none⟩

def accessorFits : Option Accessor → List Tree → Bool
  | none, _ => true
  | some .get, params => params.isEmpty
  | some .set, [.spread _] => false
  | some .set, params => params.length == 1

def method (g : Grammar) (m : MethodMarks) : Parse Tree := do
  let start := (← get).start
  let function ← functionRest g start none m.manner
  match function with
  | .function _ _ params _ =>
    if accessorFits m.accessor params then pure function else fail "an accessor has other parameters"
  | _ => pure function

def classKey (g : Grammar) : Parse (List Tree) := do
  match (← get).token with
  | .privateName _ =>
    advance
    pure []
  | _ =>
    let (key, computed) ← propertyKey g
    pure (if computed then [key] else [])

def classMember (g : Grammar) : Parse Tree := do
  let isStatic ← acceptModifier "static" fun c =>
    startsKey c.token || c.token == .punctuator "*" || c.token == .punctuator "\x7b"
  if isStatic && (← isMark "\x7b") then
    withReader (fun ctx => { (Manner.mk false false).context ctx with returnAllowed := false }) do
      pure (.group "Statement" (← block g))
  else
    let marks ← methodMarks
    let key ← classKey g
    if !marks.isPlain || (← isMark "(") then pure (.group "Member" (key ++ [← method g marks]))
    else
      let value ← if ← acceptMark "=" then
          withReader (Manner.mk false false).context do pure [← g .assignment]
        else pure []
      semicolon
      pure (.group "Member" (key ++ value))

def classRest (g : Grammar) : Parse Tree := do
  let hasName := ((← read).nameOf? (← get).token).isSome
  if hasName then advance
  let heritage ← if ← acceptWord "extends" then pure [← g .leftSide] else pure []
  expectMark "\x7b"
  let members ← loop [] fun done => do
    if ← acceptMark "\x7d" then pure (.inr done.reverse)
    else if ← acceptMark ";" then pure (.inl done)
    else pure (.inl ((← classMember g) :: done))
  pure (.group "ClassExpression" (heritage ++ members))

/-- The parameters of an arrow function up to and with the arrow, and whether it is
asynchronous. -/
def arrowHead (g : Grammar) : Parse (Bool × List Tree) := do
  let isAsync ← acceptModifier "async" fun c =>
    !c.fresh && (c.token == .punctuator "(" || match c.token with | .name .. => true | _ => false)
  withReader (fun ctx => { ctx with awaits := ctx.awaits || isAsync }) do
    let params ← if ← acceptMark "(" then allowingIn (parameters g) else pure [.identifier (← variableName)]
    if (← get).fresh then fail "the arrow stands on a new line"
    expectMark "=>"
    pure (isAsync, params)

def arrowBody (g : Grammar) (isAsync : Bool) : Parse (List Tree) := do
  if ← isMark "\x7b" then withReader (Manner.mk isAsync false).context (block g)
  else withReader (fun ctx => { ctx with yields := false, awaits := isAsync }) do pure [← g .assignment]

def arrowFunction? (g : Grammar) : Parse (Option Tree) := do
  match ← attempt (arrowHead g) with
  | some (isAsync, params) => pure (some (.arrow (params ++ (← arrowBody g isAsync))))
  | none => pure none

end ClassDocs.Script.Parse
