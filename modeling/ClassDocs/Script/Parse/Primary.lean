import ClassDocs.Script.Parse.Function

/-! Expressions that stand by themselves, and the accesses and calls behind them. -/
namespace ClassDocs.Script.Parse

def expression (g : Grammar) : Parse Tree := do
  let first ← g .assignment
  if ← isMark "," then
    let others ← loop [] fun done => do
      if ← acceptMark "," then pure (.inl ((← g .assignment) :: done)) else pure (.inr done.reverse)
    pure (.group "SequenceExpression" (first :: others))
  else pure first

/-- The rest of a template behind a substitution, whose closing brace is the current token. -/
def templateRest? (limit : Nat) : List Char → Option Lexeme
  | '\x7d' :: s => templateBody? limit (some []) ['\x7d'] s
  | _ => none

/-- A template: its substitutions, and its text if it has none. Malformed escapes are for tagged
templates only. -/
def template (g : Grammar) (tagged : Bool) : Parse (List Tree × Option String) :=
  loop [] fun done => do
    match (← get).token with
    | .template text last =>
      if text.isNone && !tagged then fail "an escape is malformed"
      advance
      if last then pure (.inr (done.reverse, if done.isEmpty then text else none))
      else
        let inside ← allowingIn (expression g)
        reread (templateRest? (← read).limit) "a template does not end"
        pure (.inl (inside :: done))
    | _ => fail "expected a template"

def untaggedTemplate (g : Grammar) : Parse Tree := do
  match ← template g false with
  | (_, some text) => pure (.constant "TemplateLiteral" text)
  | (parts, none) => pure (.group "TemplateLiteral" parts)

def spreadOr (g : Grammar) : Parse Tree := do
  if ← acceptMark "..." then pure (.spread (← g .assignment)) else g .assignment

def arguments (g : Grammar) : Parse (List Tree) := allowingIn (commaList ")" (spreadOr g))

def arrayRest (g : Grammar) : Parse Tree :=
  allowingIn <| loop [] fun done => do
    if ← acceptMark "]" then pure (.inr (.array done.reverse))
    else if ← acceptMark "," then pure (.inl (.hole :: done))
    else
      let element ← spreadOr g
      if !(← isMark "]") then expectMark ","
      pure (.inl (element :: done))

/-- A member of an object. A shorthand with an initial value is kept in mind, since it is only
right when the object turns out to be a pattern. -/
def objectMember (g : Grammar) : Parse Tree := do
  let start := (← get).start
  if ← acceptMark "..." then pure (.spread (← g .assignment))
  else
    let marks ← methodMarks
    let shorthand := (← read).nameOf? (← get).token
    let (key, computed) ← propertyKey g
    if !marks.isPlain || (← isMark "(") then pure (.property start key computed (← method g marks))
    else if ← acceptMark ":" then pure (.property start key computed (← g .assignment))
    else if shorthand.isNone then fail "expected :"
    else if ← acceptMark "=" then
      let value ← g .assignment
      modify fun c => { c with pending := start :: c.pending }
      pure (.property start key computed (.pattern [key, value]))
    else pure (.property start key computed key)

def objectRest (g : Grammar) : Parse Tree :=
  allowingIn do pure (.object (← commaList "\x7d" (objectMember g)))

def regexRest? : List Char → Option Lexeme
  | '/' :: s => regex? s
  | _ => none

def regexLiteral : Parse Tree := do
  reread regexRest? "a regular expression is malformed"
  let c ← get
  advance
  match c.token with
  | .regex source => pure (.literal source (.regex source))
  | _ => fail "expected a regular expression"

def newRest (g : Grammar) : Parse Tree := do
  if ← acceptMark "." then
    expectWord "target"
    pure (.group "Expression" [])
  else
    let callee ← g .callee
    if ← isMark "?." then fail "an optional access cannot be constructed"
    let args ← if ← acceptMark "(" then arguments g else pure []
    pure (.group "NewExpression" (callee :: args))

def superRest : Parse Tree := do
  if (← isMark "(") || (← isMark ".") || (← isMark "[") then pure (.group "Super" [])
  else fail "expected a call or an access"

def importRest (g : Grammar) : Parse Tree := do
  if ← acceptMark "." then
    expectWord "meta"
    pure (.group "Expression" [])
  else
    expectMark "("
    let parts ← allowingIn (commaList ")" (g .assignment))
    if parts.isEmpty then fail "expected a module"
    pure (.group "Expression" parts)

def namedPrimary (g : Grammar) (text : String) (escaped : Bool) : Parse Tree := do
  if escaped then pure (.identifier (← variableName))
  else
    match text with
    | "this" =>
      advance
      pure .this
    | "null" =>
      advance
      pure (.literal text .null)
    | "true" =>
      advance
      pure (.literal text (.boolean true))
    | "false" =>
      advance
      pure (.literal text (.boolean false))
    | "class" =>
      advance
      classRest g
    | "new" =>
      advance
      newRest g
    | "super" =>
      advance
      superRest
    | "import" =>
      advance
      importRest g
    | _ => if ← functionAhead then functionExpression g else pure (.identifier (← variableName))

def primary (g : Grammar) : Parse Tree := do
  let c ← get
  let raw := String.ofList c.raw
  match c.token with
  | .number value =>
    advance
    pure (.literal raw (.number value))
  | .string value =>
    advance
    pure (.literal raw (.string value))
  | .bigint digits =>
    advance
    pure (.constant "BigIntLiteral" digits)
  | .template .. => untaggedTemplate g
  | .name text escaped => namedPrimary g text escaped
  | .punctuator mark =>
    match mark with
    | "(" =>
      advance
      let inner ← allowingIn (expression g)
      expectMark ")"
      pure (.paren inner)
    | "[" =>
      advance
      arrayRest g
    | "\x7b" =>
      advance
      objectRest g
    | "/" | "/=" => regexLiteral
    | _ => fail "expected an expression"
  | _ => fail "expected an expression"

def accessBehindPoint (target : Tree) : Parse Tree := do
  match (← get).token with
  | .privateName _ =>
    advance
    pure (.group "PrivateFieldExpression" [target])
  | _ => pure (.dot target (← anyName))

def accessByKey (g : Grammar) (target : Tree) : Parse Tree := do
  let key ← allowingIn (expression g)
  expectMark "]"
  pure (.index target key)

def isTemplate : Token → Bool
  | .template .. => true
  | _ => false

def access? (g : Grammar) (target : Tree) : Parse (Option Tree) := do
  if ← acceptMark "." then some <$> accessBehindPoint target
  else if ← acceptMark "[" then some <$> accessByKey g target
  else if isTemplate (← get).token then
    pure (some (.group "TaggedTemplateExpression" (target :: (← template g true).1)))
  else pure none

def optionalAccess (g : Grammar) (start : Nat) (target : Tree) : Parse Tree := do
  if ← acceptMark "(" then pure (.call start target (← arguments g))
  else if ← acceptMark "[" then accessByKey g target
  else accessBehindPoint target

def callee (g : Grammar) : Parse Tree := do
  loop (← primary g) fun t => do
    match ← access? g t with
    | some t => pure (.inl t)
    | none => pure (.inr t)

/-- Accesses and calls. When one of them is optional, all of them together are a chain, and none
is a tagged template. -/
def leftSide (g : Grammar) : Parse Tree := do
  let start := (← get).start
  loop (← primary g, false) fun (t, chained) => do
    if ← acceptMark "?." then pure (.inl (← optionalAccess g start t, true))
    else if ← acceptMark "(" then pure (.inl (.call start t (← arguments g), chained))
    else if chained && isTemplate (← get).token then fail "an optional access has no template"
    else
      match ← access? g t with
      | some t => pure (.inl (t, chained))
      | none => pure (.inr (if chained then .group "ChainExpression" [t] else t))

end ClassDocs.Script.Parse
