import ClassDocs.Script.Parse.Statement

/-! Whole scripts, with the imports and exports of modules. -/
namespace ClassDocs.Script.Parse

def stringToken : Parse Unit := do
  match (← get).token with
  | .string _ => advance
  | _ => fail "expected a string"

def moduleName : Parse Unit := do
  match (← get).token with
  | .string _ => advance
  | _ =>
    let _ ← anyName

def moduleRest (g : Grammar) : Parse Tree := do
  stringToken
  if ← acceptWord "with" then
    expectMark "\x7b"
    let _ ← commaList "\x7d" do
      let _ ← propertyKey g
      expectMark ":"
      stringToken
  semicolon
  pure (plain [])

/-- Names in braces, the first of which is passed, each with another name or without. -/
def moduleNames : Parse Unit := do
  let _ ← commaList "\x7d" do
    moduleName
    if ← acceptWord "as" then moduleName

def importedParts : Parse Unit := do
  if ← acceptMark "*" then
    expectWord "as"
    let _ ← variableName
  else
    expectMark "\x7b"
    moduleNames

def importStatement (g : Grammar) : Parse Tree := do
  match (← get).token with
  | .string _ => moduleRest g
  | .name .. =>
    let _ ← variableName
    if ← acceptMark "," then importedParts
    expectWord "from"
    moduleRest g
  | _ =>
    importedParts
    expectWord "from"
    moduleRest g

def defaultExport (g : Grammar) : Parse Tree := do
  if ← functionAhead then functionDeclaration g true
  else if ← acceptWord "class" then classRest g
  else
    let value ← g .assignment
    semicolon
    pure value

def exportStatement (g : Grammar) : Parse Tree := do
  if ← acceptWord "default" then defaultExport g
  else if ← acceptMark "*" then
    if ← acceptWord "as" then moduleName
    expectWord "from"
    moduleRest g
  else if ← acceptMark "\x7b" then
    moduleNames
    if ← acceptWord "from" then moduleRest g
    else
      semicolon
      pure (plain [])
  else
    match ← declaration? g false with
    | some t => pure t
    | none => fail "expected a declaration"

def topStatement (g : Grammar) : Parse Tree := do
  let isExpression := (← ahead).any fun c => c.token == .punctuator "(" || c.token == .punctuator "."
  if (← isWord "import") && !isExpression then
    advance
    importStatement g
  else if ← acceptWord "export" then exportStatement g
  else g (.statement false)

def program (g : Grammar) : Parse (List Tree) := do
  let statements ← loop [] fun done => do
    if (← get).token == .finish then pure (.inr done.reverse) else pure (.inl ((← topStatement g) :: done))
  if !(← get).pending.isEmpty then fail "an object has an initial value without a name"
  pure statements

def grammar : Nat → Grammar
  | 0, _ => fail "the script nests too deep"
  | depth + 1, goal =>
    let inner := grammar depth
    match goal with
    | .assignment => assignment inner
    | .binary level => binary inner level
    | .unary => unary inner
    | .leftSide => leftSide inner
    | .callee => callee inner
    | .binding => binding inner
    | .statement alone => statement inner alone

end ClassDocs.Script.Parse

namespace ClassDocs.Script

/-- A script as read: its statements, and its doc comments in the order of the source, each with
the offset of the token behind it. -/
structure Program where
  statements : List Tree
  remarks : List (DocComment × Nat)

/-- Reads a script. Every nested form takes at least one character, so that no script nests deeper
than it is long. -/
def Program.read (source : String) : Except SyntaxError Program := do
  let chars := source.toList
  let limit := chars.length + 2
  let start ← Cursor.ofScript limit chars
  let context : Context := ⟨limit, true, false, false, false⟩
  let (statements, finish) ← (Parse.program (Parse.grammar (2 * limit))).run context start
  .ok ⟨statements, finish.remarks.settled.reverse⟩

end ClassDocs.Script
