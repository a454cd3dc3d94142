import ClassDocs.Script.Parse

/-! What can be assigned to and what can be declared. An assignment is read as an expression
first, which is then taken as a target; a declaration has a form of its own. -/
namespace ClassDocs.Script

namespace Tree

/-- A name or an access to a property, in parentheses or not. -/
def simpleTarget? : Tree → Option Tree
  | .identifier name => some (.identifier name)
  | .dot target name => some (.dot target name)
  | .index target key => some (.index target key)
  | .group "PrivateFieldExpression" parts => some (.pattern parts)
  | .paren inner => simpleTarget? inner
  | _ => none

mutual
/-- An expression as the target of an assignment, with the shorthand properties that thereby
turn out to have a default. -/
def target? : Tree → Option (Tree × List Nat)
  | .array elements => (elementTargets? elements).map fun (parts, shorthands) => (.pattern parts, shorthands)
  | .object members => (memberTargets? members).map fun (parts, shorthands) => (.pattern parts, shorthands)
  | t => (simpleTarget? t).map fun t => (t, [])

def elementTarget? : Tree → Option (Tree × List Nat)
  | .assign _ operator target value => if operator == "=" then some (.pattern [target, value], []) else none
  | .array elements => (elementTargets? elements).map fun (parts, shorthands) => (.pattern parts, shorthands)
  | .object members => (memberTargets? members).map fun (parts, shorthands) => (.pattern parts, shorthands)
  | t => (simpleTarget? t).map fun t => (t, [])

/-- The elements of an array as targets. A rest comes last. -/
def elementTargets? : List Tree → Option (List Tree × List Nat)
  | [] => some ([], [])
  | .hole :: ts => elementTargets? ts
  | .spread argument :: ts => do
    let (t, shorthands) ← target? argument
    if ts.isEmpty then some ([t], shorthands) else none
  | t :: ts => do
    let (t, shorthands) ← elementTarget? t
    let (ts, more) ← elementTargets? ts
    some (t :: ts, shorthands ++ more)

/-- The members of an object as targets. A rest is a simple target and comes last. -/
def memberTargets? : List Tree → Option (List Tree × List Nat)
  | [] => some ([], [])
  | .spread argument :: ts => do
    let t ← simpleTarget? argument
    if ts.isEmpty then some ([t], []) else none
  | .property start key computed value :: ts => do
    let (t, shorthands) ← match value with
      | .pattern parts => some (.pattern parts, [start])
      | value => elementTarget? value
    let (ts, more) ← memberTargets? ts
    some (if computed then key :: t :: ts else t :: ts, shorthands ++ more)
  | _ :: _ => none
end

end Tree

namespace Parse

def asTarget (t : Tree) : Parse Tree := do
  match t.target? with
  | some (target, shorthands) =>
    modify fun c => { c with pending := c.pending.filter (!shorthands.contains ·) }
    pure target
  | none => fail "this cannot be assigned to"

def asSimpleTarget (t : Tree) : Parse Tree := do
  match t.simpleTarget? with
  | some target => pure target
  | none => fail "this cannot be assigned to"

def propertyKey (g : Grammar) : Parse (Tree × Bool) := do
  let c ← get
  let raw := String.ofList c.raw
  match c.token with
  | .name text _ =>
    advance
    pure (.identifier text, false)
  | .string value =>
    advance
    pure (.literal raw (.string value), false)
  | .number value =>
    advance
    pure (.literal raw (.number value), false)
  | .bigint digits =>
    advance
    pure (.constant "BigIntLiteral" digits, false)
  | _ =>
    expectMark "["
    let key ← allowingIn (g .assignment)
    expectMark "]"
    pure (key, true)

def bindingElement (g : Grammar) : Parse Tree := do
  let target ← g .binding
  if ← acceptMark "=" then pure (.pattern [target, ← allowingIn (g .assignment)]) else pure target

def arrayBinding (g : Grammar) : Parse Tree :=
  loop [] fun done => do
    if ← acceptMark "]" then pure (.inr (.pattern done.reverse))
    else if ← acceptMark "," then pure (.inl done)
    else if ← acceptMark "..." then
      let rest ← g .binding
      expectMark "]"
      pure (.inr (.pattern (.spread rest :: done).reverse))
    else
      let element ← bindingElement g
      if !(← isMark "]") then expectMark ","
      pure (.inl (element :: done))

/-- What a property of a pattern is bound to, behind its key. -/
def propertyBinding (g : Grammar) (key : Tree) (computed mayBeShort : Bool) : Parse (List Tree) := do
  if ← acceptMark ":" then
    let element ← bindingElement g
    pure (if computed then [element, key] else [element])
  else if !mayBeShort then fail "expected :"
  else if ← acceptMark "=" then pure [.pattern [key, ← allowingIn (g .assignment)]]
  else pure [key]

def objectBinding (g : Grammar) : Parse Tree :=
  loop [] fun done => do
    if ← acceptMark "\x7d" then pure (.inr (.pattern done.reverse))
    else if ← acceptMark "..." then
      let rest ← variableName
      expectMark "\x7d"
      pure (.inr (.pattern (.spread (.identifier rest) :: done).reverse))
    else
      let shorthand := (← read).nameOf? (← get).token
      let (key, computed) ← propertyKey g
      let parts ← propertyBinding g key computed shorthand.isSome
      if !(← isMark "\x7d") then expectMark ","
      pure (.inl (parts ++ done))

def binding (g : Grammar) : Parse Tree := do
  if ← acceptMark "[" then arrayBinding g
  else if ← acceptMark "\x7b" then objectBinding g
  else pure (.identifier (← variableName))

end Parse
end ClassDocs.Script
