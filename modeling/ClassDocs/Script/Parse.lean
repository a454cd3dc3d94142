import ClassDocs.Script.Cursor
import ClassDocs.Script.Tree

/-! The state and the small steps of the reader of scripts. The grammar is recursive through
`Grammar` alone: a reader of one form gets the readers of the forms inside it as an argument, and
they are tied together at the end with a bound on the nesting. -/
namespace ClassDocs.Script

structure Context where
  /-- No loop over tokens and characters takes more rounds. -/
  limit : Nat
  /-- Whether `in` is an operator. It is none in the head of a loop. -/
  inAllowed : Bool
  yields : Bool
  awaits : Bool
  returnAllowed : Bool

def Context.nameOf? (ctx : Context) : Token → Option String
  | .name text _ =>
    if reservedWords.contains text || (ctx.yields && text == "yield") || (ctx.awaits && text == "await")
    then none else some text
  | _ => none

abbrev Parse := ReaderT Context (StateT Cursor (Except SyntaxError))

/-- The forms that occur inside others. -/
inductive Goal where
  | assignment
  /-- An expression of operators that bind at least as tightly as the level. -/
  | binary (level : Nat)
  | unary
  | leftSide
  /-- What stands behind `new`: no call is part of it. -/
  | callee
  | binding
  /-- A statement; one that stands alone for a block must not declare. -/
  | statement (alone : Bool)

abbrev Grammar := Goal → Parse Tree

namespace Parse

def fail {α : Type} (message : String) : Parse α := do throw ⟨(← get).start, message⟩

def advance : Parse Unit := do
  match (← get).next (← read).limit with
  | .ok c => set c
  | .error e => throw e

def ahead : Parse (Option Cursor) := do
  match (← get).next (← read).limit with
  | .ok c => pure (some c)
  | .error _ => pure none

/-- Reads by `p`, or gives nothing and stays where it was. -/
def attempt {α : Type} (p : Parse α) : Parse (Option α) := fun ctx c =>
  match p ctx c with
  | .ok (a, c) => .ok (some a, c)
  | .error _ => .ok (none, c)

def iterate {σ α : Type} (step : σ → Parse (σ ⊕ α)) : Nat → σ → Parse α
  | 0, _ => fail "the script does not end"
  | fuel + 1, s => do
    match ← step s with
    | .inl s => iterate step fuel s
    | .inr a => pure a

def loop {σ α : Type} (s : σ) (step : σ → Parse (σ ⊕ α)) : Parse α := do
  iterate step ((← read).limit + 2) s

def isMark (mark : String) : Parse Bool := do pure ((← get).token == .punctuator mark)

def isWord (word : String) : Parse Bool := do pure ((← get).token == .name word false)

def accept (t : Token) : Parse Bool := do
  if (← get).token == t then
    advance
    pure true
  else pure false

def acceptMark (mark : String) : Parse Bool := accept (.punctuator mark)

def acceptWord (word : String) : Parse Bool := accept (.name word false)

def expectMark (mark : String) : Parse Unit := do
  if !(← acceptMark mark) then fail ("expected " ++ mark)

def expectWord (word : String) : Parse Unit := do
  if !(← acceptWord word) then fail ("expected " ++ word)

/-- The end of a statement: a semicolon, or a place where one may be left out. -/
def semicolon : Parse Unit := do
  if !(← acceptMark ";") then
    let c ← get
    if !(c.fresh || c.token == .finish || c.token == .punctuator "\x7d") then fail "expected ;"

def variableName : Parse String := do
  match (← read).nameOf? (← get).token with
  | some name =>
    advance
    pure name
  | none => fail "expected a name"

def anyName : Parse String := do
  match (← get).token with
  | .name text _ =>
    advance
    pure text
  | _ => fail "expected a name"

def allowingIn {α : Type} (p : Parse α) : Parse α := withReader (fun ctx => { ctx with inAllowed := true }) p

def withoutIn {α : Type} (p : Parse α) : Parse α := withReader (fun ctx => { ctx with inAllowed := false }) p

/-- Items parted by commas up to the closing mark, which is passed. A comma may come last. -/
def commaList {α : Type} (close : String) (item : Parse α) : Parse (List α) :=
  loop [] fun done => do
    if ← acceptMark close then pure (.inr done.reverse)
    else
      let x ← item
      if !(← isMark close) then expectMark ","
      pure (.inl (x :: done))

def itemsUntil {α : Type} (close : String) (item : Parse α) : Parse (List α) :=
  loop [] fun done => do
    if ← acceptMark close then pure (.inr done.reverse) else pure (.inl ((← item) :: done))

def reread (scan : List Char → Option Lexeme) (message : String) : Parse Unit := do
  match (← get).reread scan with
  | some c => set c
  | none => fail message

theorem attemptFails {α : Type} {p : Parse α} {ctx : Context} {c : Cursor} {e : SyntaxError}
    (h : p ctx c = .error e) : attempt p ctx c = .ok (none, c) := by
  simp [attempt, h]

end Parse
end ClassDocs.Script
