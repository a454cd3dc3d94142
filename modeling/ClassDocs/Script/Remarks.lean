import ClassDocs.Script.Character

/-! The comments of a script: which of them are doc comments, and which code each belongs to.

A doc comment is a block comment in front of a token, as opposed to one at the end of the line of
the token before. Comments wait for the next token. They belong to the token before instead when
the first line break behind that token comes after them, or a line comment on its line. Behind `=`
and `(` a line comment has no such effect, since the value is still to come. -/
namespace ClassDocs.Script

structure DocComment where
  start : Nat
  /-- The text between the marks that open and close the comment. -/
  content : String
  deriving DecidableEq, Inhabited

/-- The text of a doc comment begins with a star and has more than stars. -/
def isDocText (content : List Char) : Bool := content.head? == some '*' && content.any (· != '*')

structure Remarks where
  /-- Doc comments since the last token, last one first. -/
  waiting : List DocComment
  /-- Doc comments with the offset of the token behind each, last one first. -/
  settled : List (DocComment × Nat)
  sawBreak : Bool
  behindOpener : Bool
  deriving Inhabited

namespace Remarks

def atStart : Remarks := ⟨[], [], true, false⟩

def comment (r : Remarks) (start : Nat) (content : List Char) : Remarks :=
  if isDocText content then { r with waiting := ⟨start, String.ofList content⟩ :: r.waiting } else r

def lineBreak (r : Remarks) : Remarks :=
  { r with waiting := if r.sawBreak then r.waiting else [], sawBreak := true }

def lineComment (r : Remarks) : Remarks :=
  { r with waiting := if r.sawBreak || r.behindOpener then r.waiting else [], sawBreak := true }

def token (r : Remarks) (start : Nat) (opensValue : Bool) : Remarks :=
  ⟨[], r.waiting.map (fun c => (c, start)) ++ r.settled, false, opensValue⟩

theorem tokenWaiting (r : Remarks) (start : Nat) (opensValue : Bool) :
    (r.token start opensValue).waiting = [] := rfl

/-- A doc comment at the end of a token's line documents nothing. -/
theorem commentBeforeBreakIsDropped (r : Remarks) (start offset : Nat) (opensValue : Bool)
    (content : List Char) :
    (((r.token start opensValue).comment offset content).lineBreak).waiting = [] := by
  simp only [token, comment]
  split <;> rfl

end Remarks
end ClassDocs.Script
