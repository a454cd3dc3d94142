import ClassDocs.Script.Remarks
import ClassDocs.Script.Numeral
import ClassDocs.Script.Quoted

/-! The place of a reader in a script: the current token, the text behind it, and the comments
passed so far. -/
namespace ClassDocs.Script

structure Gap where
  offset : Nat
  rest : List Char
  /-- Whether a line has ended in the gap, comments included. -/
  fresh : Bool
  remarks : Remarks

def blockComment? (content : List Char) : List Char → Option (List Char × List Char)
  | '*' :: '/' :: s => some (content.reverse, s)
  | c :: s => blockComment? (c :: content) s
  | [] => none

namespace Gap

def passLine (g : Gap) : Gap :=
  let (line, rest) := g.rest.span (!isLineBreak ·)
  { g with offset := g.offset + byteLength line, rest, remarks := g.remarks.lineComment }

/-- Passes blanks and comments; `fuel` bounds their number. -/
def pass : Nat → Gap → Except SyntaxError Gap
  | 0, g => .ok g
  | fuel + 1, g =>
    match g.rest with
    | '/' :: '*' :: s =>
      match blockComment? [] s with
      | some (content, rest) =>
        pass fuel ⟨g.offset + byteLength content + 4, rest, g.fresh || content.any isLineBreak,
          g.remarks.comment g.offset content⟩
      | none => .error ⟨g.offset, "a comment does not end"⟩
    | '/' :: '/' :: _ => pass fuel g.passLine
    | '<' :: '!' :: '-' :: '-' :: _ => pass fuel g.passLine
    | '-' :: '-' :: '>' :: _ => if g.fresh then pass fuel g.passLine else .ok g
    | c :: s =>
      if isLineBreak c then pass fuel ⟨g.offset + c.utf8Size, s, true, g.remarks.lineBreak⟩
      else if isSpace c then pass fuel { g with offset := g.offset + c.utf8Size, rest := s }
      else .ok g
    | [] => .ok g

end Gap

/-- The token at the beginning of a text. A slash is read as a mark here; whether it opens a
regular expression depends on what is expected. -/
def lexeme (limit offset : Nat) (s : List Char) : Except SyntaxError Lexeme :=
  let orFail (message : String) (l : Option Lexeme) : Except SyntaxError Lexeme :=
    match l with
    | some l => .ok l
    | none => .error ⟨offset, message⟩
  match s with
  | [] => .ok ⟨.finish, [], []⟩
  | c :: after =>
    if c == '"' || c == '\'' then orFail "a string does not end" (stringBody? c limit [] [c] after)
    else if c == '\x60' then orFail "a template does not end" (templateBody? limit (some []) [c] after)
    else if c.isDigit || (c == '.' && after.head?.any Char.isDigit) then
      orFail "a numeral is malformed" (numeral? s)
    else if c == '#' then
      orFail "a private name is malformed" <| (name? limit after).map fun (text, raw, rest) =>
        ⟨.privateName text, '#' :: raw, rest⟩
    else if c == '\\' || isNameStart c then
      orFail "a name is malformed" <| (name? limit s).map fun (text, raw, rest) =>
        ⟨.name text (raw.contains '\\'), raw, rest⟩
    else orFail "a character is unexpected" (punctuator? s)

structure Cursor where
  token : Token
  start : Nat
  raw : List Char
  rest : List Char
  fresh : Bool
  remarks : Remarks
  /-- Offsets of shorthand properties with an initial value. They make sense in a pattern only. -/
  pending : List Nat
  deriving Inhabited

namespace Cursor

def opensValue (t : Token) : Bool := t == .punctuator "=" || t == .punctuator "("

def behind (limit : Nat) (gap : Gap) (pending : List Nat) : Except SyntaxError Cursor := do
  let gap ← gap.pass limit
  let l ← lexeme limit gap.offset gap.rest
  .ok ⟨l.token, gap.offset, l.raw, l.rest, gap.fresh, gap.remarks.token gap.offset (opensValue l.token), pending⟩

def next (limit : Nat) (c : Cursor) : Except SyntaxError Cursor :=
  behind limit ⟨c.start + byteLength c.raw, c.rest, false, c.remarks⟩ c.pending

/-- The first token of a script. A first line that names an interpreter is passed. -/
def ofScript (limit : Nat) (s : List Char) : Except SyntaxError Cursor :=
  match s with
  | '#' :: '!' :: _ =>
    let (line, rest) := s.span (!isLineBreak ·)
    behind limit ⟨byteLength line, rest, true, { Remarks.atStart with sawBreak := false }⟩ []
  | _ => behind limit ⟨0, s, true, Remarks.atStart⟩ []

def reread (c : Cursor) (scan : List Char → Option Lexeme) : Option Cursor :=
  (scan (c.raw ++ c.rest)).map fun l => { c with token := l.token, raw := l.raw, rest := l.rest }

end Cursor
end ClassDocs.Script
