import ClassDocs.Script.Character
import ClassDocs.Number.Reading

/-! Tokens of a script, and the scanners for names, escapes and punctuation. A scanner reads the
beginning of a text and gives back what it took and what is left. -/
namespace ClassDocs.Script

structure SyntaxError where
  offset : Nat
  message : String
  deriving DecidableEq, Inhabited

inductive Token where
  /-- An identifier or a keyword. A name written with an escape is never a keyword. -/
  | name (text : String) (escaped : Bool)
  | privateName (text : String)
  | punctuator (text : String)
  | number (value : Float)
  | bigint (digits : String)
  | string (value : String)
  /-- A part of a template up to the next substitution, or its last part. A part with a malformed
  escape has no value. -/
  | template (value : Option String) (last : Bool)
  | regex (source : String)
  | finish
  deriving DecidableEq, Inhabited

structure Lexeme where
  token : Token
  raw : List Char
  rest : List Char

def fourDigits? : List Char → Option (Nat × List Char × List Char)
  | a :: b :: c :: d :: rest =>
    if [a, b, c, d].all (fun x => (Number.hexDigit? x).isSome) then
      some (Number.ofDigits 16 [a, b, c, d], [a, b, c, d], rest)
    else none
  | _ => none

/-- The code point that follows the mark `\u`: four digits, or digits in braces. -/
def codePoint? : List Char → Option (Nat × List Char × List Char)
  | '\x7b' :: s =>
    let (digits, rest) := s.span fun c => (Number.hexDigit? c).isSome
    let n := Number.ofDigits 16 digits
    match rest with
    | '\x7d' :: rest =>
      if digits.isEmpty || 0x10FFFF < n then none
      else some (n, '\x7b' :: digits ++ ['\x7d'], rest)
    | _ => none
  | s => fourDigits? s

/-- The characters of a name up to the first that does not fit: its text and its characters as
written, both last one first, and the rest. `none` is a malformed escape. -/
def nameChars (fits : Char → Bool) :
    Nat → List Char → List Char → List Char → Option (List Char × List Char × List Char)
  | 0, text, raw, s => some (text, raw, s)
  | fuel + 1, text, raw, '\\' :: s =>
    match s with
    | 'u' :: s => do
      let (n, taken, rest) ← codePoint? s
      let c := Char.ofNat n
      if fits c then nameChars isNamePart fuel (c :: text) (taken.reverse ++ 'u' :: '\\' :: raw) rest else none
    | _ => none
  | fuel + 1, text, raw, c :: s =>
    if fits c then nameChars isNamePart fuel (c :: text) (c :: raw) s else some (text, raw, c :: s)
  | _ + 1, text, raw, [] => some (text, raw, [])

def name? (limit : Nat) (s : List Char) : Option (String × List Char × List Char) := do
  let (text, raw, rest) ← nameChars isNameStart limit [] [] s
  if text.isEmpty then none else some (String.ofList text.reverse, raw.reverse, rest)

/-- Punctuation, longer marks before their beginnings. -/
def punctuators : List (List Char × String) :=
  [">>>=", "...", "===", "!==", "**=", "<<=", ">>=", ">>>", "&&=", "||=", "??=", "=>", "==", "!=", "<=",
    ">=", "&&", "||", "??", "?.", "++", "--", "+=", "-=", "*=", "/=", "%=", "&=", "|=", "^=", "<<", ">>",
    "**", "\x7b", "\x7d", "(", ")", "[", "]", ";", ",", "<", ">", "+", "-", "*", "/", "%", "&", "|", "^",
    "!", "~", "?", ":", "=", ".", "@"].map fun text => (text.toList, text)

/-- Whether a mark stands at the beginning of a text. A question mark, a point and a digit are a
condition and a fraction. -/
def marks (mark s : List Char) : Bool :=
  mark.isPrefixOf s && !(mark == ['?', '.'] && ((s.drop 2).head?.any Char.isDigit))

def punctuator? (s : List Char) : Option Lexeme :=
  (punctuators.find? fun (mark, _) => marks mark s).map fun (mark, text) =>
    ⟨.punctuator text, mark, s.drop mark.length⟩

theorem punctuatorKeepsText {s : List Char} {l : Lexeme} (h : punctuator? s = some l) :
    l.raw ++ l.rest = s := by
  unfold punctuator? at h
  cases found : punctuators.find? (fun (mark, _) => marks mark s) with
  | none => simp [found] at h
  | some entry =>
    have fits := List.find?_some found
    simp [found] at h
    subst h
    simp only [marks, Bool.and_eq_true] at fits
    have isPrefix := List.isPrefixOf_iff_prefix.mp fits.1
    obtain ⟨rest, same⟩ := isPrefix
    simp [← same]

end ClassDocs.Script
