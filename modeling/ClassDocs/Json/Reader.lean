import ClassDocs.Json
import ClassDocs.Number.Reading

/-! Reading structured data from text, strictly: no comments, no trailing commas, no lone halves
of a surrogate pair, no raw control characters in strings, nothing behind the document. -/
namespace ClassDocs.JsonText

/-- A reader consumes a beginning of the text; `none` means that the text is malformed. -/
abbrev Reads (α : Type) := List Char → Option (α × List Char)

def skipSpace (s : List Char) : List Char :=
  s.dropWhile fun c => c == ' ' || c == '\n' || c == '\t' || c == '\r'

def word (w : String) (value : Json) : Reads Json := fun s =>
  (w.toList.isPrefixOf? s).map fun rest => (value, rest)

def hexUnit : Reads Nat
  | a :: b :: c :: d :: rest => do
    let a ← Number.hexDigit? a
    let b ← Number.hexDigit? b
    let c ← Number.hexDigit? c
    let d ← Number.hexDigit? d
    some (((a * 16 + b) * 16 + c) * 16 + d, rest)
  | _ => none

def unicodeEscape : Reads Char := fun s => do
  let (high, rest) ← hexUnit s
  if 0xDC00 ≤ high ∧ high < 0xE000 then none
  else if 0xD800 ≤ high ∧ high < 0xDC00 then
    match rest with
    | '\\' :: 'u' :: rest => do
      let (low, rest) ← hexUnit rest
      if 0xDC00 ≤ low ∧ low < 0xE000 then
        some (Char.ofNat (0x10000 + (high - 0xD800) * 0x400 + (low - 0xDC00)), rest)
      else none
    | _ => none
  else some (Char.ofNat high, rest)

def stringChar : Reads Char
  | '\\' :: c :: rest =>
    match c with
    | '"' => some ('"', rest)
    | '\\' => some ('\\', rest)
    | '/' => some ('/', rest)
    | 'b' => some ('\x08', rest)
    | 'f' => some ('\x0c', rest)
    | 'n' => some ('\n', rest)
    | 'r' => some ('\r', rest)
    | 't' => some ('\t', rest)
    | 'u' => unicodeEscape rest
    | _ => none
  | c :: rest => if c == '"' || c.toNat < 0x20 || c == '\\' then none else some (c, rest)
  | [] => none

/-- The text of a string up to its closing quote, escapes as written; `done` are the characters
already passed, last one first. -/
def rawString (done : List Char) : Reads (List Char)
  | '"' :: rest => some (done.reverse, rest)
  | '\\' :: c :: rest => rawString (c :: '\\' :: done) rest
  | c :: rest => rawString (c :: done) rest
  | [] => none

def stringChars (done : List Char) : Nat → List Char → Option (List Char)
  | _, [] => some done.reverse
  | 0, _ => none
  | fuel + 1, s => do
    let (c, rest) ← stringChar s
    stringChars (c :: done) fuel rest

def string : Reads String
  | '"' :: s => do
    let (raw, rest) ← rawString [] s
    let cs ← stringChars [] raw.length raw
    some (String.ofList cs, rest)
  | _ => none

def digits (s : List Char) : List Char × List Char := s.span Char.isDigit

/-- Digits behind the point; a point needs one. -/
def fraction : Reads (List Char)
  | '.' :: s =>
    let (ds, rest) := digits s
    if ds.isEmpty then none else some (ds, rest)
  | s => some ([], s)

def exponent : Reads (Option Int)
  | c :: s =>
    if c == 'e' || c == 'E' then
      let (negative, s) := match s with
        | '-' :: s => (true, s)
        | '+' :: s => (false, s)
        | s => (false, s)
      let (ds, rest) := digits s
      if ds.isEmpty then none
      else
        let n : Int := Number.ofDigits 10 ds
        some (some (if negative then -n else n), rest)
    else some (none, c :: s)
  | [] => some (none, [])

/-- A number. Whole numbers of 64 bits are exact, others become doubles; a number beyond all
doubles is malformed, and `-0` is the negative zero. -/
def number : Reads Json := fun s => do
  let (negative, s) := match s with
    | '-' :: s => (true, s)
    | s => (false, s)
  let (ds, rest) := digits s
  if ds.isEmpty || (ds.head? == some '0' && 1 < ds.length) then none
  else
    let (fs, rest) ← fraction rest
    let (e, rest) ← exponent rest
    let n := Number.ofDigits 10 ds
    let inRange := if negative then n ≠ 0 ∧ n ≤ Nat.pow 2 63 else n < Nat.pow 2 64
    if fs.isEmpty && e.isNone && inRange then some (.int (if negative then -(n : Int) else n), rest)
    else
      let x := Number.ofDecimal (Number.ofDigits 10 (ds ++ fs)) (e.getD 0 - fs.length)
      if x.isInf then none else some (.float (if negative then -x else x), rest)

/-- Elements parted by commas up to the closing character; `fuel` bounds their number. -/
def separated {α : Type} (element : Reads α) (close : Char) : Nat → Reads (List α)
  | 0, _ => none
  | fuel + 1, s => do
    let (x, rest) ← element s
    match skipSpace rest with
    | c :: rest =>
      if c == close then some ([x], rest)
      else if c == ',' then do
        let (xs, rest) ← separated element close fuel rest
        some (x :: xs, rest)
      else none
    | [] => none

def bracketed {α : Type} (limit : Nat) (element : Reads α) (close : Char) : Reads (List α) := fun s =>
  match skipSpace s with
  | c :: rest => if c == close then some ([], rest) else separated element close limit s
  | [] => none

def member (value : Reads Json) : Reads (String × Json) := fun s => do
  let (name, rest) ← string (skipSpace s)
  match skipSpace rest with
  | ':' :: rest => do
    let (j, rest) ← value rest
    some ((name, j), rest)
  | _ => none

/-- A value whose arrays and objects nest at most `depth` deep and hold at most `limit` elements. -/
def value (limit : Nat) : Nat → Reads Json
  | depth, s =>
    match skipSpace s with
    | '[' :: rest =>
      match depth with
      | 0 => none
      | depth + 1 =>
        (bracketed limit (value limit depth) ']' rest).map fun (items, rest) => (.array items, rest)
    | '\x7b' :: rest =>
      match depth with
      | 0 => none
      | depth + 1 =>
        (bracketed limit (member (value limit depth)) '\x7d' rest).map fun (fields, rest) =>
          (.object fields, rest)
    | '"' :: rest => (string ('"' :: rest)).map fun (s, rest) => (.string s, rest)
    | 't' :: rest => word "true" (.bool true) ('t' :: rest)
    | 'f' :: rest => word "false" (.bool false) ('f' :: rest)
    | 'n' :: rest => word "null" .null ('n' :: rest)
    | s => number s

def usualDepth : Nat := 127

/-- The document that a text holds. No array or object has more elements than the text has
characters. -/
def read? (depth : Nat) (text : String) : Option Json := do
  let s := text.toList
  let (j, rest) ← value (s.length + 1) depth s
  if (skipSpace rest).isEmpty then some j else none

end ClassDocs.JsonText
