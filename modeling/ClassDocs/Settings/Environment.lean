import ClassDocs.Settings.Toml
import ClassDocs.Text.Case
import ClassDocs.Text.Blank

/-! Settings from environment variables. Names are in any case and lead into tables with a double
underscore; values are read as flags, numbers, lists and tables as far as they look so. -/
namespace ClassDocs.Environment
open JsonText (Reads)

/-! ## Values -/

def isSpace (c : Char) : Bool := c == ' ' || c == '\t' || c == '\n' || c == '\r' || c == '\x0c'

def skipSpace (s : List Char) : List Char := s.dropWhile isSpace

def isSeparator (c : Char) : Bool := [',', '\x7b', '\x7d', '[', ']'].contains c

def isKeyChar (c : Char) : Bool := c.isAlphanum || c == '_' || c == '-'

def int? (s : List Char) : Option Json :=
  let (negative, digits) := Toml.sign s
  let n : Int := Number.ofDigits 10 digits
  if digits.isEmpty || !digits.all Char.isDigit then none
  else if negative then if n ≤ Nat.pow 2 63 then some (.int (-n)) else none
  else if n < Nat.pow 2 64 then some (.int n) else none

def exponent? : List Char → Option Int
  | [] => some 0
  | c :: s =>
    let (negative, digits) := Toml.sign s
    if (c == 'e' || c == 'E') && !digits.isEmpty && digits.all Char.isDigit then
      let n : Int := Number.ofDigits 10 digits
      some (if negative then -n else n)
    else none

/-- A number with a point. There are digits on one side of it at least. -/
def fraction? (s : List Char) : Option Json := do
  let (negative, s) := Toml.sign s
  let (whole, tail) := s.span Char.isDigit
  match tail with
  | '.' :: tail =>
    let (fraction, tail) := tail.span Char.isDigit
    let e ← exponent? tail
    if whole.isEmpty && fraction.isEmpty then none
    else
      let x := Number.ofDecimal (Number.ofDigits 10 (whole ++ fraction)) (e - fraction.length)
      some (.float (if negative then -x else x))
  | _ => none

/-- A word: a number if it is one, else text. -/
def word (s : List Char) : Json := ((fraction? s).or (int? s)).getD (.string (String.ofList s))

def elements? {α : Type} (element : Reads α) (close : Char) : Nat → List α → Reads (List α)
  | 0, _, _ => none
  | fuel + 1, done, s =>
    if s.head? == some close then some (done.reverse, s.drop 1)
    else do
      let (x, rest) ← element s
      match rest with
      | c :: rest =>
        if c == ',' then elements? element close fuel (x :: done) rest
        else if c == close then some ((x :: done).reverse, rest)
        else none
      | [] => none

def key? (limit : Nat) : Reads String
  | '"' :: s => Toml.basicRest limit [] s
  | s =>
    let (key, rest) := s.span isKeyChar
    if key.isEmpty then none else some (String.ofList key, rest)

def keyValue? (limit : Nat) (value : Reads Json) : Reads (String × Json) := fun s => do
  let (key, rest) ← key? limit (skipSpace s)
  match skipSpace rest with
  | '=' :: rest => (value rest).map fun (j, rest) => ((key, j), rest)
  | _ => none

def value? (limit : Nat) : Nat → Reads Json
  | depth, s =>
    let read : Option (Json × List Char) :=
      match skipSpace s with
      | 't' :: 'r' :: 'u' :: 'e' :: rest => some (.bool true, rest)
      | 'f' :: 'a' :: 'l' :: 's' :: 'e' :: rest => some (.bool false, rest)
      | '\x7b' :: rest =>
        match depth with
        | 0 => none
        | depth + 1 =>
          (elements? (keyValue? limit (value? limit depth)) '\x7d' limit [] rest).map fun (fields, rest) =>
            (.object fields, rest)
      | '[' :: rest =>
        match depth with
        | 0 => none
        | depth + 1 =>
          (elements? (value? limit depth) ']' limit [] rest).map fun (items, rest) => (.array items, rest)
      | '"' :: rest => (Toml.basicRest limit [] rest).map fun (text, rest) => (.string text, rest)
      | '\'' :: c :: '\'' :: rest => some (.string (String.singleton c), rest)
      | '\'' :: _ => none
      | s =>
        let (text, rest) := s.span (!isSeparator ·)
        some (word (Text.trim text), rest)
    read.map fun (j, rest) => (j, skipSpace rest)

/-- The value of a variable. What cannot be read as a whole is text. -/
def valueOf (text : String) : Json :=
  let s := Text.trim text.toList
  match value? (s.length + 1) (s.length + 1) s with
  | some (j, []) => j
  | _ => .string (String.ofList s)

/-! ## Names -/

def marker : List Char := "quire_".toList

def nameParts : List Char → List (List Char)
  | [] => [[]]
  | '_' :: '_' :: s => [] :: nameParts s
  | c :: s =>
    if c == '.' then [] :: nameParts s
    else
      match nameParts s with
      | [] => [[c]]
      | part :: rest => (c :: part) :: rest

def path? (name : String) : Option (List String) := do
  let rest ← marker.isPrefixOf? (Text.lowerAscii name).toList
  let parts := ((nameParts rest).filter (!·.isEmpty)).map String.ofList
  if parts.isEmpty then none else some parts

def nested (j : Json) : List String → Json
  | [] => j
  | part :: path => .object [(part, nested j path)]

/-- What the variables set, each as a layer of its own. -/
def layers (environment : List (String × String)) : List Json :=
  environment.filterMap fun (name, text) => (path? name).map (nested (valueOf text))

theorem emptyPath (j : Json) : nested j [] = j := rfl

end ClassDocs.Environment
