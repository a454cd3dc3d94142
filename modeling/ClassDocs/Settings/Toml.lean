import ClassDocs.Json.Reader

/-! Reading settings files of tables and keys. The result is structured data; a date becomes an
object of its own, which no setting takes. -/
namespace ClassDocs.Toml
open JsonText (Reads)

/-! ## Keys and strings -/

def isSpace (c : Char) : Bool := c == ' ' || c == '\t'

def skipSpace (s : List Char) : List Char := s.dropWhile isSpace

/-- Control characters have no place in a document, except for the tabulator. -/
def isPlain (c : Char) : Bool := c == '\t' || (0x20 ≤ c.val && c.val != 0x7F)

def lineEnd? : List Char → Option (List Char)
  | '\n' :: s => some s
  | '\r' :: '\n' :: s => some s
  | _ => none

def skipComment? : List Char → Option (List Char)
  | '#' :: s =>
    let (text, rest) := s.span fun c => c != '\n' && c != '\r'
    if text.all isPlain then some rest else none
  | s => some s

/-- Passes space, comments and line ends; `fuel` bounds the number of lines. -/
def skipLines? : Nat → List Char → Option (List Char)
  | 0, s => some s
  | fuel + 1, s => do
    let rest ← skipComment? (skipSpace s)
    match lineEnd? rest with
    | some rest => skipLines? fuel rest
    | none => some rest

def codePoint? (count : Nat) (s : List Char) : Option (Char × List Char) :=
  let digits := s.take count
  let n := Number.ofDigits 16 digits
  if digits.length == count && digits.all (fun c => (Number.hexDigit? c).isSome) && n.isValidChar then
    some (Char.ofNat n, s.drop count)
  else none

def escape? : Reads Char
  | c :: s =>
    match c with
    | 'b' => some ('\x08', s)
    | 't' => some ('\t', s)
    | 'n' => some ('\n', s)
    | 'f' => some ('\x0c', s)
    | 'r' => some ('\r', s)
    | '"' => some ('"', s)
    | '\\' => some ('\\', s)
    | 'u' => codePoint? 4 s
    | 'U' => codePoint? 8 s
    | _ => none
  | [] => none

/-- The rest of a string in double quotes; `done` is what has been read, last one first. -/
def basicRest : Nat → List Char → Reads String
  | 0, _, _ => none
  | _ + 1, done, '"' :: s => some (String.ofList done.reverse, s)
  | fuel + 1, done, '\\' :: s => do
    let (c, rest) ← escape? s
    basicRest fuel (c :: done) rest
  | fuel + 1, done, c :: s => if isPlain c then basicRest fuel (c :: done) s else none
  | _ + 1, _, [] => none

def literalRest (s : List Char) : Option (String × List Char) :=
  let (text, rest) := s.span (· != '\'')
  match rest with
  | '\'' :: rest => if text.all isPlain then some (String.ofList text, rest) else none
  | _ => none

/-- Whether three quotes come next that end a text. Of four or five quotes the first ones belong
to the text. -/
def endsText (quote : Char) : List Char → Bool
  | a :: b :: c :: rest => a == quote && b == quote && c == quote && rest.head? != some quote
  | _ => false

def quoteCount (quote : Char) (s : List Char) : Nat := (s.takeWhile (· == quote)).length

def skipBreaks : List Char → List Char
  | [] => []
  | c :: s => if isSpace c || c == '\n' || c == '\r' then skipBreaks s else c :: s

def endsLine (s : List Char) : Bool := (lineEnd? (skipSpace s)).isSome

/-- The rest of a text over several lines. Line ends are read as line feeds. -/
def textRest (quote : Char) : Nat → List Char → Reads String
  | 0, _, _ => none
  | _ + 1, _, [] => none
  | fuel + 1, done, c :: s =>
    if c == quote && endsText quote (c :: s) then some (String.ofList done.reverse, s.drop 2)
    else if c == quote && 5 < quoteCount quote (c :: s) then none
    else if c == '\\' && quote == '"' then
      if endsLine s then textRest quote fuel done (skipBreaks s)
      else
        match escape? s with
        | some (x, rest) => textRest quote fuel (x :: done) rest
        | none => none
    else
      match lineEnd? (c :: s) with
      | some rest => textRest quote fuel ('\n' :: done) rest
      | none => if isPlain c then textRest quote fuel (c :: done) s else none

/-- A line end directly behind the opening quotes is no part of the text. -/
def skipFirstBreak (s : List Char) : List Char := (lineEnd? s).getD s

def string? (limit : Nat) : Reads String
  | '"' :: '"' :: '"' :: s => textRest '"' limit [] (skipFirstBreak s)
  | '\'' :: '\'' :: '\'' :: s => textRest '\'' limit [] (skipFirstBreak s)
  | '"' :: s => basicRest limit [] s
  | '\'' :: s => literalRest s
  | _ => none

def isBareKeyChar (c : Char) : Bool := c.isAlphanum || c == '_' || c == '-'

def simpleKey? (limit : Nat) : Reads String
  | '"' :: s => basicRest limit [] s
  | '\'' :: s => literalRest s
  | s =>
    let (key, rest) := s.span isBareKeyChar
    if key.isEmpty then none else some (String.ofList key, rest)

def keyPath? (limit : Nat) : Nat → Reads (List String)
  | 0, _ => none
  | fuel + 1, s => do
    let (key, rest) ← simpleKey? limit (skipSpace s)
    match skipSpace rest with
    | '.' :: rest => do
      let (keys, rest) ← keyPath? limit fuel rest
      some (key :: keys, rest)
    | rest => some ([key], rest)

/-! ## Numbers and dates -/

def separated (isDigit : Char → Bool) : Bool → List Char → Bool
  | afterDigit, [] => afterDigit
  | afterDigit, c :: s => if c == '_' then afterDigit && separated isDigit false s else isDigit c && separated isDigit true s

def withoutSeparators (s : List Char) : List Char := s.filter (· != '_')

def int? (n : Int) : Option Json := if -(Nat.pow 2 63 : Int) ≤ n && n < (Nat.pow 2 63 : Int) then some (.int n) else none

def based? (base : Nat) (isDigit : Char → Bool) (s : List Char) : Option Json :=
  if separated isDigit false s then int? (Number.ofDigits base (withoutSeparators s)) else none

/-- The digits of a decimal number. A zero in front stands alone. -/
def isDecimal (s : List Char) : Bool :=
  separated Char.isDigit false s && !(s.head? == some '0' && 1 < s.length)

def sign : List Char → Bool × List Char
  | '-' :: s => (true, s)
  | '+' :: s => (false, s)
  | s => (false, s)

def exponent? : List Char → Option Int
  | [] => some 0
  | c :: s =>
    if c == 'e' || c == 'E' then
      let (negative, digits) := sign s
      if separated Char.isDigit false digits then
        let n : Int := Number.ofDigits 10 (withoutSeparators digits)
        some (if negative then -n else n)
      else none
    else none

def isExponentMark (c : Char) : Bool := c == 'e' || c == 'E'

/-- A number with a fraction or an exponent. One beyond all doubles is malformed. -/
def float? (negative : Bool) (s : List Char) : Option Json := do
  let (whole, tail) := s.span fun c => c.isDigit || c == '_'
  let (fraction, tail) ← match tail with
    | '.' :: tail =>
      let (fraction, tail) := tail.span (!isExponentMark ·)
      if separated Char.isDigit false fraction then some (withoutSeparators fraction, tail) else none
    | _ => some ([], tail)
  let e ← exponent? tail
  if !isDecimal whole then none
  else
    let x := Number.ofDecimal (Number.ofDigits 10 (withoutSeparators whole ++ fraction)) (e - fraction.length)
    if x.isInf && !negative then none else some (.float (if negative then -x else x))

def number? (s : List Char) : Option Json :=
  let (negative, digits) := sign s
  if digits == "inf".toList then some (.float (if negative then -1.0 / 0.0 else 1.0 / 0.0))
  else if digits == "nan".toList then some (.float (0.0 / 0.0))
  else
    match s with
    | '0' :: 'x' :: s => based? 16 (fun c => (Number.hexDigit? c).isSome) s
    | '0' :: 'o' :: s => based? 8 (fun c => '0' ≤ c && c ≤ '7') s
    | '0' :: 'b' :: s => based? 2 (fun c => c == '0' || c == '1') s
    | _ =>
      if isDecimal digits then
        let n : Int := Number.ofDigits 10 (withoutSeparators digits)
        int? (if negative then -n else n)
      else float? negative digits

def field? (count most : Nat) (s : List Char) : Option (Nat × List Char) :=
  let digits := s.take count
  let n := Number.ofDigits 10 digits
  if digits.length == count && digits.all Char.isDigit && n ≤ most then some (n, s.drop count) else none

def isLeap (year : Nat) : Bool := year % 4 == 0 && (year % 100 != 0 || year % 400 == 0)

def daysOf (year month : Nat) : Nat :=
  if month == 2 then if isLeap year then 29 else 28
  else if [4, 6, 9, 11].contains month then 30
  else 31

def pass? (c : Char) : List Char → Option (List Char)
  | x :: s => if x == c then some s else none
  | [] => none

def date? (s : List Char) : Option (List Char) := do
  let (year, s) ← field? 4 9999 s
  let (month, s) ← field? 2 12 (← pass? '-' s)
  let (day, s) ← field? 2 (daysOf year month) (← pass? '-' s)
  if month == 0 || day == 0 then none else some s

def time? (s : List Char) : Option (List Char) := do
  let (_, s) ← field? 2 23 s
  let (_, s) ← field? 2 59 (← pass? ':' s)
  let (_, s) ← field? 2 60 (← pass? ':' s)
  match s with
  | '.' :: s =>
    let (digits, rest) := s.span Char.isDigit
    if digits.isEmpty then none else some rest
  | s => some s

def offset? : List Char → Option (List Char)
  | [] => some []
  | c :: s =>
    if c == 'Z' || c == 'z' then some s
    else if c == '+' || c == '-' then do
      let (_, s) ← field? 2 23 s
      let (_, s) ← field? 2 59 (← pass? ':' s)
      some s
    else some (c :: s)

/-- The mark between a date and a time, and the rest; a space counts when digits follow. -/
def dateTimeMark? : List Char → Option (List Char)
  | c :: s => if c == 'T' || c == 't' || (c == ' ' && s.head?.any Char.isDigit) then some s else none
  | [] => none

def moment? (s : List Char) : Option (List Char) :=
  match date? s with
  | some rest =>
    match dateTimeMark? rest with
    | some rest => (time? rest).bind offset?
    | none => some rest
  | none => time? s

/-! ## Tables -/

inductive Origin where
  /-- By the header of a table inside it. -/
  | implied
  /-- By a key with points. -/
  | dotted
  /-- By a header of its own. -/
  | declared
  deriving DecidableEq

inductive Node where
  | value (j : Json)
  | table (origin : Origin) (fields : List (String × Node))
  | tables (items : List (List (String × Node)))

abbrev Fields := List (String × Node)

namespace Fields

def lookup? (fields : Fields) (key : String) : Option Node := (fields.find? (·.1 == key)).map Prod.snd

def put (fields : Fields) (key : String) (node : Node) : Fields :=
  if fields.any (·.1 == key) then fields.map fun f => if f.1 == key then (key, node) else f
  else fields ++ [(key, node)]

/-- Changes the table that a path of a header leads to. Missing tables are made, and of an array of
tables the last one is meant. -/
def within (change : Fields → Option Fields) : List String → Fields → Option Fields
  | [], fields => change fields
  | key :: path, fields =>
    match fields.lookup? key with
    | none => (within change path []).map fun inner => fields.put key (.table .implied inner)
    | some (.table origin inner) =>
      (within change path inner).map fun inner => fields.put key (.table origin inner)
    | some (.tables (last :: others)) =>
      (within change path last).map fun last => fields.put key (.tables (last :: others))
    | _ => none

/-- Adds a value under a key. Tables on the way are those of other keys with points; a key is given
once. -/
def assign (j : Json) : List String → Fields → Option Fields
  | [], _ => none
  | [key], fields => if (fields.lookup? key).isSome then none else some (fields.put key (.value j))
  | key :: path, fields =>
    match fields.lookup? key with
    | none => (assign j path []).map fun inner => fields.put key (.table .dotted inner)
    | some (.table .dotted inner) => (assign j path inner).map fun inner => fields.put key (.table .dotted inner)
    | some (.table .implied inner) =>
      if path.length == 1 then none
      else (assign j path inner).map fun inner => fields.put key (.table .implied inner)
    | some (.tables (last :: others)) =>
      if path.length == 1 then none
      else (assign j path last).map fun last => fields.put key (.tables (last :: others))
    | _ => none

def declare (key : String) (fields : Fields) : Option Fields :=
  match fields.lookup? key with
  | none => some (fields.put key (.table .declared []))
  | some (.table .implied inner) => some (fields.put key (.table .declared inner))
  | _ => none

def extend (key : String) (fields : Fields) : Option Fields :=
  match fields.lookup? key with
  | none => some (fields.put key (.tables [[]]))
  | some (.tables items) => some (fields.put key (.tables ([] :: items)))
  | _ => none

end Fields

mutual
def Node.toJson : Node → Json
  | .value j => j
  | .table _ fields => .object (fieldsToJson fields)
  | .tables items => .array (tablesToJson items).reverse

def fieldsToJson : List (String × Node) → List (String × Json)
  | [] => []
  | (key, node) :: rest => (key, node.toJson) :: fieldsToJson rest

def tablesToJson : List (List (String × Node)) → List Json
  | [] => []
  | fields :: rest => .object (fieldsToJson fields) :: tablesToJson rest
end

/-! ## Values -/

def endsBare (c : Char) : Bool := isSpace c || c == ',' || c == ']' || c == '\x7d' || c == '#' || c == '\n' || c == '\r'

def bare? (s : List Char) : Option (Json × List Char) :=
  match moment? s with
  | some rest => some (.object [("date", .string (String.ofList (s.take (s.length - rest.length))))], rest)
  | none =>
    let (word, rest) := s.span (!endsBare ·)
    if word == "true".toList then some (.bool true, rest)
    else if word == "false".toList then some (.bool false, rest)
    else (number? word).map fun j => (j, rest)

/-- Elements of an array up to the closing bracket. They may stand on lines of their own, and a
comma may come last. -/
def elements? (limit : Nat) (value : Reads Json) : Nat → List Json → Reads Json
  | 0, _, _ => none
  | fuel + 1, done, s => do
    match ← skipLines? limit s with
    | ']' :: rest => some (.array done.reverse, rest)
    | s => do
      let (j, rest) ← value s
      match ← skipLines? limit rest with
      | ',' :: rest => elements? limit value fuel (j :: done) rest
      | ']' :: rest => some (.array (j :: done).reverse, rest)
      | _ => none

def keyValue? (limit : Nat) (value : Reads Json) : Reads (List String × Json) := fun s => do
  let (path, rest) ← keyPath? limit limit s
  match rest with
  | '=' :: rest => do
    let (j, rest) ← value (skipSpace rest)
    some ((path, j), rest)
  | _ => none

/-- Members of a table in braces, which stands on one line. No comma comes last. -/
def members? (limit : Nat) (value : Reads Json) : Nat → Fields → Reads Json
  | 0, _, _ => none
  | fuel + 1, fields, s => do
    let ((path, j), rest) ← keyValue? limit value s
    let fields ← fields.assign j path
    match skipSpace rest with
    | ',' :: rest => members? limit value fuel fields rest
    | '\x7d' :: rest => some (.object (fieldsToJson fields), rest)
    | _ => none

def value? (limit : Nat) : Nat → Reads Json
  | depth, s =>
    match s with
    | '"' :: _ | '\'' :: _ => (string? limit s).map fun (text, rest) => (.string text, rest)
    | '[' :: s =>
      match depth with
      | 0 => none
      | depth + 1 => elements? limit (value? limit depth) limit [] s
    | '\x7b' :: s =>
      match depth with
      | 0 => none
      | depth + 1 =>
        match skipSpace s with
        | '\x7d' :: rest => some (.object [], rest)
        | s => members? limit (value? limit depth) limit [] s
    | s => bare? s

/-! ## Documents -/

def usualDepth : Nat := 80

structure Document where
  root : Fields
  path : List String

def splitLast? (path : List String) : Option (List String × String) :=
  path.getLast?.map fun key => (path.dropLast, key)

def header? (limit : Nat) (isArray : Bool) (d : Document) (s : List Char) : Option (Document × List Char) := do
  let (path, rest) ← keyPath? limit limit s
  let (outer, key) ← splitLast? path
  let rest ← pass? ']' rest
  let rest ← if isArray then pass? ']' rest else some rest
  let root ← Fields.within (if isArray then Fields.extend key else Fields.declare key) outer d.root
  some (⟨root, path⟩, rest)

/-- One line: a header, a key with its value, or nothing. -/
def line? (limit : Nat) (d : Document) (s : List Char) : Option (Document × List Char) :=
  match s with
  | '[' :: '[' :: s => header? limit true d s
  | '[' :: s => header? limit false d s
  | s =>
    if s.isEmpty || s.head? == some '#' || (lineEnd? s).isSome then some (d, s)
    else do
      let ((path, j), rest) ← keyValue? limit (value? limit usualDepth) s
      let root ← Fields.within (Fields.assign j path) d.path d.root
      some ({ d with root }, rest)

def lines? (limit : Nat) : Nat → Document → List Char → Option Document
  | 0, _, _ => none
  | fuel + 1, d, s => do
    let (d, rest) ← line? limit d (skipSpace s)
    let rest ← skipComment? (skipSpace rest)
    if rest.isEmpty then some d
    else do
      let rest ← lineEnd? rest
      lines? limit fuel d rest

/-- The table that a document holds. A byte order mark may come first. -/
def read? (text : String) : Option Json := do
  let s := match text.toList with
    | '\uFEFF' :: s => s
    | s => s
  let limit := s.length + 1
  let d ← lines? limit limit ⟨[], []⟩ s
  some (.object (fieldsToJson d.root))

end ClassDocs.Toml
