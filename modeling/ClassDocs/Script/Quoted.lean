import ClassDocs.Script.Token

/-! Strings, templates and regular expressions of a script. -/
namespace ClassDocs.Script

def isSurrogate (n : Nat) : Bool := 0xD800 ≤ n && n < 0xE000

/-- The mark for a code point that is no character: the replacement character and four digits. -/
def loneMark (n : Nat) : List Char :=
  let digits := Nat.toDigits 16 n
  '\uFFFD' :: (List.replicate (4 - digits.length) '0' ++ digits)

/-- The text of code points. A half of a surrogate pair is written by its mark, and beside such a
half the replacement character is written so too. -/
def textOf (points : List Nat) : String :=
  if points.any isSurrogate then
    String.ofList (points.flatMap fun n =>
      if isSurrogate n || n == 0xFFFD then loneMark n else [Char.ofNat n])
  else String.ofList (points.map Char.ofNat)

/-- The code point of a `\u` escape, whose digits come next. Two halves of a surrogate pair, each
with an escape of its own, are one code point. -/
def pointEscape? (s : List Char) : Option (Nat × List Char × List Char) := do
  let (n, taken, rest) ← codePoint? s
  match rest with
  | '\\' :: 'u' :: low =>
    match fourDigits? low with
    | some (m, takenLow, after) =>
      if taken.head? != some '\x7b' && 0xD800 ≤ n && n < 0xDC00 && 0xDC00 ≤ m && m < 0xE000 then
        some (0x10000 + (n - 0xD800) * 0x400 + (m - 0xDC00), taken ++ '\\' :: 'u' :: takenLow, after)
      else some (n, taken, rest)
    | none => some (n, taken, rest)
  | _ => some (n, taken, rest)

/-- The digits of an octal escape: up to three, and a value below 256. -/
def octalEscape (s : List Char) : Nat × List Char × List Char :=
  let most := if s.head?.any (fun c => c ≤ '3') then 3 else 2
  let digits := (s.take most).takeWhile (fun c => '0' ≤ c && c ≤ '7')
  (Number.ofDigits 8 digits, digits, s.drop digits.length)

/-- What the characters behind a backslash stand for. An escaped line break stands for nothing;
octal escapes and `\8`, `\9` are for strings alone. -/
def escape? (inString : Bool) : List Char → Option (List Nat × List Char × List Char)
  | [] => none
  | c :: s =>
    match c with
    | 'n' => some ([0x0A], [c], s)
    | 't' => some ([0x09], [c], s)
    | 'r' => some ([0x0D], [c], s)
    | 'b' => some ([0x08], [c], s)
    | 'f' => some ([0x0C], [c], s)
    | 'v' => some ([0x0B], [c], s)
    | '\r' =>
      match s with
      | '\n' :: rest => some ([], [c, '\n'], rest)
      | _ => some ([], [c], s)
    | 'x' =>
      match s with
      | a :: b :: rest =>
        if (Number.hexDigit? a).isSome && (Number.hexDigit? b).isSome then
          some ([Number.ofDigits 16 [a, b]], [c, a, b], rest)
        else none
      | _ => none
    | 'u' => (pointEscape? s).map fun (n, taken, rest) => ([n], c :: taken, rest)
    | _ =>
      if isLineBreak c then some ([], [c], s)
      else if c.isDigit then
        if c == '0' && !s.head?.any Char.isDigit then some ([0], [c], s)
        else if !inString then none
        else if c == '8' || c == '9' then some ([c.toNat], [c], s)
        else
          let (n, digits, rest) := octalEscape (c :: s)
          some ([n], digits, rest)
      else some ([c.toNat], [c], s)

/-- The inside of a string up to the quote that closes it. `points` and `raw` are what has been
read, last one first. -/
def stringBody? (quote : Char) : Nat → List Nat → List Char → List Char → Option Lexeme
  | 0, _, _, _ => none
  | _ + 1, _, _, [] => none
  | fuel + 1, points, raw, '\\' :: s => do
    let (ns, taken, rest) ← escape? true s
    stringBody? quote fuel (ns.reverse ++ points) (taken.reverse ++ '\\' :: raw) rest
  | fuel + 1, points, raw, c :: s =>
    if c == quote then some ⟨.string (textOf points.reverse), (c :: raw).reverse, s⟩
    else if c == '\n' || c == '\r' then none
    else stringBody? quote fuel (c.toNat :: points) (c :: raw) s

/-- A part of a template up to its end or the next substitution. Line ends are read as line
feeds. -/
def templateBody? : Nat → Option (List Nat) → List Char → List Char → Option Lexeme
  | 0, _, _, _ => none
  | _ + 1, _, _, [] => none
  | _ + 1, points, raw, '\x60' :: s =>
    some ⟨.template (points.map fun ns => textOf ns.reverse) true, ('\x60' :: raw).reverse, s⟩
  | _ + 1, points, raw, '$' :: '\x7b' :: s =>
    some ⟨.template (points.map fun ns => textOf ns.reverse) false, ('\x7b' :: '$' :: raw).reverse, s⟩
  | fuel + 1, points, raw, '\\' :: s =>
    match escape? false s with
    | some (ns, taken, rest) =>
      templateBody? fuel (points.map (ns.reverse ++ ·)) (taken.reverse ++ '\\' :: raw) rest
    | none => templateBody? fuel none ('\\' :: raw) s
  | fuel + 1, points, raw, '\r' :: '\n' :: s =>
    templateBody? fuel (points.map (0x0A :: ·)) ('\n' :: '\r' :: raw) s
  | fuel + 1, points, raw, c :: s =>
    templateBody? fuel (points.map ((if c == '\r' then 0x0A else c.toNat) :: ·)) (c :: raw) s

/-- The pattern of a regular expression up to the slash that ends it. A slash in a class of
characters is part of the pattern. -/
def patternBody? (inClass : Bool) (raw : List Char) : List Char → Option (List Char × List Char)
  | [] => none
  | '\\' :: c :: s => if isLineBreak c then none else patternBody? inClass (c :: '\\' :: raw) s
  | c :: s =>
    if isLineBreak c then none
    else if c == '/' && !inClass then some (raw.reverse, s)
    else patternBody? (if c == '[' then true else if c == ']' then false else inClass) (c :: raw) s

def distinct : List Char → Bool
  | [] => true
  | c :: s => !s.contains c && distinct s

def regex? (s : List Char) : Option Lexeme := do
  let (pattern, rest) ← patternBody? false [] s
  let (flags, rest) := rest.span isNamePart
  if flags.all "dgimsuvy".toList.contains && distinct flags then
    let raw := '/' :: pattern ++ '/' :: flags
    some ⟨.regex (String.ofList raw), raw, rest⟩
  else none

end ClassDocs.Script
