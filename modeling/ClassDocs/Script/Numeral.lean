import ClassDocs.Script.Token

/-! Numerals of a script: decimal, hexadecimal, octal and binary ones, with separators between the
digits, and integers of any size. -/
namespace ClassDocs.Script

/-- Every separator stands between two digits, and a digit comes last. -/
def separatorsFit (afterDigit : Bool) : List Char → Bool
  | [] => afterDigit
  | c :: s => if c == '_' then afterDigit && separatorsFit false s else separatorsFit true s

/-- Digits with separators: the digits, the characters as written, the rest. -/
def digitRun? (isDigit : Char → Bool) (s : List Char) : Option (List Char × List Char × List Char) :=
  let (raw, rest) := s.span fun c => isDigit c || c == '_'
  if separatorsFit false raw then some (raw.filter (· != '_'), raw, rest) else none

/-- The integer that digits in a base stand for. Up to `exact` digits it is rounded once, beyond
that digit by digit. -/
def integer (base exact : Nat) (digits : List Char) : Float :=
  if digits.length ≤ exact then Number.ofDecimal (Number.ofDigits base digits) 0
  else digits.foldl (fun x c => x * Number.ofDecimal base 0 + Number.ofDecimal ((Number.hexDigit? c).getD 0) 0) 0.0

def isOctalDigit (c : Char) : Bool := '0' ≤ c && c ≤ '7'

def basedNumeral? (base exact : Nat) (isDigit : Char → Bool) (mark s : List Char) : Option Lexeme := do
  let (digits, raw, rest) ← digitRun? isDigit s
  match rest with
  | 'n' :: rest =>
    some ⟨.bigint (String.ofList (Nat.toDigits 10 (Number.ofDigits base digits))), mark ++ raw ++ ['n'], rest⟩
  | _ => some ⟨.number (integer base exact digits), mark ++ raw, rest⟩

def fractionDigits? : List Char → Option (List Char × List Char × List Char)
  | '.' :: s =>
    if s.head?.any (fun c => c.isDigit || c == '_') then
      (digitRun? Char.isDigit s).map fun (digits, raw, rest) => (digits, '.' :: raw, rest)
    else some ([], ['.'], s)
  | s => some ([], [], s)

/-- The exponent, its characters and the rest; an exponent needs digits. -/
def exponent? : List Char → Option (Int × List Char × List Char)
  | c :: s =>
    if c == 'e' || c == 'E' then
      let (negative, sign, s) := match s with
        | '-' :: s => (true, ['-'], s)
        | '+' :: s => (false, ['+'], s)
        | s => (false, [], s)
      (digitRun? Char.isDigit s).map fun (digits, raw, rest) =>
        let n : Int := Number.ofDigits 10 digits
        (if negative then -n else n, c :: sign ++ raw, rest)
    else some (0, [], c :: s)
  | [] => some (0, [], [])

def decimalTail? (digits raw s : List Char) : Option Lexeme := do
  let (fraction, fractionRaw, rest) ← fractionDigits? s
  let (exponent, exponentRaw, rest) ← exponent? rest
  some ⟨.number (Number.ofDecimal (Number.ofDigits 10 (digits ++ fraction)) (exponent - fraction.length)),
    raw ++ fractionRaw ++ exponentRaw, rest⟩

def decimalNumeral? (s : List Char) : Option Lexeme :=
  match s with
  | '.' :: _ => decimalTail? [] [] s
  | _ => do
    let (digits, raw, rest) ← digitRun? Char.isDigit s
    match rest with
    | 'n' :: rest => some ⟨.bigint (String.ofList (Nat.toDigits 10 (Number.ofDigits 10 digits))), raw ++ ['n'], rest⟩
    | _ => decimalTail? digits raw rest

/-- A numeral that begins with a zero and a further digit: octal when all digits fit, else
decimal. Neither form has separators. -/
def zeroNumeral? (s : List Char) : Option Lexeme :=
  let (digits, rest) := s.span Char.isDigit
  if digits.all isOctalDigit then some ⟨.number (integer 8 21 digits), digits, rest⟩
  else if rest.head? == some 'n' || rest.head? == some '_' then none
  else decimalTail? digits digits rest

def anyNumeral? (s : List Char) : Option Lexeme :=
  match s with
  | '0' :: c :: rest =>
    if c == 'x' || c == 'X' then basedNumeral? 16 16 (fun c => (Number.hexDigit? c).isSome) ['0', c] rest
    else if c == 'o' || c == 'O' then basedNumeral? 8 21 isOctalDigit ['0', c] rest
    else if c == 'b' || c == 'B' then basedNumeral? 2 64 (fun c => c == '0' || c == '1') ['0', c] rest
    else if c == '_' then none
    else if c.isDigit then zeroNumeral? s
    else decimalNumeral? s
  | _ => decimalNumeral? s

/-- A numeral. No name and no further digit follows it directly. -/
def numeral? (s : List Char) : Option Lexeme := do
  let l ← anyNumeral? s
  if l.rest.head?.any (fun c => isNameStart c || c.isDigit) then none else some l

theorem separatorsFitNil : separatorsFit false [] = false := rfl

end ClassDocs.Script
