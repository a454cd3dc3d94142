import ClassDocs.Text.CaseTable

/-! Full case mapping, independent of locale: a letter may map to several, and a capital sigma
at the end of a word becomes the final form. -/
namespace ClassDocs.Text

def shifted? (runs : Array (Nat × Nat × Nat × Int)) (n : Nat) : Option Nat :=
  (runs.find? fun (first, last, step, _) => first ≤ n && n ≤ last && (n - first) % step == 0).map
    fun (_, _, _, shift) => ((n : Int) + shift).toNat

def inRanges (ranges : Array (Nat × Nat)) (c : Char) : Bool :=
  ranges.any fun (first, last) => first ≤ c.toNat && c.toNat ≤ last

/-- The image of one character under a table of runs and a table of sequences. -/
def mapped (runs : Array (Nat × Nat × Nat × Int)) (sequences : Array (Nat × List Nat)) (c : Char) :
    List Char :=
  match shifted? runs c.toNat with
  | some n => [Char.ofNat n]
  | none =>
    match sequences.find? fun entry => entry.1 == c.toNat with
    | some (_, ns) => ns.map Char.ofNat
    | none => [c]

def lowerChar (c : Char) : List Char := mapped lowerRuns lowerSequences c

def upperChar (c : Char) : List Char := mapped upperRuns upperSequences c

/-- Whether a letter with case comes next, characters without influence on case left aside. -/
def casedNext (s : List Char) : Bool :=
  match s.dropWhile (inRanges caseIgnorableRanges) with
  | [] => false
  | c :: _ => inRanges casedRanges c

/-- Lowers a text, where `before` are the characters already passed, nearest first. -/
def lowerFrom (before : List Char) : List Char → List Char
  | [] => []
  | c :: cs =>
    if c = 'Σ' then
      (if casedNext before && !casedNext cs then 'ς' else 'σ') :: lowerFrom (c :: before) cs
    else lowerChar c ++ lowerFrom (c :: before) cs

def lower (s : String) : String := String.ofList (lowerFrom [] s.toList)

def capitalized (s : String) : String :=
  match s.toList with
  | [] => ""
  | c :: cs => String.ofList (upperChar c ++ cs)

def lowerAscii (s : String) : String :=
  String.ofList (s.toList.map Char.toLower)

end ClassDocs.Text
