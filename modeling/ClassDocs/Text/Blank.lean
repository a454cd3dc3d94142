/-! Blank characters and what is read off text by them: trimmed text, words, the text before
and after a place. Everything works on lists of characters, so that a statement about a cut is
a statement about `++`. -/
namespace ClassDocs.Text

/-- The characters with the property White_Space. The byte order mark and the zero width
space are not among them. -/
def isBlank (c : Char) : Bool :=
  (0x09 ≤ c.val && c.val ≤ 0x0D) || c.val == 0x20 || c.val == 0x85 || c.val == 0xA0 ||
  c.val == 0x1680 || (0x2000 ≤ c.val && c.val ≤ 0x200A) || c.val == 0x2028 || c.val == 0x2029 ||
  c.val == 0x202F || c.val == 0x205F || c.val == 0x3000

def trimStart (s : List Char) : List Char := s.dropWhile isBlank

def trimEnd (s : List Char) : List Char := (s.reverse.dropWhile isBlank).reverse

def trim (s : List Char) : List Char := trimEnd (trimStart s)

theorem trimNil : trim [] = [] := rfl

def content? (s : List Char) : Option String :=
  let t := trim s
  if t.isEmpty then none else some (String.ofList t)

def isBlankText (s : String) : Bool := s.toList.all isBlank

/-- The maximal runs of characters that are not blank, in order; `run` is the open one,
last character first. -/
def wordsFrom (run : List Char) : List Char → List (List Char)
  | [] => if run.isEmpty then [] else [run.reverse]
  | c :: cs =>
    if isBlank c then
      if run.isEmpty then wordsFrom [] cs else run.reverse :: wordsFrom [] cs
    else wordsFrom (c :: run) cs

theorem wordsSolid {run s w : List Char} (opened : run.any isBlank = false) (h : w ∈ wordsFrom run s) :
    w ≠ [] ∧ w.any isBlank = false := by
  induction s generalizing run with
  | nil =>
    simp only [wordsFrom] at h
    split at h
    · simp at h
    · rename_i hr
      have hw : w = run.reverse := by simpa using h
      subst hw
      exact ⟨by simpa using hr, by simpa using opened⟩
  | cons c cs ih =>
    simp only [wordsFrom] at h
    by_cases hc : isBlank c = true
    · simp only [hc, if_true] at h
      split at h
      · exact ih (by simp) h
      · rename_i hr
        cases List.mem_cons.1 h with
        | inl hw =>
          subst hw
          exact ⟨by simpa using hr, by simpa using opened⟩
        | inr hw => exact ih (by simp) hw
    · simp only [hc, Bool.false_eq_true, if_false] at h
      exact ih (by simp [hc] at opened ⊢; exact opened) h

def words (s : String) : List String := (wordsFrom [] s.toList).map String.ofList

def firstWord? (s : String) : Option String := (words s).head?

/-- The text before and after the first character with the property `p`, which is in neither
part; `none` when there is no such character. -/
def cut? (p : Char → Bool) : List Char → Option (List Char × List Char)
  | [] => none
  | c :: cs =>
    if p c then some ([], cs) else (cut? p cs).map fun parts => (c :: parts.1, parts.2)

theorem cutNothing {p : Char → Bool} {s : List Char} : cut? p s = none ↔ s.all (!p ·) = true := by
  induction s with
  | nil => simp [cut?]
  | cons c cs ih => by_cases hc : p c = true <;> simp [cut?, hc, ih]

theorem cutJoins {p : Char → Bool} {s before after : List Char}
    (h : cut? p s = some (before, after)) :
    ∃ c, p c = true ∧ s = before ++ c :: after ∧ before.all (!p ·) = true := by
  induction s generalizing before with
  | nil => simp [cut?] at h
  | cons c cs ih =>
    by_cases hc : p c = true
    · simp only [cut?, hc, if_true, Option.some.injEq, Prod.mk.injEq] at h
      obtain ⟨rfl, rfl⟩ := h
      exact ⟨c, hc, rfl, rfl⟩
    · simp only [cut?, hc, Bool.false_eq_true, if_false, Option.map_eq_some_iff] at h
      obtain ⟨⟨b, a⟩, hba, heq⟩ := h
      cases heq
      obtain ⟨d, hd, hs, hb⟩ := ih hba
      exact ⟨d, hd, by simp [hs], by simpa [hc] using hb⟩

/-- The pieces between the characters with the property `p`; one more piece than such
characters. -/
def pieces (p : Char → Bool) : List Char → List (List Char)
  | [] => [[]]
  | c :: cs =>
    if p c then [] :: pieces p cs
    else match pieces p cs with
      | [] => [[c]]
      | piece :: rest => (c :: piece) :: rest

theorem piecesCount (p : Char → Bool) (s : List Char) : (pieces p s).length = s.countP p + 1 := by
  induction s with
  | nil => rfl
  | cons c cs ih =>
    by_cases hc : p c = true
    · simp [pieces, hc, ih]
    · cases hp : pieces p cs with
      | nil => simp [hp] at ih
      | cons piece rest => simpa [pieces, hc, hp] using ih

def dropEnding? (ending s : String) : Option String :=
  (ending.toList.reverse.isPrefixOf? s.toList.reverse).map fun rest => String.ofList rest.reverse

theorem frontJoins {front s rest : List Char} (h : front.isPrefixOf? s = some rest) :
    s = front ++ rest := by
  induction front generalizing s with
  | nil =>
    change some s = some rest at h
    simpa using h
  | cons c cs ih =>
    cases s with
    | nil =>
      change none = some rest at h
      contradiction
    | cons d ds =>
      change (if c == d then cs.isPrefixOf? ds else none) = some rest at h
      split at h
      · rename_i same
        simp [eq_of_beq same, ih h]
      · contradiction

theorem endingJoins {ending s rest : String} (h : dropEnding? ending s = some rest) :
    s = rest ++ ending := by
  simp only [dropEnding?, Option.map_eq_some_iff] at h
  obtain ⟨front, hf, rfl⟩ := h
  have back := congrArg List.reverse (frontJoins hf)
  simp only [List.reverse_append, List.reverse_reverse] at back
  apply String.toList_injective
  simp [back]

def replaceChar (old : Char) (new : List Char) (s : List Char) : List Char :=
  s.flatMap fun c => if c == old then new else [c]

def joined (sep : String) : List String → String
  | [] => ""
  | [s] => s
  | s :: rest => s ++ sep ++ joined sep rest

end ClassDocs.Text
