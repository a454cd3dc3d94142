import Mathlib.Data.List.Infix
import ClassDocs.Comment
import ClassDocs.Proofs.Script.Bytes
import ClassDocs.Proofs.Text.Trimming

/-! Types in braces. A scanner that keeps the number of open braces and cuts the text at byte offsets never closes a brace when none is
open and never cuts a character in two: it stops at the first brace with which all are closed. -/
namespace ClassDocs.Comment
open Text
open Script (byteLength byteLengthNil byteLengthCons byteLengthAppend)

/-- The text in front of a byte offset and the text behind it. An offset inside a character, or behind the end, cuts nothing. -/
def cutAtByte? : Nat → List Char → Option (List Char × List Char)
  | 0, s => some ([], s)
  | _ + 1, [] => none
  | offset + 1, c :: s =>
    if c.utf8Size ≤ offset + 1 then (cutAtByte? (offset + 1 - c.utf8Size) s).map fun parts => (c :: parts.1, parts.2) else none

inductive Scan where
  /-- A brace was to be closed, but none was open. -/
  | fault
  | unclosed
  /-- The offset of the brace with which all are closed. -/
  | closed (offset : Nat)

/-- Counts the braces that are open from the byte offset on. -/
def scan (opened offset : Nat) : List Char → Scan
  | [] => .unclosed
  | c :: s =>
    if c = '\x7b' then scan (opened + 1) (offset + c.utf8Size) s
    else if c = '\x7d' then
      match opened with
      | 0 => .fault
      | opened + 1 => if opened = 0 then .closed offset else scan opened (offset + c.utf8Size) s
    else scan opened (offset + c.utf8Size) s

/-- The type and the rest by the counter and by byte offsets. There is none if the counter or an offset is at fault. -/
def scannedType? (payload : List Char) : Option (Option String × Option String) :=
  let text := trim payload
  if text.head? = some '\x7b' then
    match scan 0 0 text with
    | .fault => none
    | .unclosed => some (none, content? text)
    | .closed offset => do
      let (front, _) ← cutAtByte? offset text
      let (_, type) ← cutAtByte? 1 front
      let (_, after) ← cutAtByte? (offset + 1) text
      some (content? type, content? after)
  else some (none, content? text)

/-- As many closing braces as opening ones. -/
def Balanced (s : List Char) : Prop := s.count '\x7b' = s.count '\x7d'

instance (s : List Char) : Decidable (Balanced s) := inferInstanceAs (Decidable (_ = _))

/-- The shortest balanced beginning of the text, the empty one apart. -/
structure FirstBalanced (text front : List Char) : Prop where
  isPrefix : front <+: text
  nonempty : front ≠ []
  balanced : Balanced front
  first : ∀ other, other <+: text → other ≠ [] → Balanced other → front.length ≤ other.length

theorem cutAtLength (front behind : List Char) : cutAtByte? (byteLength front) (front ++ behind) = some (front, behind) := by
  induction front with
  | nil => rw [byteLengthNil, List.nil_append, cutAtByte?.eq_1]
  | cons c front ih =>
    obtain ⟨n, size⟩ : ∃ n, c.utf8Size = n + 1 := ⟨c.utf8Size - 1, by have := c.utf8Size_pos; omega⟩
    have offset : byteLength (c :: front) = n + byteLength front + 1 := by rw [byteLengthCons, size]; omega
    have rest : n + byteLength front + 1 - c.utf8Size = byteLength front := by omega
    rw [offset, List.cons_append, cutAtByte?, if_pos (by omega), rest, ih]
    rfl

/- The counter stands for the braces that are still open, so that it is never at fault behind the first one. -/
theorem scanClosing (inner offset : Nat) (s : List Char) : scan (inner + 1) offset s =
    match closingBrace inner s with
    | some (type, _) => .closed (offset + byteLength type)
    | none => .unclosed := by
  fun_induction closingBrace inner s generalizing offset with
  | case1 => rfl
  | case2 inner rest ih =>
    rw [scan, if_pos rfl, ih]
    cases closingBrace (inner + 1) rest <;> simp [Nat.add_assoc]
  | case3 => rfl
  | case4 rest inner noOpen ih =>
    rw [scan, if_neg noOpen, if_pos rfl]
    simp only [Nat.succ_ne_zero, if_false, ih]
    cases closingBrace inner rest <;> simp [Nat.add_assoc]
  | case5 inner c rest noOpen noClose ih =>
    rw [scan, if_neg noOpen, if_neg noClose, ih]
    cases closingBrace inner rest <;> simp [Nat.add_assoc]

/-- No beginning of the text closes more braces than it opens, those that were open before counted in. -/
def StaysOpen (inner : Nat) (s : List Char) : Prop := ∀ front, front <+: s → front.count '\x7d' ≤ front.count '\x7b' + inner

theorem StaysOpen.cons {c : Char} {s : List Char} {inner inner' : Nat} (rest : StaysOpen inner' s)
    (step : [c].count '\x7d' + inner' ≤ [c].count '\x7b' + inner) : StaysOpen inner (c :: s) := by
  intro front begins
  rcases List.prefix_cons_iff.mp begins with rfl | ⟨front, rfl, inside⟩
  · exact Nat.zero_le _
  · have later := rest front inside
    rw [← List.singleton_append, List.count_append, List.count_append]
    omega

theorem StaysOpen.opening {s : List Char} {inner : Nat} (rest : StaysOpen (inner + 1) s) : StaysOpen inner ('\x7b' :: s) := by
  refine rest.cons ?_
  show 0 + (inner + 1) ≤ 1 + inner
  omega

theorem StaysOpen.closing {s : List Char} {inner : Nat} (rest : StaysOpen inner s) : StaysOpen (inner + 1) ('\x7d' :: s) := by
  refine rest.cons ?_
  show 1 + inner ≤ 0 + (inner + 1)
  omega

theorem closingBraceFirst {inner : Nat} {s type after : List Char} (h : closingBrace inner s = some (type, after)) :
    type.count '\x7d' = type.count '\x7b' + inner ∧ StaysOpen inner type := by
  fun_induction closingBrace inner s generalizing type with
  | case1 => contradiction
  | case2 inner rest ih =>
    obtain ⟨⟨t, a⟩, found, same⟩ := Option.map_eq_some_iff.mp h
    cases same
    obtain ⟨balanced, stays⟩ := ih found
    exact ⟨by simp [balanced]; omega, stays.opening⟩
  | case3 =>
    cases h
    exact ⟨rfl, fun front begins => by simp [List.prefix_nil.mp begins]⟩
  | case4 rest inner noOpen ih =>
    obtain ⟨⟨t, a⟩, found, same⟩ := Option.map_eq_some_iff.mp h
    cases same
    obtain ⟨balanced, stays⟩ := ih found
    exact ⟨by simp [balanced]; omega, stays.closing⟩
  | case5 inner c rest noOpen noClose ih =>
    obtain ⟨⟨t, a⟩, found, same⟩ := Option.map_eq_some_iff.mp h
    cases same
    obtain ⟨balanced, stays⟩ := ih found
    exact ⟨by simp [balanced, noOpen, noClose], stays.cons (by simp [noOpen, noClose])⟩

theorem closingBraceNone {inner : Nat} {s : List Char} (h : closingBrace inner s = none) : StaysOpen inner s := by
  fun_induction closingBrace inner s with
  | case1 => exact fun front begins => by simp [List.prefix_nil.mp begins]
  | case2 inner rest ih => exact (ih (Option.map_eq_none_iff.mp h)).opening
  | case3 => contradiction
  | case4 rest inner noOpen ih => exact (ih (Option.map_eq_none_iff.mp h)).closing
  | case5 inner c rest noOpen noClose ih =>
    exact (ih (Option.map_eq_none_iff.mp h)).cons (by simp [noOpen, noClose])

theorem StaysOpen.unbalanced {s : List Char} (stays : StaysOpen 0 s) {front : List Char} (begins : front <+: '\x7b' :: s)
    (some : front ≠ []) : ¬Balanced front := by
  intro balanced
  rcases List.prefix_cons_iff.mp begins with rfl | ⟨front, rfl, inside⟩
  · exact some rfl
  · have closes := stays front inside
    have all : front.count '\x7b' + 1 = front.count '\x7d' := by simpa [Balanced] using balanced
    omega

/- Up to the closing brace is the first beginning of the text with as many closing braces as opening ones. -/
theorem firstOfClosing {s type after : List Char} (h : closingBrace 0 s = some (type, after)) :
    FirstBalanced ('\x7b' :: s) ('\x7b' :: (type ++ ['\x7d'])) := by
  obtain ⟨balanced, stays⟩ := closingBraceFirst h
  have text := closingBraceJoins h
  refine ⟨⟨after, by simp [text]⟩, List.cons_ne_nil _ _, by simp [Balanced, balanced], fun other begins some same => ?_⟩
  by_contra shorter
  have within : other <+: '\x7b' :: type := by
    have whole : '\x7b' :: type <+: '\x7b' :: s := ⟨'\x7d' :: after, by simp [text]⟩
    refine List.prefix_of_prefix_length_le begins whole ?_
    simp at shorter ⊢
    omega
  exact stays.unbalanced within some same

theorem scannedSame (payload : List Char) : scannedType? payload = some (typeAndRest payload) := by
  have whole : content? (trim payload) = content? payload := by simp only [content?, trimTwice]
  unfold scannedType? typeAndRest
  split
  · rename_i inside text
    rw [text] at whole
    have scanned : scan 0 0 ('\x7b' :: inside) = scan (0 + 1) 1 inside := rfl
    simp only [text, List.head?_cons, if_true, scanned, scanClosing]
    cases found : closingBrace 0 inside with
    | none => simp only [whole]
    | some parts =>
      obtain ⟨type, after⟩ := parts
      have joins := closingBraceJoins found
      have sizes : '\x7b'.utf8Size = 1 ∧ '\x7d'.utf8Size = 1 := by decide
      have toBrace : cutAtByte? (1 + byteLength type) ('\x7b' :: inside) = some ('\x7b' :: type, '\x7d' :: after) := by
        have cut := cutAtLength ('\x7b' :: type) ('\x7d' :: after)
        simpa [joins, sizes] using cut
      have overBrace : cutAtByte? (1 + byteLength type + 1) ('\x7b' :: inside) = some ('\x7b' :: (type ++ ['\x7d']), after) := by
        have cut := cutAtLength ('\x7b' :: (type ++ ['\x7d'])) after
        simpa [joins, sizes, Nat.add_assoc] using cut
      have toType : cutAtByte? 1 ('\x7b' :: type) = some (['\x7b'], type) := cutAtLength ['\x7b'] type
      simp [toBrace, overBrace, toType]
  · rename_i other
    have closed : (trim payload).head? ≠ some '\x7b' := by
      intro opens
      obtain ⟨inside, text⟩ := List.head?_eq_some_iff.mp opens
      exact other inside text
    simp only [closed, if_false, whole]

/-- The counter is never at fault and the text is cut between characters only. A text that opens with a brace has its type up to the
shortest beginning with as many closing braces as opening ones; without such a beginning it has none and is all there is. -/
theorem typeInBraces (payload : List Char) :
    scannedType? payload = some (typeAndRest payload) ∧
      ((trim payload).head? = some '\x7b' ∧ (∃ front, front <+: trim payload ∧ front ≠ [] ∧ Balanced front) →
        ∃ type after, trim payload = '\x7b' :: (type ++ '\x7d' :: after) ∧
          FirstBalanced (trim payload) ('\x7b' :: (type ++ ['\x7d'])) ∧ typeAndRest payload = (content? type, content? after)) ∧
      (¬((trim payload).head? = some '\x7b' ∧ ∃ front, front <+: trim payload ∧ front ≠ [] ∧ Balanced front) →
        typeAndRest payload = (none, content? payload)) := by
  refine ⟨scannedSame payload, fun ⟨opens, front, begins, nonempty, balanced⟩ => ?_, fun none => ?_⟩
  · obtain ⟨inside, text⟩ := List.head?_eq_some_iff.mp opens
    rw [text] at begins ⊢
    cases found : closingBrace 0 inside with
    | some parts =>
      obtain ⟨type, after⟩ := parts
      exact ⟨type, after, by rw [closingBraceJoins found], firstOfClosing found, by simp [typeAndRest, text, found]⟩
    | none => exact absurd balanced ((closingBraceNone found).unbalanced begins nonempty)
  · unfold typeAndRest
    split
    · rename_i inside text
      cases found : closingBrace 0 inside with
      | some parts =>
        have first := firstOfClosing found
        exact absurd ⟨by rw [text]; rfl, _, text ▸ first.isPrefix, first.nonempty, first.balanced⟩ none
      | none => rfl
    · rfl

/-- A type with braces and a letter of two bytes in it. -/
def sizesPayload : List Char := "\x7bgröße: \x7bw: Number\x7d\x7d opts".toList

/-- The same type without its last brace. -/
def openPayload : List Char := "\x7bgröße: \x7bw: Number\x7d opts".toList

theorem sizesTyped :
    ((trim sizesPayload).head? = some '\x7b' ∧ (∃ front, front <+: trim sizesPayload ∧ front ≠ [] ∧ Balanced front)) ∧
      (∃ type after, trim sizesPayload = '\x7b' :: (type ++ '\x7d' :: after) ∧
        FirstBalanced (trim sizesPayload) ('\x7b' :: (type ++ ['\x7d'])) ∧
        typeAndRest sizesPayload = (content? type, content? after)) ∧
      (¬∃ front, front <+: trim openPayload ∧ front ≠ [] ∧ Balanced front) ∧
      typeAndRest openPayload = (none, some (String.ofList openPayload)) := by
  have typed : (trim sizesPayload).head? = some '\x7b' ∧ (∃ front, front <+: trim sizesPayload ∧ front ≠ [] ∧ Balanced front) :=
    ⟨by decide +kernel, _, List.take_prefix 20 _, by decide +kernel, by decide +kernel⟩
  have untyped : ¬∃ front, front <+: trim openPayload ∧ front ≠ [] ∧ Balanced front := by
    rintro ⟨front, begins, nonempty, balanced⟩
    have none : ∀ front ∈ (trim openPayload).inits, front ≠ [] → ¬Balanced front := by decide +kernel
    exact none front ((List.mem_inits front _).mpr begins) nonempty balanced
  exact ⟨typed, (typeInBraces sizesPayload).2.1 typed, untyped,
    ((typeInBraces openPayload).2.2 fun both => untyped both.2).trans (by decide +kernel)⟩

end ClassDocs.Comment
