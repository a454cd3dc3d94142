import ClassDocs.Proofs.Registry.Related
import ClassDocs.Proofs.Run.Findings
import ClassDocs.Proofs.Script.Names
import ClassDocs.Proofs.Text.Trimming

/-! Names of classes in a type. Each decoration is taken off by a step of its own, and none of the steps reaches into the
name; so a type names just the classes that it is written with, and each unknown one is told where it stands. -/
namespace ClassDocs

namespace TypeText
open Text Script

/-- What is written around names in types, and what tells that a text is no name. -/
def typeMarks : List Char := "/|,.?![]=\x7b\"'<(:-".toList

structure Plain (c : Char) : Prop where
  solid : Text.isBlank c = false
  unmarked : c ∉ typeMarks

theorem Plain.other {c d : Char} (h : Plain c) (mark : d ∈ typeMarks) : (c == d) = false :=
  beq_eq_false_iff_ne.mpr fun same => h.unmarked (same ▸ mark)

theorem plainPart {c : Char} (h : isNamePart c = true) : Plain c := by
  constructor
  · refine Bool.eq_false_iff.mpr fun blank => ?_
    rw [blankNoPart blank] at h
    contradiction
  · have marks : (typeMarks.all fun d => !isNamePart d) = true := by decide +kernel
    intro mark
    have other := List.all_eq_true.mp marks c mark
    rw [h] at other
    contradiction

/-- Identifiers with dots between them. -/
structure DottedName where
  first : Identifier
  more : List Identifier

namespace DottedName

def text (n : DottedName) : List Char := n.first.text ++ n.more.flatMap fun next => '.' :: next.text

theorem textChars (n : DottedName) : ∀ c ∈ n.text, Plain c ∨ c = '.' := by
  intro c hc
  rcases List.mem_append.mp hc with first | more
  · exact .inl (plainPart (n.first.textParts c first))
  · obtain ⟨next, -, inside⟩ := List.mem_flatMap.mp more
    rcases List.mem_cons.mp inside with rfl | later
    · exact .inr rfl
    · exact .inl (plainPart (next.textParts c later))

theorem textStart (n : DottedName) : Plain n.first.first := plainPart (startPart n.first.starts)

/- A name ends with an identifier, so not with a dot. -/
theorem textLast (n : DottedName) : ∃ front last, n.text = front ++ [last] ∧ Plain last := by
  obtain ⟨front, last, ends⟩ : ∃ front, ∃ last : Identifier, n.text = front ++ last.text := by
    unfold text
    rcases List.eq_nil_or_concat n.more with none | ⟨front, last, more⟩
    · exact ⟨[], n.first, by rw [none]; simp⟩
    · exact ⟨n.first.text ++ (front.flatMap fun next => '.' :: next.text) ++ ['.'], last, by rw [more]; simp⟩
  have given : last.text ≠ [] := List.cons_ne_nil _ _
  refine ⟨front ++ last.text.dropLast, last.text.getLast given, ?_, plainPart (last.textParts _ (List.getLast_mem given))⟩
  rw [ends, List.append_assoc, List.dropLast_append_getLast]

end DottedName

def times (n : Nat) (s : List Char) : List Char := (List.replicate n s).flatten

theorem timesSucc (n : Nat) (s : List Char) : times (n + 1) s = s ++ times n s := rfl

theorem timesReverse (n : Nat) (s : List Char) : (times n s).reverse = times n s.reverse := by
  rw [times, List.reverse_flatten, List.map_replicate, List.reverse_replicate, times]

theorem memTimes {n : Nat} {s : List Char} {c : Char} (h : c ∈ times n s) : c ∈ s := by
  obtain ⟨piece, listed, inside⟩ := List.mem_flatten.mp h
  exact (List.eq_of_mem_replicate listed) ▸ inside

inductive Joint where
  | slash
  | bar
  | comma

def Joint.char : Joint → Char
  | slash => '/'
  | bar => '|'
  | comma => ','

/-- A class as a type names it. -/
structure Mention where
  /-- What joins it to the one before; nothing is written in front of the first one. -/
  joint : Joint
  indent : List Char
  leadingDots : Nat
  marks : List Char
  name : DottedName
  arrays : Nat
  optionals : Nat
  trailingDots : Nat
  trailing : List Char
  indented : ∀ c ∈ indent, isBlank c = true
  trailed : ∀ c ∈ trailing, isBlank c = true
  marked : ∀ c ∈ marks, c = '?' ∨ c = '!'

namespace Mention

def element (m : Mention) : List Char := m.name.text ++ times m.arrays "[]".toList

def optional (m : Mention) : List Char := m.element ++ times m.optionals "=".toList

def nullable (m : Mention) : List Char := m.marks ++ m.optional

def bare (m : Mention) : List Char :=
  times m.leadingDots "...".toList ++ (m.nullable ++ times m.trailingDots "...".toList)

def text (m : Mention) : List Char := m.indent ++ m.bare ++ m.trailing

def className (m : Mention) : String := String.ofList m.name.text

/-- A type that names these classes. -/
def written : List Mention → List Char
  | [] => []
  | m :: rest => m.text ++ rest.flatMap fun next => next.joint.char :: next.text

end Mention

/- Takes a mark off the front as often as it stands there, and nothing else. -/
structure Strips (strip : List Char → List Char) (mark : List Char) : Prop where
  again : ∀ s, strip (mark ++ s) = strip s
  stops : ∀ s, s.head? ≠ mark.head? → strip s = s

section Strips
variable {strip : List Char → List Char} {mark s : List Char}

theorem Strips.front (h : Strips strip mark) (n : Nat) (other : s.head? ≠ mark.head?) : strip (times n mark ++ s) = s := by
  induction n with
  | zero => exact h.stops s other
  | succ n ih => rw [timesSucc, List.append_assoc, h.again, ih]

theorem Strips.back (h : Strips strip mark.reverse) (n : Nat) (other : s.getLast? ≠ mark.getLast?) :
    (strip (s ++ times n mark).reverse).reverse = s := by
  rw [List.reverse_append, timesReverse, h.front n (by simpa using other), List.reverse_reverse]

theorem stripsDots : Strips dropDots "...".toList where
  again _ := rfl
  stops s other := by
    unfold dropDots
    split
    · exact absurd rfl other
    · rfl

theorem stripsArrays : Strips dropBrackets "[]".toList.reverse where
  again _ := rfl
  stops s other := by
    unfold dropBrackets
    split
    · exact absurd rfl other
    · rfl

theorem stripsOptionals : Strips (List.dropWhile (· == '=')) "=".toList.reverse where
  again _ := rfl
  stops s other := by
    cases s with
    | nil => rfl
    | cons c rest =>
      have apart : (c == '=') = false := beq_eq_false_iff_ne.mpr fun same => other (by rw [same]; rfl)
      rw [List.dropWhile_cons_of_neg (by simp [apart])]

theorem lastTimes {c : Char} (n : Nat) (apart : mark.getLast? ≠ some c) (other : s.getLast? ≠ some c) :
    (s ++ times n mark).getLast? ≠ some c := by
  induction n generalizing s with
  | zero => rwa [times, List.replicate_zero, List.flatten_nil, List.append_nil]
  | succ n ih =>
    rw [timesSucc, ← List.append_assoc]
    refine ih ?_
    rw [List.getLast?_append]
    cases ending : mark.getLast? with
    | none => exact other
    | some d => rwa [Option.some_or, ← ending]

end Strips

namespace Mention
variable (m : Mention)

theorem bareChars : ∀ c ∈ m.bare, Plain c ∨ c ∈ "...?![]=".toList := by
  intro c hc
  simp only [bare, nullable, optional, element, List.mem_append] at hc
  rcases hc with dots | (mark | (name | array) | optional) | dots
  · exact .inr (List.mem_append_left "?![]=".toList (memTimes dots))
  · rcases m.marked c mark with rfl | rfl <;> exact .inr (by decide)
  · refine (m.name.textChars c name).imp_right ?_
    rintro rfl
    decide
  · exact .inr (List.mem_append_right "...?!".toList (List.mem_append_left "=".toList (memTimes array)))
  · exact .inr (List.mem_append_right "...?![]".toList (memTimes optional))
  · exact .inr (List.mem_append_left "?![]=".toList (memTimes dots))

theorem bareAll (p : Char → Bool) (plain : ∀ c, Plain c → p c = true) (marks : "...?![]=".toList.all p = true) :
    ∀ c ∈ m.bare, p c = true := by
  intro c hc
  rcases m.bareChars c hc with part | mark
  · exact plain c part
  · exact List.all_eq_true.mp marks c mark

theorem bareSolid : ∀ c ∈ m.bare, isBlank c = false := by
  intro c hc
  have kept := m.bareAll (!isBlank ·) (fun c plain => by rw [plain.solid]; rfl) (by decide +kernel) c hc
  rwa [Bool.not_eq_true'] at kept

section Ends
variable {c : Char} (mark : c ∈ typeMarks)
include mark

theorem nameFirst : m.name.text.head? ≠ some c := by
  rintro ⟨⟩
  exact m.name.textStart.unmarked mark

theorem nameLast (s : List Char) : (s ++ m.name.text).getLast? ≠ some c := by
  obtain ⟨front, last, ends, plain⟩ := m.name.textLast
  rw [ends, ← List.append_assoc, List.getLast?_concat]
  rintro ⟨⟩
  exact plain.unmarked mark

end Ends

theorem leadingDotsDropped : dropDots m.bare = m.nullable ++ times m.trailingDots "...".toList := by
  refine stripsDots.front _ ?_
  have first : m.optional.head? ≠ some '.' := m.nameFirst (by decide)
  unfold nullable
  cases marks : m.marks with
  | nil => exact first
  | cons c rest =>
    rintro ⟨⟩
    rcases m.marked '.' (by rw [marks]; exact List.mem_cons_self) with dot | dot <;> contradiction

theorem trailingDotsDropped : (dropDots (m.nullable ++ times m.trailingDots "...".toList).reverse).reverse = m.nullable := by
  refine stripsDots.back _ ?_
  unfold nullable optional element
  rw [← List.append_assoc, ← List.append_assoc]
  exact lastTimes _ (by decide) (lastTimes _ (by decide) (m.nameLast (by decide) _))

theorem marksDropped : m.nullable.dropWhile (fun c => c == '?' || c == '!') = m.optional := by
  have marks : ∀ c ∈ m.marks, (c == '?' || c == '!') = true := fun c hc => by simpa using m.marked c hc
  have start := m.name.textStart.unmarked
  have other : ¬(m.name.first.first == '?' || m.name.first.first == '!') = true := by
    rw [Bool.or_eq_true, beq_iff_eq, beq_iff_eq]
    rintro (same | same) <;> exact start (same ▸ by decide)
  rw [nullable, List.dropWhile_append_of_pos marks]
  exact List.dropWhile_cons_of_neg other

theorem optionalsDropped : dropEnd (· == '=') m.optional = m.element :=
  stripsOptionals.back _ (lastTimes _ (by decide) (m.nameLast (by decide) []))

theorem arraysDropped : (dropBrackets m.element.reverse).reverse = m.name.text :=
  stripsArrays.back _ (m.nameLast (by decide) [])

theorem bareName : TypeText.bareName m.text = m.name.text := by
  have trimmed : trim m.text = m.bare := trimBetween m.indented m.trailed m.bareSolid
  have whole : trim m.name.text = m.name.text := by
    refine trimWhole fun c hc => m.bareSolid c ?_
    simp [bare, nullable, optional, element, hc]
  rw [TypeText.bareName, trimmed, leadingDotsDropped, trailingDotsDropped, marksDropped, optionalsDropped, arraysDropped, whole]

example : names "String/Number[]|...Ext.Element=, ?Object" = ["String", "Number", "Ext.Element", "Object"] := by decide +kernel

end Mention
end TypeText

namespace Lint
open TypeText
variable (g : ClassGraph) (c : ClassRecord)

end Lint

end ClassDocs
