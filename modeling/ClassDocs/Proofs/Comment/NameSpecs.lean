import ClassDocs.Comment
import ClassDocs.Proofs.Text.Trimming

/-! Optional names with a default. The brackets around such a name are closed by the first closing bracket there is, so a
default is read back exactly if it has no square brackets of its own, balanced or not. -/
namespace ClassDocs.NameSpec
open Text

/-- Every square bracket is closed behind it; `depth` ones have been opened before. -/
def balanced (depth : Nat) : List Char → Bool
  | [] => depth == 0
  | '[' :: rest => balanced (depth + 1) rest
  | ']' :: rest => 0 < depth && balanced (depth - 1) rest
  | _ :: rest => balanced depth rest

theorem balancedOpen {depth : Nat} {s : List Char} (h : balanced depth s = true) (unclosed : ']' ∉ s) : depth = 0 ∧ '[' ∉ s := by
  fun_induction balanced depth s with
  | case1 depth => exact ⟨eq_of_beq h, List.not_mem_nil⟩
  | case2 depth rest ih =>
    obtain ⟨none, -⟩ := ih h (mt (List.mem_cons_of_mem _) unclosed)
    contradiction
  | case3 depth rest ih => exact absurd List.mem_cons_self unclosed
  | case4 depth c rest other _ ih =>
    obtain ⟨none, unopened⟩ := ih h (mt (List.mem_cons_of_mem _) unclosed)
    refine ⟨none, ?_⟩
    rintro (_ | ⟨_, later⟩)
    · exact other rfl
    · exact unopened later

/-- A name with the default that is to be written with it. -/
structure Defaulted where
  name : List Char
  defaultText : List Char
  named : name ≠ []
  nameTrimmed : trim name = name
  nameBare : '=' ∉ name ∧ '[' ∉ name ∧ ']' ∉ name
  given : defaultText ≠ []
  defaultTrimmed : trim defaultText = defaultText
  defaultBalanced : balanced 0 defaultText = true

namespace Defaulted
variable (o : Defaulted)

def written (text : List Char) : String :=
  String.ofList ('[' :: (o.name ++ '=' :: (o.defaultText ++ ']' :: ' ' :: text)))

/-- What is meant: the optional name with its default, then the description. -/
def meant (text : List Char) : Option NameSpec × Option String :=
  (some ⟨String.ofList o.name, true, some (String.ofList o.defaultText)⟩, content? text)

/- The brackets reach up to the first closing one. -/
theorem splitWritten {text front behind : List Char} (cut : o.defaultText ++ ']' :: ' ' :: text = front ++ ']' :: behind)
    (first : ']' ∉ front) : split (o.written text) = (some ⟨String.ofList o.name, true, content? front⟩, content? behind) := by
  obtain ⟨noDefault, -, unclosed⟩ := o.nameBare
  have absent : ']' ∉ o.name ++ '=' :: front := by simp [unclosed, first]
  have spelled : o.name.isEmpty = false := by simpa using o.named
  have inner : bracketed? ('[' :: (o.name ++ '=' :: (o.defaultText ++ ']' :: ' ' :: text))) = some (o.name ++ '=' :: front, behind) := by
    rw [cut, bracketed?, ← List.cons_append, ← List.append_assoc, cutAt absent]
  have spec : ofBrackets? (o.name ++ '=' :: front) = some ⟨String.ofList o.name, true, content? front⟩ := by
    rw [ofBrackets?, cutAt noDefault]
    simp only [o.nameTrimmed, spelled, Bool.false_eq_true, if_false]
  rw [split, written, String.toList_ofList, trimStartSolid (by decide), inner]
  exact Prod.ext spec rfl

end Defaulted

/-- A default is read up to the first closing bracket, and what stands behind it is read as description. So name, default and
description come back as they are meant exactly if the default has no square brackets. -/
theorem defaultsReadBack (o : Defaulted) (text : List Char) :
    (∃ front behind, o.defaultText ++ ']' :: ' ' :: text = front ++ ']' :: behind ∧ ']' ∉ front ∧
      split (o.written text) = (some ⟨String.ofList o.name, true, content? front⟩, content? behind)) ∧
    (split (o.written text) = o.meant text ↔ ∀ c ∈ o.defaultText, c ≠ '[' ∧ c ≠ ']') := by
  constructor
  · have closed : ']' ∈ o.defaultText ++ ']' :: ' ' :: text := List.mem_append_right _ List.mem_cons_self
    obtain ⟨front, behind, cut, first⟩ := List.eq_append_cons_of_mem closed
    exact ⟨front, behind, cut, first, o.splitWritten cut first⟩
  constructor
  · intro same
    have unclosed : ']' ∉ o.defaultText := by
      intro closed
      obtain ⟨front, back, cut, first⟩ := List.eq_append_cons_of_mem closed
      have read : split (o.written text) =
          (some ⟨String.ofList o.name, true, content? front⟩, content? (back ++ ']' :: ' ' :: text)) :=
        o.splitWritten (by rw [cut, List.append_assoc, List.cons_append]) first
      have shortened : content? front = some (String.ofList o.defaultText) := by
        rw [same] at read
        exact (congrArg NameSpec.defaultText (Option.some.inj (congrArg Prod.fst read))).symm
      -- what is left out holds a bracket, which is not blank
      have whole : trim front = o.defaultText := by
        rw [← contentText, shortened]
        exact String.toList_ofList
      have letters : solid front = solid front ++ ']' :: solid back := by
        rw [← solidCons (by decide), ← solidAppend, ← cut, ← whole, solidTrim]
      simp at letters
    have unopened := (balancedOpen o.defaultBalanced unclosed).2
    exact fun c hc => ⟨fun opens => unopened (opens ▸ hc), fun closes => unclosed (closes ▸ hc)⟩
  · intro bare
    rw [o.splitWritten rfl fun closed => (bare _ closed).2 rfl, contentTrimmed o.defaultTrimmed o.given, Defaulted.meant,
      ← List.singleton_append, contentBlank (List.all_eq_true.mp rfl)]

def items : Defaulted where
  name := "items".toList
  defaultText := "[]".toList
  named := by decide
  nameTrimmed := by decide
  nameBare := by decide
  given := by decide
  defaultTrimmed := by decide
  defaultBalanced := by decide

/-- An empty list as a default is cut in two. -/
theorem itemsCut :
    items.written "The items.".toList = "[items=[]] The items." ∧
      items.meant "The items.".toList = (some ⟨"items", true, some "[]"⟩, some "The items.") ∧
      split "[items=[]] The items." = (some ⟨"items", true, some "["⟩, some "] The items.") ∧
      split (items.written "The items.".toList) ≠ items.meant "The items.".toList := by decide +kernel

end ClassDocs.NameSpec
