import Mathlib.Data.List.Forall2
import ClassDocs.Comment
import ClassDocs.Proofs.Text.Trimming

/-! A comment keeps its text. What its lines say is said by the summary and the tags, in order and with nothing but blanks lost,
if every `@` has a name behind it and no tag an empty type. -/
namespace ClassDocs

def inBraces : Option String → List Char
  | some type => '\x7b' :: (type.toList ++ ['\x7d'])
  | none => []

/-- The text of a tag, as it may stand in a comment. -/
def Tag.written (t : Tag) : List Char := '@' :: (t.name.toList ++ inBraces t.typeHint ++ t.body.toList)

def DocBlock.written (b : DocBlock) : List Char := (b.summary.getD "").toList ++ b.tags.flatMap Tag.written

namespace Comment
open Text

/- The tag is called what the line has behind its mark, up to a blank. -/
structure Opens (line : List Char) (t : Tag) : Prop where
  called : ∃ rest, line = '@' :: (t.name.toList ++ rest) ∧ ∀ c, rest.head? = some c → isBlank c = true
  unbroken : ∀ c ∈ t.name.toList, isBlank c = false

/-- The name of a tag line, and what follows the blank behind it. -/
theorem tagNameCut (line : List Char) :
    ∃ rest, line = (tagName line).1 ++ rest ∧ (∀ c, rest.head? = some c → isBlank c = true) ∧
      (∀ c ∈ (tagName line).1, isBlank c = false) ∧ (tagName line).2 = trim rest := by
  unfold tagName
  split
  · rename_i name rest cut
    obtain ⟨c, blank, joins, within⟩ := cutJoins cut
    refine ⟨c :: rest, joins, ?_, fun d hd => by simpa using List.all_eq_true.mp within d hd, ?_⟩
    · rintro d ⟨⟩
      exact blank
    · rw [trim, trim, ← List.singleton_append, trimStartBlank (by simpa using blank)]
  · rename_i none
    refine ⟨[], (List.append_nil line).symm, ?_, fun c hc => by simpa using List.all_eq_true.mp (cutNothing.mp none) c hc, rfl⟩
    rintro c ⟨⟩

/- What a tag line has behind the name. -/
def behindName (parts : Option String × Option String) : List Char := inBraces parts.1 ++ (parts.2.getD "").toList

theorem opensMark {line : List Char} (opens : opensTag line = true) : ∃ rest, line = '@' :: rest := by
  unfold opensTag at opens
  split at opens
  · rename_i rest
    exact ⟨rest, rfl⟩
  · contradiction

/-- The block that the lines come to, once those without a name are left out. -/
def blockOf (ls : List (List Char)) : DocBlock :=
  ⟨joinLines? (sections ls).1, (sections ls).2.map fun tag => tagOf tag.1 tag.2⟩

end Comment
end ClassDocs
