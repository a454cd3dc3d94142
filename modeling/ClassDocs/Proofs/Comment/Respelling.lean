import ClassDocs.Proofs.Comment.Conservation
import ClassDocs.Proofs.Comment.Decoration

/-! Another spelling for a tag. Where a comment is written with it, decoration and all, the block has the same summary and the same
tags in the same order; only the name of those tags differs. -/
namespace ClassDocs

def Tag.renamed (old new : String) (t : Tag) : Tag := if t.name = old then { t with name := new } else t

def DocBlock.renamed (old new : String) (b : DocBlock) : DocBlock := ⟨b.summary, b.tags.map (Tag.renamed old new)⟩

namespace Comment
open Text

/-- A line without decoration that opens a tag of this name. -/
def opensAs (name : String) (line : List Char) : Bool := opensTag line && (tagName line.tail).1 == name.toList

/-- A line as it is written, with its tag respelled. -/
def respellLine (old new : String) (line : List Char) : List Char :=
  if opensAs old (stripLine line) then
    line.takeWhile (· != '@') ++ '@' :: (new.toList ++ (line.dropWhile (· != '@')).drop (old.length + 1))
  else line

def respellText (old new : String) (s : List Char) : List Char :=
  ['\n'].intercalate ((pieces (· == '\n') s).map (respellLine old new))

def respell (old new raw : String) : String := String.ofList (respellText old new raw.toList)

/-- The same for a line without its decoration. -/
def renameLine (old new : String) (line : List Char) : List Char :=
  if opensAs old line then '@' :: (new.toList ++ line.drop (old.length + 1)) else line

/- What may stand behind the mark as the name of a tag. -/
structure Speakable (name : String) : Prop where
  given : name.toList.isEmpty = false
  within : ∀ c ∈ name.toList, isBlank c = false

theorem trimEndBehind {front : List Char} (within : ∀ c ∈ front, isBlank c = false) (s : List Char) :
    trimEnd (front ++ s) = front ++ trimEnd s := by
  induction front with
  | nil => rfl
  | cons c front ih =>
    rw [List.forall_mem_cons] at within
    rw [List.cons_append, trimEndSolid within.1, ih within.2, List.cons_append]

theorem cutFront {p : Char → Bool} {front : List Char} (within : ∀ c ∈ front, p c = false) {c : Char} (cuts : p c = true)
    (rest : List Char) : cut? p (front ++ c :: rest) = some (front, rest) := by
  induction front with
  | nil => simp [cut?, cuts]
  | cons d front ih =>
    rw [List.forall_mem_cons] at within
    simp [cut?, within.1, ih within.2]

theorem tagNameFront {name rest : List Char} (within : ∀ c ∈ name, isBlank c = false)
    (ends : ∀ c, rest.head? = some c → isBlank c = true) : tagName (name ++ rest) = (name, trim rest) := by
  cases rest with
  | nil =>
    have uncut : cut? isBlank name = none := cutNothing.mpr (List.all_eq_true.mpr fun c hc => by simp [within c hc])
    simp [tagName, uncut, trimNil]
  | cons c rest =>
    have blank := ends c rfl
    have same : trim (c :: rest) = trim rest := by
      rw [trim, trim, ← List.singleton_append, trimStartBlank (by simpa using blank)]
    simp [tagName, cutFront within blank, same]

theorem opensAsParts {name : String} {line : List Char} (opens : opensAs name line = true) :
    ∃ rest, line = '@' :: (name.toList ++ rest) ∧ ∀ c, rest.head? = some c → isBlank c = true := by
  rw [opensAs, Bool.and_eq_true, beq_iff_eq] at opens
  obtain ⟨rest, rfl⟩ := opensMark opens.1
  obtain ⟨after, joins, ends, -, -⟩ := tagNameCut rest
  exact ⟨after, by rw [← opens.2, List.tail_cons, ← joins], ends⟩

theorem renameParts {old : String} (new : String) {line : List Char} (opens : opensAs old line = true) :
    ∃ rest, line = '@' :: (old.toList ++ rest) ∧ renameLine old new line = '@' :: (new.toList ++ rest) ∧
      ∀ c, rest.head? = some c → isBlank c = true := by
  obtain ⟨rest, rfl, ends⟩ := opensAsParts opens
  refine ⟨rest, rfl, ?_, ends⟩
  rw [renameLine, if_pos opens, List.drop_succ_cons, ← String.length_toList, List.drop_left]

theorem trimHead {s rest : List Char} {c : Char} (first : trim s = c :: rest) : isBlank c = false := by
  obtain ⟨blanks, cut, -⟩ := trimEndCut (trimStart s)
  have head := List.head?_dropWhile_not isBlank s
  rw [show s.dropWhile isBlank = c :: (rest ++ blanks) by rw [← List.cons_append, ← first, trim, ← cut]; rfl] at head
  simpa using head

/-- What decoration puts between the indentation and the text. -/
def marks : List (List Char) := [[], ['*'], ['*', ' ']]

/-- A line that opens a tag is indentation, at most one star with at most one blank behind it, and the tag. -/
theorem stripOpens {line s : List Char} (strip : stripLine line = '@' :: s) :
    ∃ indent, ∃ mark ∈ marks, ∃ blanks, line = indent ++ mark ++ '@' :: (s ++ blanks) ∧
      (∀ c ∈ indent, isBlank c = true) ∧ ∀ c ∈ blanks, isBlank c = true := by
  obtain ⟨indent, front, indented⟩ := trimStartCut line
  obtain ⟨trailing, back, trailed⟩ := trimEndCut (trimStart line)
  have whole : line = indent ++ (trim line ++ trailing) := by rw [trim, ← back, ← front]
  obtain ⟨mark, listed, text, marked, stripped⟩ : ∃ mark ∈ marks, ∃ text, trim line = mark ++ text ∧ trimEnd text = '@' :: s := by
    have solidFirst : ∀ rest, trim line ≠ ' ' :: rest := fun rest first => absurd (trimHead first) (by decide)
    rw [stripLine] at strip
    generalize trim line = trimmed at strip solidFirst
    split at strip
    · rename_i rest spaced
      split at spaced
      · exact ⟨['*', ' '], by simp [marks], rest, by rw [spaced]; rfl, strip⟩
      · exact absurd spaced (solidFirst rest)
    · split at strip
      · rename_i rest _
        exact ⟨['*'], by simp [marks], rest, rfl, strip⟩
      · exact ⟨[], by simp [marks], trimmed, rfl, strip⟩
  obtain ⟨blanks, cut, blank⟩ := trimEndCut text
  refine ⟨indent, mark, listed, blanks ++ trailing, ?_, indented, ?_⟩
  · rw [whole, marked, cut, stripped]
    simp
  · simp only [List.mem_append]
    rintro c (here | here)
    · exact blank c here
    · exact trailed c here

theorem stripMarked {indent mark : List Char} (indented : ∀ c ∈ indent, isBlank c = true) (listed : mark ∈ marks) (t : List Char) :
    stripLine (indent ++ mark ++ '@' :: t) = '@' :: trimEnd t := by
  have tagged (s : List Char) : trimEnd ('@' :: s) = '@' :: trimEnd s := trimEndSolid (by decide) s
  have starred (s : List Char) : trimEnd ('*' :: s) = '*' :: trimEnd s := trimEndSolid (by decide) s
  have trimmed : trim (indent ++ mark ++ '@' :: t) = mark ++ '@' :: trimEnd t := by
    rw [trim, List.append_assoc, trimStartBlank indented]
    simp only [marks, List.mem_cons, List.not_mem_nil, or_false] at listed
    rcases listed with rfl | rfl | rfl
    · rw [List.nil_append, trimStartSolid (by decide), tagged, List.nil_append]
    · rw [List.singleton_append, trimStartSolid (by decide), starred, tagged, List.singleton_append]
    · rw [List.cons_append, List.singleton_append, trimStartSolid (by decide), starred, trimEndCons, tagged]
      rfl
  rw [stripLine, trimmed]
  simp only [marks, List.mem_cons, List.not_mem_nil, or_false] at listed
  rcases listed with rfl | rfl | rfl
  all_goals
    show trimEnd ('@' :: trimEnd t) = _
    rw [tagged, trimEndTwice]

/-- A line says the same however it is decorated, and so does its tag under the other name. -/
theorem stripRespelled {old new : String} (said : Speakable old) (told : Speakable new) (line : List Char) :
    stripLine (respellLine old new line) = renameLine old new (stripLine line) := by
  by_cases opens : opensAs old (stripLine line) = true
  · obtain ⟨rest, strip, renamed, -⟩ := renameParts new opens
    obtain ⟨indent, mark, listed, blanks, written, indented, trailed⟩ := stripOpens strip
    have unmarked : ∀ c ∈ indent ++ mark, (c != '@') = true := by
      simp only [List.mem_append, bne_iff_ne]
      rintro c (here | here) rfl
      · exact absurd (indented _ here) (by decide)
      · simp only [marks, List.mem_cons, List.not_mem_nil, or_false] at listed
        rcases listed with rfl | rfl | rfl <;> simp at here
    have respelled : respellLine old new line = indent ++ mark ++ '@' :: (new.toList ++ (rest ++ blanks)) := by
      rw [respellLine, if_pos opens, written, List.takeWhile_append_of_pos unmarked, List.dropWhile_append_of_pos unmarked]
      simp [← String.length_toList]
    have kept : trimEnd rest = rest := by
      have twice : trimEnd (stripLine line) = stripLine line := trimEndTwice _
      rw [strip, trimEndSolid (by decide), trimEndBehind said.within] at twice
      simpa using twice
    rw [respelled, stripMarked indented listed, trimEndBehind told.within, trimEndBlank trailed, kept, renamed]
  · rw [respellLine, if_neg opens, renameLine, if_neg opens]

/-- A text is one line, or a first line with its feed and a text. -/
theorem byLines {motive : List Char → Prop} (last : ∀ s, '\n' ∉ s → motive s)
    (feed : ∀ first rest, '\n' ∉ first → motive rest → motive (first ++ '\n' :: rest)) (s : List Char) : motive s := by
  -- a character in front belongs to the first line, or else it is a feed behind an empty one
  suffices all : ∀ front, '\n' ∉ front → motive (front ++ s) by simpa using all []
  induction s with
  | nil => exact fun front single => last _ (by simpa using single)
  | cons c s ih =>
    intro front single
    by_cases feeds : c = '\n'
    · subst feeds
      exact feed front s single (by simpa using ih [])
    · rw [← List.singleton_append, ← List.append_assoc]
      exact ih (front ++ [c]) (by simp [single, Ne.symm feeds])

theorem respelledSingle (old : String) {new : String} (told : Speakable new) {line : List Char} (single : '\n' ∉ line) :
    '\n' ∉ respellLine old new line := by
  rw [respellLine]
  split
  · simp only [List.mem_append, List.mem_cons, not_or]
    refine ⟨fun here => single ((List.takeWhile_sublist _).mem here), by decide, fun here => ?_, fun here => ?_⟩
    · exact absurd (told.within _ here) (by decide)
    · exact single ((List.dropWhile_sublist _).mem (List.mem_of_mem_drop here))
  · exact single

theorem textLast {old new : String} {s : List Char} (single : '\n' ∉ s) : respellText old new s = respellLine old new s := by
  rw [respellText, piecesWhole fun c hc => by simpa using ne_of_mem_of_not_mem hc single]
  simp

theorem textFirst {old new : String} {first : List Char} (single : '\n' ∉ first) (rest : List Char) :
    respellText old new (first ++ '\n' :: rest) = respellLine old new first ++ '\n' :: respellText old new rest := by
  rw [respellText, piecesFirst (fun c hc => by simpa using ne_of_mem_of_not_mem hc single) rfl, respellText]
  cases given : pieces (· == '\n') rest with
  | nil => simpa [given] using piecesCount (· == '\n') rest
  | cons piece more => simp

theorem linesRespelled {old new : String} (said : Speakable old) (told : Speakable new) (s : List Char) :
    (lines (respellText old new s)).map stripLine = ((lines s).map stripLine).map (renameLine old new) := by
  induction s using byLines with
  | last s single =>
    rw [textLast single]
    by_cases given : s = []
    · subst given
      rfl
    · have kept : respellLine old new s ≠ [] := by
        rw [respellLine]
        split
        · simp
        · exact given
      rw [linesLast single given, linesLast (respelledSingle old told single) kept]
      simp [stripRespelled said told]
  | feed first rest single ih =>
    obtain ⟨line, read, same⟩ := linesFirst single rest
    obtain ⟨line', read', same'⟩ := linesFirst (respelledSingle old told single) (respellText old new rest)
    have stripped : stripLine first = stripLine line := by
      rcases same with rfl | rfl
      · rfl
      · exact stripBlank (List.all_eq_true.mp rfl) line
    have stripped' : stripLine line' = stripLine (respellLine old new first) := by
      rcases same' with same' | same' <;> rw [same']
      exact (stripBlank (List.all_eq_true.mp rfl) line').symm
    rw [textFirst single, read, read']
    simp only [List.map_cons, ih, stripped', stripRespelled said told, stripped]

theorem strippedRespelled {old new : String} (said : Speakable old) (told : Speakable new) (raw : String) :
    strippedLines (respell old new raw) = (strippedLines raw).map (renameLine old new) := by
  rw [strippedLines, respell, String.toList_ofList, linesRespelled said told, strippedLines]

section Sections
variable {old new : String}

theorem renamedOpens (line : List Char) : opensTag (renameLine old new line) = opensTag line := by
  by_cases opens : opensAs old line = true
  · obtain ⟨rest, rfl, renamed, -⟩ := renameParts new opens
    rw [renamed]
    rfl
  · rw [renameLine, if_neg opens]

theorem renamedSections (ls : List (List Char)) :
    sections (ls.map (renameLine old new)) = ((sections ls).1, (sections ls).2.map (Prod.map (renameLine old new) id)) := by
  induction ls with
  | nil => rfl
  | cons line rest ih =>
    rw [List.map_cons, sections, sections, ih]
    cases opens : opensTag line with
    | true => simp [renamedOpens, opens]
    | false =>
      -- only lines that open a tag are changed
      have kept : renameLine old new line = line := by rw [renameLine, opensAs, opens]; rfl
      simp [kept, opens]

section Spoken
variable (said : Speakable old) (told : Speakable new)
include said told

theorem renamedNameless (line : List Char) : isNameless (renameLine old new line) = isNameless line := by
  by_cases opens : opensAs old line = true
  · obtain ⟨rest, rfl, renamed, ends⟩ := renameParts new opens
    simp [renamed, isNameless, tagNameFront told.within ends, tagNameFront said.within ends, said.given, told.given]
  · rw [renameLine, if_neg opens]

theorem renamedTag {line : List Char} (opens : opensTag line = true) (body : List (List Char)) :
    tagOf (renameLine old new line) body = (tagOf line body).renamed old new := by
  by_cases named : opensAs old line = true
  · obtain ⟨rest, rfl, renamed, ends⟩ := renameParts new named
    simp [renamed, tagOf, tagNameFront told.within ends, tagNameFront said.within ends, Tag.renamed]
  · have other : (tagOf line body).name ≠ old := by
      rintro rfl
      simp [opensAs, opens, tagOf] at named
    rw [renameLine, if_neg named, Tag.renamed, if_neg other]

theorem blockRenamed (ls : List (List Char)) : blockOf (ls.map (renameLine old new)) = (blockOf ls).renamed old new := by
  have tags : (sections ls).2.map (fun tag => tagOf (renameLine old new tag.1) tag.2) =
      (sections ls).2.map fun tag => (tagOf tag.1 tag.2).renamed old new :=
    List.map_congr_left fun tag listed => renamedTag said told (sectionsOpen listed) tag.2
  simp only [blockOf, renamedSections, DocBlock.renamed, List.map_map, Function.comp_def, Prod.map, id, tags]

/-- Respelling a tag in a comment renames it in the block. -/
theorem parseRespelled (raw : String) : parse (respell old new raw) = (parse raw).renamed old new := by
  have named : (strippedLines (respell old new raw)).filter (!isNameless ·) =
      ((strippedLines raw).filter (!isNameless ·)).map (renameLine old new) := by
    rw [strippedRespelled said told, List.filter_map]
    exact congrArg _ (List.filter_congr fun line _ => by simp [renamedNameless said told])
  have block (s : String) : parse s = blockOf ((strippedLines s).filter (!isNameless ·)) := rfl
  rw [block, block, named, blockRenamed said told]

end Spoken
end Sections

end Comment
end ClassDocs
