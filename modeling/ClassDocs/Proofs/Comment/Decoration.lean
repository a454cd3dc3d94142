import ClassDocs.Comment
import ClassDocs.Proofs.Text.Trimming

/-! Decoration of a comment. Whatever stands in front of the stars and behind the text, and however the lines end, the lines are
read as the text that they were written with. -/
namespace ClassDocs.Comment
open Text

/-- A line of a comment as it is written: a star with one blank behind it, then the text. -/
structure Line where
  indent : List Char
  content : List Char
  trailing : List Char
  /-- Whether a carriage return stands before the line feed. -/
  returns : Bool
  indented : ∀ c ∈ indent, isBlank c = true
  trailed : ∀ c ∈ trailing, isBlank c = true
  single : '\n' ∉ indent ++ content ++ trailing

namespace Line

def text (l : Line) : List Char := l.indent ++ '*' :: ' ' :: (l.content ++ l.trailing)

def ending (l : Line) : List Char := if l.returns then ['\r', '\n'] else ['\n']

/-- The lines one after another; `closed` tells whether the last one is ended too. -/
def written (closed : Bool) : List Line → List Char
  | [] => []
  | [l] => l.text ++ if closed then l.ending else []
  | l :: next :: rest => l.text ++ l.ending ++ written closed (next :: rest)

/-- The same text without indentation, trailing blanks and carriage returns. -/
def plain (l : Line) : Line where
  indent := []
  content := l.content
  trailing := []
  returns := false
  indented := nofun
  trailed := nofun
  single := fun feed => l.single (by simpa using .inr (.inl (by simpa using feed)))

end Line

theorem linesNext {c : Char} {cs line : List Char} {more : List (List Char)} (feed : c ≠ '\n')
    (whole : ¬(c = '\r' ∧ cs.head? = some '\n')) (read : lines cs = line :: more) : lines (c :: cs) = (c :: line) :: more := by
  rw [lines]
  · rw [read]
  · exact feed
  · rintro ds rfl rfl
    exact whole ⟨rfl, rfl⟩

/- A line is read without its line feed, and maybe without a carriage return that it ends with. -/
theorem linesFirst {s : List Char} (single : '\n' ∉ s) (rest : List Char) :
    ∃ line, lines (s ++ '\n' :: rest) = line :: lines rest ∧ (s = line ∨ s = line ++ ['\r']) := by
  induction s with
  | nil => exact ⟨[], linesFeed rest, .inl rfl⟩
  | cons c s ih =>
    rw [List.mem_cons, not_or] at single
    obtain ⟨line, read, same⟩ := ih single.2
    by_cases returns : c = '\r' ∧ (s ++ '\n' :: rest).head? = some '\n'
    · obtain ⟨rfl, feed⟩ := returns
      cases s with
      | nil => exact ⟨[], by simp [lines], .inr rfl⟩
      | cons d s =>
        cases feed
        exact absurd List.mem_cons_self single.2
    · refine ⟨c :: line, linesNext (Ne.symm single.1) returns read, ?_⟩
      exact same.imp (congrArg (c :: ·)) (congrArg (c :: ·))

theorem linesLast {s : List Char} (single : '\n' ∉ s) (given : s ≠ []) : lines s = [s] := by
  induction s with
  | nil => contradiction
  | cons c s ih =>
    rw [List.mem_cons, not_or] at single
    cases s with
    | nil =>
      rw [lines]
      · rfl
      · exact Ne.symm single.1
      · rintro _ _ ⟨⟩
    | cons d s =>
      refine linesNext (Ne.symm single.1) ?_ (ih single.2 (List.cons_ne_nil d s))
      rintro ⟨-, ⟨⟩⟩
      exact single.2 List.mem_cons_self

theorem stripBlank {blanks : List Char} (blank : ∀ c ∈ blanks, isBlank c = true) (s : List Char) :
    stripLine (s ++ blanks) = stripLine s := by
  rw [stripLine, trimBlank blank]
  rfl

namespace Line
variable (l : Line)

theorem textSingle : '\n' ∉ l.text := by
  intro feed
  simp only [text, List.mem_append, List.mem_cons] at feed
  rcases feed with here | ⟨⟨⟩⟩ | ⟨⟨⟩⟩ | here
  · exact l.single (List.mem_append_left _ (List.mem_append_left _ here))
  · exact l.single (by rw [List.append_assoc]; exact List.mem_append_right _ (List.mem_append.mpr here))

theorem stripText : stripLine l.text = trimEnd l.content := by
  have starred : trim l.text = '*' :: trimEnd (' ' :: l.content) := by
    rw [text, trim, trimStartBlank l.indented, trimStartSolid (by decide), ← List.cons_append, ← List.cons_append,
      trimEndBlank l.trailed, trimEndSolid (by decide)]
  have opened : trimEnd (' ' :: l.content) = if (trimEnd l.content).isEmpty then [] else ' ' :: trimEnd l.content :=
    trimEndCons ' ' l.content
  rw [stripLine, starred]
  by_cases nothing : (trimEnd l.content).isEmpty
  · rw [opened, if_pos nothing, List.isEmpty_iff.mp nothing]
    rfl
  · rw [opened, if_neg nothing]
    exact trimEndTwice l.content

theorem linesEnded (rest : List Char) :
    ∃ line, lines (l.text ++ l.ending ++ rest) = line :: lines rest ∧ stripLine line = trimEnd l.content := by
  obtain ⟨returned, ending, blank⟩ : ∃ returned, l.ending = returned ++ ['\n'] ∧ ∀ c ∈ returned, c = '\r' := by
    unfold ending
    split
    · exact ⟨['\r'], rfl, by simp⟩
    · exact ⟨[], rfl, nofun⟩
  have feeds : l.text ++ l.ending ++ rest = (l.text ++ returned) ++ '\n' :: rest := by simp [ending]
  have single : '\n' ∉ l.text ++ returned := by
    intro feed
    rcases List.mem_append.mp feed with here | here
    · exact l.textSingle here
    · exact absurd (blank _ here) (by decide)
  have stripped : stripLine (l.text ++ returned) = trimEnd l.content := by
    rw [stripBlank fun c hc => by rw [blank c hc]; rfl, stripText]
  obtain ⟨line, read, same⟩ := linesFirst single rest
  refine ⟨line, by rw [feeds, read], ?_⟩
  rcases same with same | same
  · rw [← same, stripped]
  · rw [← stripped, same, stripBlank (List.all_eq_true.mp rfl)]

theorem linesUnended : lines l.text = [l.text] := linesLast l.textSingle (by simp [text])

theorem strippedWritten (closed : Bool) (ls : List Line) :
    strippedLines (String.ofList (written closed ls)) = ls.map fun l => trimEnd l.content := by
  rw [strippedLines, String.toList_ofList]
  fun_induction written closed ls with
  | case1 => rfl
  | case2 l =>
    cases closed with
    | true =>
      obtain ⟨line, read, stripped⟩ := l.linesEnded []
      rw [if_pos rfl, ← List.append_nil l.ending, ← List.append_assoc, read, List.map_cons, stripped]
      rfl
    | false =>
      rw [if_neg Bool.false_ne_true, List.append_nil, linesUnended, List.map_singleton, stripText]
      rfl
  | case3 l next rest ih =>
    obtain ⟨line, read, stripped⟩ := l.linesEnded (written closed (next :: rest))
    rw [read, List.map_cons, stripped, ih]
    rfl

end Line

/-- The lines are read as their texts without the blanks behind them; so the block is the same as that of the plain lines,
ended each by a line feed, whether or not the last one is ended. -/
theorem decorationIgnored (ls : List Line) (closed closed' : Bool) :
    strippedLines (String.ofList (Line.written closed ls)) = ls.map (fun l => trimEnd l.content) ∧
      parse (String.ofList (Line.written closed ls)) = parse (String.ofList (Line.written closed' (ls.map Line.plain))) := by
  refine ⟨Line.strippedWritten closed ls, ?_⟩
  have same : strippedLines (String.ofList (Line.written closed ls)) =
      strippedLines (String.ofList (Line.written closed' (ls.map Line.plain))) := by
    rw [Line.strippedWritten, Line.strippedWritten, List.map_map]
    rfl
  rw [parse, parse, same]

end ClassDocs.Comment
