import ClassDocs.Proofs.Script.Ending
import ClassDocs.Proofs.Script.Standing
import ClassDocs.Proofs.Script.Laying

/-! A script that goes on with the ending and the script that is cut off in front of it. A reader comes to the same in both, until it has
used up the ending in the one or the other. -/
namespace ClassDocs.Script

namespace Gap

def more (g : Gap) : Gap := { g with rest := g.rest ++ ending }

/-- The ending stays behind the gap, unless a comment up to the end of the line takes it in. -/
inductive Cuts : Except SyntaxError Gap → Except SyntaxError Gap → Prop where
  | inside (g : Gap) : Cuts (.ok g.more) (.ok g)
  | past {full cut : Gap} : full.rest = [] → cut.rest = [] → Cuts (.ok full) (.ok cut)
  | broken (e : SyntaxError) : Cuts (.error e) (.error e)

/- Neither character of the ending ends what is spanned, so that all of it is spanned or none. -/
theorem spanMore {p : Char → Bool} (inside : ending.all p = true) (s : List Char) :
    (s ++ ending).span p = ((s.span p).1, (s.span p).2 ++ ending) ∨ (s.span p).2 = [] ∧ ((s ++ ending).span p).2 = [] := by
  simp only [List.span_eq_takeWhile_dropWhile, List.dropWhile_append, List.takeWhile_append]
  have both : p ')' = true ∧ p ';' = true := by simpa [ending] using inside
  cases left : s.dropWhile p with
  | nil => exact .inr ⟨rfl, by simp [ending, both]⟩
  | cons c t =>
    have stops : (s.takeWhile p).length ≠ s.length := fun same => by
      have parts := congrArg List.length (List.takeWhile_append_dropWhile (p := p) (l := s))
      simp [left] at parts
      omega
    simp [stops]

theorem passLineMore (g : Gap) : g.more.passLine = g.passLine.more ∨ g.passLine.rest = [] ∧ g.more.passLine.rest = [] := by
  rcases spanMore (p := (!isLineBreak ·)) rfl g.rest with run | ⟨nothing, nothing'⟩
  · exact .inl (by simp only [passLine, more, run])
  · exact .inr ⟨nothing, nothing'⟩

theorem passChar {g : Gap} {c : Char} {s : List Char} (starts : g.rest = c :: s) (noBlock : ∀ t, c = '/' → s ≠ '*' :: t)
    (noLine : ∀ t, c = '/' → s ≠ '/' :: t) (noOpening : ∀ t, c = '<' → s ≠ '!' :: '-' :: '-' :: t)
    (noClosing : ∀ t, c = '-' → s ≠ '-' :: '>' :: t) (fuel : Nat) : g.pass (fuel + 1) =
      if isLineBreak c then pass fuel ⟨g.offset + c.utf8Size, s, true, g.remarks.lineBreak⟩
      else if isSpace c then pass fuel { g with offset := g.offset + c.utf8Size, rest := s } else .ok g := by
  rw [pass]
  split
  · rename_i same
    cases starts.symm.trans same
    exact absurd rfl (noBlock _ rfl)
  · rename_i same
    cases starts.symm.trans same
    exact absurd rfl (noLine _ rfl)
  · rename_i same
    cases starts.symm.trans same
    exact absurd rfl (noOpening _ rfl)
  · rename_i same
    cases starts.symm.trans same
    exact absurd rfl (noClosing _ rfl)
  · rename_i same
    cases starts.symm.trans same
    rfl
  · rename_i nothing
    cases starts.symm.trans nothing

/- Two characters that open no comment open none with the ending behind them. -/
theorem charMore {g : Gap} {c : Char} {s : List Char} (starts : g.rest = c :: s) (noBlock : ∀ t, c = '/' → s ≠ '*' :: t)
    (noLine : ∀ t, c = '/' → s ≠ '/' :: t) (noOpening : ∀ t, c = '<' → s ≠ '!' :: '-' :: '-' :: t)
    (noClosing : ∀ t, c = '-' → s ≠ '-' :: '>' :: t) (fuel : Nat) : g.more.pass (fuel + 1) =
      if isLineBreak c then pass fuel (more ⟨g.offset + c.utf8Size, s, true, g.remarks.lineBreak⟩)
      else if isSpace c then pass fuel (more { g with offset := g.offset + c.utf8Size, rest := s }) else .ok g.more := by
  refine passChar (s := s ++ ending) (by rw [more, starts]; rfl) (fun t slash => ?_) (fun t slash => ?_)
    (fun t less same => ?_) (fun t dash same => ?_) fuel
  · exact absentEnding (by decide) (fun t => noBlock t slash) t
  · exact absentEnding (by decide) (fun t => noLine t slash) t
  · obtain ⟨t', rfl⟩ := headEnding (by decide) same
    obtain ⟨t', rfl⟩ := headEnding (by decide) (List.cons.inj same).2
    obtain ⟨t', rfl⟩ := headEnding (by decide) (List.cons.inj (List.cons.inj same).2).2
    exact noOpening t' less rfl
  · obtain ⟨t', rfl⟩ := headEnding (by decide) same
    obtain ⟨t', rfl⟩ := headEnding (by decide) (List.cons.inj same).2
    exact noClosing t' dash rfl

theorem passMore (fuel : Nat) (g : Gap) : Cuts (g.more.pass fuel) (g.pass fuel) := by
  -- a line comment that nothing ends takes in what is put behind the text as well
  have line {fuel : Nat} {g : Gap} (ih : Cuts (g.passLine.more.pass fuel) (g.passLine.pass fuel)) :
      Cuts (g.more.passLine.pass fuel) (g.passLine.pass fuel) := by
    rcases passLineMore g with same | ⟨nothing, nothing'⟩
    · rwa [same]
    · rw [(finishOpens 0).bare _ _ nothing, (finishOpens 0).bare _ _ nothing']
      exact .past nothing' nothing
  fun_induction pass fuel g with
  | case1 g => exact .inside g
  | case2 fuel g s starts content rest comment ih =>
    have run : g.more.pass (fuel + 1) = pass fuel (more ⟨g.offset + byteLength content + 4, rest, g.fresh || content.any isLineBreak,
        g.remarks.comment g.offset content⟩) := by
      simp [pass, more, starts, blockCommentEnding, comment]
    rw [run]
    exact ih
  | case3 fuel g s starts none =>
    -- what is put behind the text ends no comment
    have run : g.more.pass (fuel + 1) = .error ⟨g.offset, "a comment does not end"⟩ := by simp [pass, more, starts, blockCommentEnding, none]
    rw [run]
    exact .broken _
  | case4 fuel g s starts ih | case5 fuel g s starts ih =>
    have run : g.more.pass (fuel + 1) = pass fuel g.more.passLine := by simp [pass, more, starts]
    rw [run]
    exact line ih
  | case6 fuel g s starts fresh ih =>
    have run : g.more.pass (fuel + 1) = pass fuel g.more.passLine := by simp [pass, more, starts, fresh]
    rw [run]
    exact line ih
  | case7 fuel g s starts fresh =>
    have run : g.more.pass (fuel + 1) = .ok g.more := by simp [pass, more, starts, fresh]
    rw [run]
    exact .inside g
  | case8 fuel g c s noBlock noLine noOpening noClosing starts blank ih =>
    have run : g.more.pass (fuel + 1) = pass fuel (more ⟨g.offset + c.utf8Size, s, true, g.remarks.lineBreak⟩) := by
      rw [charMore starts noBlock noLine noOpening noClosing, if_pos blank]
    rw [run]
    exact ih
  | case9 fuel g c s noBlock noLine noOpening noClosing starts noBreak blank ih =>
    have run : g.more.pass (fuel + 1) = pass fuel (more { g with offset := g.offset + c.utf8Size, rest := s }) := by
      rw [charMore starts noBlock noLine noOpening noClosing, if_neg noBreak, if_pos blank]
    rw [run]
    exact ih
  | case10 fuel g c s noBlock noLine noOpening noClosing starts noBreak noBlank =>
    have run : g.more.pass (fuel + 1) = .ok g.more := by
      rw [charMore starts noBlock noLine noOpening noClosing, if_neg noBreak, if_neg noBlank]
    rw [run]
    exact .inside g
  | case11 fuel g nothing =>
    rw [passSolid (c := ')') (by decide) [';'] _ g.more (by rw [more, nothing]; rfl)]
    exact .inside g

end Gap

namespace Cursor

def more (c : Cursor) : Cursor := { c with rest := c.rest ++ ending }

/-- On the first token of the ending. -/
def closing (start : Nat) (fresh : Bool) (remarks : Remarks) (pending : List Nat) : Cursor :=
  ⟨.punctuator ")", start, [')'], [';'], fresh, remarks, pending⟩

/-- At the end of the script that is cut off. -/
def finished (start : Nat) (fresh : Bool) (remarks : Remarks) (pending : List Nat) : Cursor :=
  ⟨.finish, start, [], [], fresh, remarks, pending⟩

/-- The same token in both scripts, or the first one that only one of them has. -/
inductive Cuts : Cursor → Cursor → Prop where
  | inside (c : Cursor) : Cuts c.more c
  | atCut (start : Nat) (fresh : Bool) (remarks : Remarks) (pending : List Nat) :
      Cuts (closing start fresh remarks pending) (finished start fresh remarks pending)

/-- Behind the first token of the ending. -/
structure Spent (c : Cursor) : Prop where
  rest : c.rest = []
  token : c.token = .finish ∧ c.raw = [] ∨ c.token = .punctuator ";" ∧ c.raw = [';']

inductive Nexts : Except SyntaxError Cursor → Except SyntaxError Cursor → Prop where
  | both {d e : Cursor} : Cuts d e → Nexts (.ok d) (.ok e)
  | past {d e : Cursor} : d.Spent → e.Spent → Nexts (.ok d) (.ok e)
  | broken (d e : SyntaxError) : Nexts (.error d) (.error e)

/-- The token that a script is on when its gap is passed. -/
def onToken (limit : Nat) (pending : List Nat) (gap : Gap) : Except SyntaxError Cursor :=
  (lexeme limit gap.offset gap.rest).map fun l =>
    ⟨l.token, gap.offset, l.raw, l.rest, gap.fresh, gap.remarks.token gap.offset (opensValue l.token), pending⟩

theorem behindPass (limit : Nat) (gap : Gap) (pending : List Nat) : behind limit gap pending = (gap.pass limit).bind (onToken limit pending) := by
  rw [behind]
  cases gap.pass limit with
  | error e => rfl
  | ok gap =>
    simp only [bind, Except.bind, onToken]
    cases lexeme limit gap.offset gap.rest <;> rfl

theorem finishedSpent (start : Nat) (fresh : Bool) (remarks : Remarks) (pending : List Nat) : (finished start fresh remarks pending).Spent :=
  ⟨rfl, .inl ⟨rfl, rfl⟩⟩

theorem onNothing (limit : Nat) (pending : List Nat) {gap : Gap} (nothing : gap.rest = []) :
    onToken limit pending gap = .ok (finished gap.offset gap.fresh (gap.remarks.token gap.offset false) pending) := by
  rw [onToken, nothing]
  rfl

theorem behindNothing (limit : Nat) {gap : Gap} (nothing : gap.rest = []) (pending : List Nat) :
    behind limit gap pending = .ok (finished gap.offset gap.fresh (gap.remarks.token gap.offset false) pending) := by
  rw [behindPass, (finishOpens limit).bare limit gap nothing]
  exact onNothing limit pending nothing

theorem Spent.next {c : Cursor} (spent : c.Spent) (limit : Nat) : ∃ d, c.next limit = .ok d ∧ d.Spent :=
  ⟨_, behindNothing limit spent.rest c.pending, finishedSpent ..⟩

theorem onTokenMore (limit : Nat) (pending : List Nat) (gap : Gap) : Nexts (onToken limit pending gap.more) (onToken limit pending gap) := by
  obtain ⟨offset, rest, fresh, remarks⟩ := gap
  by_cases nothing : rest = []
  · subst nothing
    exact .both (.atCut offset fresh (remarks.token offset false) pending)
  · simp only [onToken, Gap.more, lexemeEnding limit offset nothing]
    cases lexeme limit offset rest with
    | error e => exact .broken e e
    | ok l => exact .both (.inside ⟨l.token, offset, l.raw, l.rest, fresh, remarks.token offset (opensValue l.token), pending⟩)

theorem behindMore (limit : Nat) (gap : Gap) (pending : List Nat) : Nexts (behind limit gap.more pending) (behind limit gap pending) := by
  have passed := Gap.passMore limit gap
  rw [behindPass, behindPass]
  generalize gap.more.pass limit = full at passed
  generalize gap.pass limit = cut at passed
  cases passed with
  | inside gap => exact onTokenMore limit pending gap
  | past nothing nothing' =>
    simp only [Except.bind, onNothing limit pending nothing, onNothing limit pending nothing']
    exact .past (finishedSpent ..) (finishedSpent ..)
  | broken e => exact .broken e e

/-- On the second token of the ending. -/
def ended (start : Nat) (remarks : Remarks) (pending : List Nat) : Cursor :=
  ⟨.punctuator ";", start + 1, [';'], [], false, remarks.token (start + 1) false, pending⟩

theorem cutNext (limit start : Nat) (fresh : Bool) (remarks : Remarks) (pending : List Nat) :
    (closing start fresh remarks pending).next limit = .ok (ended start remarks pending) := by
  rw [next, closing, behindPass, passSolid (c := ';') (by decide) [] limit _ rfl]
  rfl

theorem endedSpent (start : Nat) (remarks : Remarks) (pending : List Nat) : (ended start remarks pending).Spent := ⟨rfl, .inr ⟨rfl, rfl⟩⟩

theorem nextCuts (limit : Nat) {c d : Cursor} (cuts : Cuts c d) : Nexts (c.next limit) (d.next limit) := by
  cases cuts with
  | inside c => exact behindMore limit ⟨d.start + byteLength d.raw, d.rest, false, d.remarks⟩ d.pending
  | atCut start fresh remarks pending =>
    obtain ⟨e, run, spent⟩ := (finishedSpent start fresh remarks pending).next limit
    rw [cutNext, run]
    exact .past (endedSpent ..) spent

end Cursor
end ClassDocs.Script
