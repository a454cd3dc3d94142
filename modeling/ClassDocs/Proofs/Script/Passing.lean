import ClassDocs.Proofs.Script.Bytes
import ClassDocs.Proofs.Script.Tokens

/-! What a reader passes on its way through a script: the bytes in front of the token it is on, and the doc comments among them. -/
namespace ClassDocs.Script

/-- Behind so many bytes of the source the rest of it begins. -/
def At (source : List Char) (offset : Nat) (rest : List Char) : Prop :=
  ∃ passed, passed ++ rest = source ∧ byteLength passed = offset

theorem At.behind {source : List Char} {offset : Nat} {s rest : List Char} (here : At source offset (s ++ rest)) :
    At source (offset + byteLength s) rest := by
  obtain ⟨passed, text, length⟩ := here
  exact ⟨passed ++ s, by rw [List.append_assoc, text], by rw [byteLengthAppend, length]⟩

theorem At.char {source : List Char} {offset : Nat} {c : Char} {rest : List Char} (here : At source offset (c :: rest)) :
    At source (offset + c.utf8Size) rest := by
  simpa using At.behind (s := [c]) here

theorem At.total {source : List Char} {offset : Nat} {rest : List Char} (here : At source offset rest) :
    offset + byteLength rest = byteLength source := by
  obtain ⟨passed, rfl, rfl⟩ := here
  rw [byteLengthAppend]

/-- A comment stands in the source where it says it does. -/
def DocComment.Stands (source : List Char) (comment : DocComment) : Prop :=
  ∃ behind, At source comment.start ('/' :: '*' :: comment.content.toList ++ '*' :: '/' :: behind)

/-- The comments passed so far stand in the source. -/
structure Remarks.Stand (source : List Char) (r : Remarks) : Prop where
  waiting : ∀ comment ∈ r.waiting, comment.Stands source
  settled : ∀ remark ∈ r.settled, remark.1.Stands source

namespace Remarks.Stand
variable {source : List Char} {r : Remarks}

theorem atStart (source : List Char) : Remarks.atStart.Stand source := ⟨by simp [Remarks.atStart], by simp [Remarks.atStart]⟩

theorem comment (stand : r.Stand source) {start : Nat} {content behind : List Char}
    (here : At source start ('/' :: '*' :: content ++ '*' :: '/' :: behind)) : (r.comment start content).Stand source := by
  rw [Remarks.comment]
  split
  · refine ⟨fun comment member => ?_, stand.settled⟩
    rcases List.mem_cons.mp member with rfl | earlier
    · exact ⟨behind, by rwa [String.toList_ofList]⟩
    · exact stand.waiting comment earlier
  · exact stand

/- A line break may send the waiting comments back to the token before. -/
theorem fewer (stand : r.Stand source) {kept : Bool} {sawBreak behindOpener : Bool} :
    Remarks.Stand source ⟨if kept then r.waiting else [], r.settled, sawBreak, behindOpener⟩ := by
  refine ⟨fun comment member => ?_, stand.settled⟩
  cases kept with
  | true => exact stand.waiting comment member
  | false => contradiction

theorem token (stand : r.Stand source) (start : Nat) (opensValue : Bool) : (r.token start opensValue).Stand source := by
  refine ⟨by simp [Remarks.token], fun remark member => ?_⟩
  rcases List.mem_append.mp member with waiting | settled
  · obtain ⟨comment, waits, rfl⟩ := List.mem_map.mp waiting
    exact stand.waiting comment waits
  · exact stand.settled remark settled

end Remarks.Stand

theorem passLineAt {source : List Char} {g : Gap} (here : At source g.offset g.rest) :
    At source g.passLine.offset g.passLine.rest ∧ g.offset ≤ g.passLine.offset := by
  obtain ⟨line, rest, run⟩ : ∃ line rest, g.rest.span (!isLineBreak ·) = (line, rest) := ⟨_, _, rfl⟩
  rw [← spanText run] at here
  rw [Gap.passLine, run]
  exact ⟨here.behind, Nat.le_add_right _ _⟩

theorem passAt {source : List Char} {fuel : Nat} {g g' : Gap} (here : At source g.offset g.rest) (stand : g.remarks.Stand source)
    (h : g.pass fuel = .ok g') : At source g'.offset g'.rest ∧ g'.remarks.Stand source ∧ g.offset ≤ g'.offset := by
  fun_induction Gap.pass fuel g with
  | case1 | case7 | case10 | case11 =>
    cases h
    exact ⟨here, stand, Nat.le_refl _⟩
  | case2 fuel g s starts content rest comment ih =>
    rw [starts, show s = content ++ '*' :: '/' :: rest from (blockCommentText comment).symm] at here
    -- two marks of two bytes each stand around the content
    have behind : At source (g.offset + byteLength content + 4) rest := by
      have passed := At.behind (s := '/' :: '*' :: content ++ ['*', '/']) (by simpa using here)
      have four : byteLength ('/' :: '*' :: content ++ ['*', '/']) = byteLength content + 4 := by
        simp [show '/'.utf8Size = 1 from rfl, show '*'.utf8Size = 1 from rfl]
        omega
      rwa [four, ← Nat.add_assoc] at passed
    obtain ⟨at', stand', later⟩ := ih behind (stand.comment here) h
    exact ⟨at', stand', by dsimp only at later; omega⟩
  | case3 => contradiction
  | case4 fuel g s starts ih | case5 fuel g s starts ih | case6 fuel g s starts fresh ih =>
    obtain ⟨behind, later⟩ := passLineAt here
    obtain ⟨at', stand', later'⟩ := ih behind stand.fewer h
    exact ⟨at', stand', Nat.le_trans later later'⟩
  | case8 fuel g c s _ _ _ _ starts blank ih =>
    rw [starts] at here
    obtain ⟨at', stand', later⟩ := ih here.char stand.fewer h
    exact ⟨at', stand', Nat.le_trans (Nat.le_add_right _ _) later⟩
  | case9 fuel g c s _ _ _ _ starts _ blank ih =>
    rw [starts] at here
    obtain ⟨at', stand', later⟩ := ih here.char stand h
    exact ⟨at', stand', Nat.le_trans (Nat.le_add_right _ _) later⟩

/-- The cursor is on a token of the source, or at the end of it, and the comments in front of it stand in the source. -/
structure Cursor.Within (source : List Char) (c : Cursor) : Prop where
  place : At source c.start (c.raw ++ c.rest)
  token : c.token = .finish ∧ c.raw = [] ∧ c.rest = [] ∨ c.token ≠ .finish ∧ c.raw ≠ []
  remarks : c.remarks.Stand source

theorem behindWithin {source : List Char} {limit : Nat} {gap : Gap} {pending : List Nat} {c : Cursor} (here : At source gap.offset gap.rest)
    (stand : gap.remarks.Stand source) (h : Cursor.behind limit gap pending = .ok c) : c.Within source ∧ gap.offset ≤ c.start := by
  rw [Cursor.behind] at h
  cases passed : gap.pass limit with
  | error e => simp [passed, bind, Except.bind] at h
  | ok gap' =>
    cases read : lexeme limit gap'.offset gap'.rest with
    | error e => simp [passed, read, bind, Except.bind] at h
    | ok l =>
      simp only [passed, read, bind, Except.bind] at h
      cases h
      obtain ⟨place, stand', later⟩ := passAt here stand passed
      refine ⟨?_, later⟩
      rcases lexemeHeads read with ⟨none, rfl⟩ | heads
      · exact ⟨by simpa [none] using place, .inl ⟨rfl, rfl, rfl⟩, stand'.token _ _⟩
      · exact ⟨by simpa [heads.text] using place, .inr ⟨heads.more, heads.takes⟩, stand'.token _ _⟩

theorem nextWithin {source : List Char} {limit : Nat} {c d : Cursor} (here : c.Within source) (h : c.next limit = .ok d) :
    d.Within source ∧ c.start + byteLength c.raw ≤ d.start :=
  behindWithin here.place.behind here.remarks h

theorem rereadWithin {source : List Char} {c d : Cursor} {scan : List Char → Option Lexeme}
    (heads : ∀ s l, scan s = some l → l.Heads s) (here : c.Within source) (h : c.reread scan = some d) :
    d.Within source ∧ d.start = c.start ∧ d.token ≠ .finish := by
  obtain ⟨l, scanned, rfl⟩ := Option.map_eq_some_iff.mp h
  have heads := heads _ _ scanned
  exact ⟨⟨by simpa [heads.text] using here.place, .inr ⟨heads.more, heads.takes⟩, here.remarks⟩, rfl, heads.more⟩

end ClassDocs.Script
