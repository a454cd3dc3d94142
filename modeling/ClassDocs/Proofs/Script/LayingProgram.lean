import ClassDocs.Proofs.Script.LayingStatements

/-! Whole scripts lay their trees. -/
namespace ClassDocs.Script.Parse
variable {α β : Type} {h : β → Places} {source : List Char} {c : Cursor} {room : Room} {k : Places} {g : Grammar}

namespace Lays

/- Places may be forgotten before the reader starts. -/
theorem less {α : Type} {f : α → Places} {l : Places} {p : Parse α} (under : k.Under l) (lays : Lays source c room k f p) :
    Lays source c room l f p :=
  fun ctx here laid => lays ctx here (laid.under under)

theorem advanceOnly (more : c.token ≠ .finish) : Lays source c room k (fun _ => k) Parse.advance := by
  have alone : Lays source c room k (fun _ => k) (Parse.advance >>= Pure.pure) := advance more fun d => pure (.refl k)
  simpa using alone

theorem stringToken : Lays source c room k (fun _ => k) stringToken := by
  refine get ?_
  split
  · rename_i token
    exact advanceOnly (by simp [token])
  · exact fail _

theorem moduleName : Lays source c room k (fun _ => k) moduleName := by
  refine get ?_
  split
  · rename_i token
    exact advanceOnly (by simp [token])
  · exact anyName.bind fun _ d => pure (.refl k)

theorem moduleNames : Lays source c .none k (fun _ => k) moduleNames := by
  refine (commaList (fun _ => k) fun done d => ?_).bind fun _ d => pure (.refl k)
  exact moduleName.bind fun _ d => accept rfl (fun e => moduleName) fun _ => pure (.refl k)

theorem importedParts : Lays source c .none k (fun _ => k) importedParts :=
  accept rfl (fun _ => expectWord fun _ => variableName.bind fun _ _ => pure (.refl k)) fun _ => otherwise <|
    expectMark fun _ => moduleNames

section
variable (inner : All source g)
include inner

theorem moduleRest : Lays source c room k (fun t => k.add [t]) (moduleRest g) := by
  refine stringToken.bind fun _ d => ?_
  extract_lets behind
  have rest (d : Cursor) : Lays source d .none k (fun t => k.add [t]) (behind ()) := semicolon.bind fun _ e => pure (by simp [plain])
  refine accept rfl (fun e => expectMark fun e => (commaList (fun _ => k) fun done d => ?_).bind fun _ d => rest d) fun _ => rest d
  exact (propertyKey inner).bind fun key d => expectMark fun d => stringToken.less ((Places.Under.refl k).skip _)

theorem importStatement : Lays source c .none k (fun t => k.add [t]) (importStatement g) := by
  refine get ?_
  split
  · exact moduleRest inner
  · refine variableName.bind fun _ d => ?_
    extract_lets behind
    have rest (d : Cursor) : Lays source d .none k (fun t => k.add [t]) (behind ()) := expectWord fun _ => moduleRest inner
    exact accept rfl (fun e => importedParts.bind fun _ d => rest d) fun _ => rest d
  · exact importedParts.bind fun _ d => expectWord fun _ => moduleRest inner

theorem defaultExport : Lays source c .none k (fun t => k.add [t]) (defaultExport g) := by
  refine functionAhead fun b => ite (fun _ => (functionDeclaration inner).weaken) fun _ => ?_
  refine accept rfl (fun d => classRest inner) fun _ => otherwise ?_
  exact (inner _ _ _).weaken.bind fun value d => semicolon.bind fun _ e => pure (.refl _)

theorem exportStatement : Lays source c .none k (fun t => k.add [t]) (exportStatement g) := by
  refine accept rfl (fun d => defaultExport inner) fun _ => otherwise <| accept rfl (fun d => ?_) fun _ => otherwise ?_
  · extract_lets behind
    have rest (d : Cursor) : Lays source d .none k (fun t => k.add [t]) (behind ()) := expectWord fun _ => moduleRest inner
    exact accept rfl (fun e => moduleName.bind fun _ d => rest d) fun _ => rest d
  refine accept rfl (fun d => moduleNames.bind fun _ d => ?_) fun _ => otherwise <| weaken ?_
  · refine accept rfl (fun e => moduleRest inner) fun _ => otherwise <| semicolon.bind fun _ e => pure (by simp [plain])
  · exact declarationThen inner (fun t d => pure (.refl _)) (fail _)

theorem topStatement : Lays source c .none k (fun t => k.add [t]) (topStatement g) := by
  refine ahead fun o => isWord (ite (fun word => ?_) fun _ => ?_)
  · exact advanceOn fun d => importStatement inner
  · exact accept rfl (fun d => exportStatement inner) fun _ => otherwise <| (inner _ _ _).weaken

theorem program : Lays source c .none k (fun ts => k.add ts) (program g) := by
  refine bind (f := fun ts => k.add ts) (rounds fun done d => get (ite (fun _ => pure (by simp)) fun _ => ?_)) fun ts d => ?_
  · exact (topStatement inner).bind fun t e => pure (by simp)
  · exact get (ite (fun _ _ _ _ => trivial) fun _ => pure (.refl _))

end

theorem grammar (depth : Nat) : All source (grammar depth) := by
  induction depth with
  | zero => exact fun _ _ _ _ _ _ => trivial
  | succ depth inner =>
    intro goal c k
    cases goal with
    | assignment => exact assignment inner
    | binary level => exact binary inner
    | unary => exact unary inner
    | leftSide => exact leftSide inner
    | callee => exact callee inner
    | binding => exact binding inner
    | statement alone => exact statement inner

end Lays
end ClassDocs.Script.Parse

namespace ClassDocs.Script

theorem ofScriptWithin {limit : Nat} {s : List Char} {c : Cursor} (h : Cursor.ofScript limit s = .ok c) : c.Within s := by
  have nothing : Remarks.atStart.Stand s := .atStart s
  unfold Cursor.ofScript at h
  split at h
  · rename_i s
    obtain ⟨line, rest, run⟩ : ∃ line rest, ('#' :: '!' :: s).span (!isLineBreak ·) = (line, rest) := ⟨_, _, rfl⟩
    rw [run] at h
    exact (behindWithin ⟨line, spanText run, rfl⟩ ⟨nothing.waiting, nothing.settled⟩ h).1
  · have front : At s 0 s := ⟨[], rfl, rfl⟩
    exact (behindWithin front nothing h).1

/-- What a script was read by. -/
theorem readRuns {source : String} {program : Program} {limit : Nat} (length : limit = source.toList.length + 2)
    (h : Program.read source = .ok program) : ∃ c d, Cursor.ofScript limit source.toList = .ok c ∧
      Parse.program (Parse.grammar (2 * limit)) ⟨limit, true, false, false, false⟩ c = .ok (program.statements, d) ∧
      program.remarks = d.remarks.settled.reverse := by
  rw [Program.read] at h
  dsimp only at h
  rw [← length] at h
  cases first : Cursor.ofScript limit source.toList with
  | error e => simp [first, bind, Except.bind] at h
  | ok c =>
    cases read : Parse.program (Parse.grammar (2 * limit)) ⟨limit, true, false, false, false⟩ c with
    | error e => simp [first, ReaderT.run, read, bind, Except.bind] at h
    | ok r =>
      simp [first, ReaderT.run, read, bind, Except.bind] at h
      exact ⟨c, r.2, rfl, by rw [read, ← h], by rw [← h]⟩

/-- Where the reader of a script ends, it has passed all of its code and its doc comments. -/
theorem programPassed {source : String} {program : Program} (h : Program.read source = .ok program) :
    ∃ start d, Parse.Passed source.toList start (Places.add ⟨[], []⟩ program.statements) d ∧
      program.remarks = d.remarks.settled.reverse := by
  obtain ⟨limit, length⟩ : ∃ limit, limit = source.toList.length + 2 := ⟨_, rfl⟩
  obtain ⟨c, d, first, read, remarks⟩ := readRuns length h
  have lays : Parse.Lays source.toList c .none ⟨[], []⟩ (fun ts => Places.add ⟨[], []⟩ ts) (Parse.program (Parse.grammar (2 * limit))) :=
    Parse.Lays.program (Parse.Lays.grammar _)
  have leads := lays ⟨limit, true, false, false, false⟩ (ofScriptWithin first) ⟨by simp, by simp, by simp, by simp, by simp⟩
  rw [read] at leads
  exact ⟨c.start, d, leads, remarks⟩

/-- The properties of a script begin at offsets of their own, where no other code begins, and have names unless they are computed. -/
theorem programLaid {source : String} {program : Program} (h : Program.read source = .ok program) :
    ∃ n, (Places.add ⟨[], []⟩ program.statements).Laid n n := by
  obtain ⟨_, d, passed, -⟩ := programPassed h
  exact ⟨d.start, passed.laid⟩

/-- Every doc comment that the reader of a script comes to stands in it at its offset. -/
theorem remarksStand {source : String} {program : Program} (h : Program.read source = .ok program) {remark : DocComment × Nat}
    (member : remark ∈ program.remarks) : remark.1.Stands source.toList := by
  obtain ⟨_, d, passed, remarks⟩ := programPassed h
  exact passed.within.remarks.settled remark (List.mem_reverse.mp (remarks ▸ member))

end ClassDocs.Script
