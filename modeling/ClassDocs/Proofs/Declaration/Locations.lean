import ClassDocs.SourceFile
import ClassDocs.Proofs.Script.LayingProgram
import ClassDocs.Proofs.Text.LineNumbers

/-! Every declaration of a source file is located on the line where its doc comment begins. -/
namespace ClassDocs.SourceFile
open Script
open Text.LineTable (Numbered numberKept feedsOfFront)
variable {path source : String} {location : Location} {b : DocBlock} {d : Declaration}

theorem withCodeRemark {code : List (Nat × Code)} {remarks : List (DocComment × Nat)} {comment : DocComment} {found : Option Code}
    (member : (comment, found) ∈ withCode code remarks) : ∃ offset, (comment, offset) ∈ remarks := by
  induction remarks with
  | nil => contradiction
  | cons remark remarks ih =>
    rcases List.mem_cons.mp member with first | later
    · cases first
      exact ⟨remark.2, List.mem_cons_self⟩
    · obtain ⟨offset, earlier⟩ := ih later
      exact ⟨offset, List.mem_cons_of_mem _ earlier⟩

theorem classDeclaredAt {primary : Option Tag} {code : Option Code} (declared : classDeclaration? b primary code location = some d) :
    d.files = [location] := by
  simp only [classDeclaration?, Option.bind_eq_bind, Option.bind_eq_some_iff, Option.some.injEq] at declared
  obtain ⟨name, -, rfl⟩ := declared
  rfl

theorem memberDeclaredAt {kind : Kind} {primary : Option Tag} {code : Option Code}
    (declared : memberDeclaration? kind b primary code location = some d) : d.files = [location] := by
  simp only [memberDeclaration?, Option.bind_eq_bind, Option.bind_eq_some_iff, Option.some.injEq] at declared
  obtain ⟨name, -, rfl⟩ := declared
  rfl

theorem declaredAt {code : Option Code} (declared : declaration? b code location = some d) : d.files = [location] := by
  obtain ⟨⟨kind, primary⟩, -, declared⟩ := Option.bind_eq_some_iff.mp declared
  dsimp only at declared
  split at declared
  · obtain ⟨e, made, same⟩ := Option.bind_eq_some_iff.mp declared
    have files : e.files = [location] := classDeclaredAt made
    rwa [← Option.some.inj same]
  · obtain ⟨e, made, same⟩ := Option.bind_eq_some_iff.mp declared
    have files : e.files = [location] := memberDeclaredAt made
    rwa [← Option.some.inj same]

/- A comment takes bytes of the source itself, so that its line always has a number. -/
theorem commentNumbered {front comment : List Char} (text : source.toList = front ++ comment) (some : comment ≠ []) :
    Numbered source (byteLength front) := by
  have takes := byteLengthPositive some
  refine .inl ?_
  rw [sizeOfChars, text, byteLengthAppend]
  omega

/-- A declaration comes from a doc comment of its source file and is located on the line where the comment begins. -/
theorem recordsLocated {result : FileResult} (short : source.utf8ByteSize < UInt32.size) (parsed : parse path source = .ok result)
    (record : d ∈ result.records) :
    ∃ front content behind code line, source.toList = front ++ ('/' :: '*' :: String.toList content ++ '*' :: '/' :: behind) ∧
      declaration? (Comment.parse content) code ⟨path, line⟩ = some d ∧ d.files = [⟨path, line⟩] ∧ line.toNat = 1 + front.count '\n' := by
  rw [parse] at parsed
  cases read : Program.read source with
  | error e => simp [read] at parsed
  | ok program =>
    rw [read] at parsed
    cases parsed
    obtain ⟨⟨comment, code⟩, member, declared⟩ := List.mem_filterMap.mp record
    obtain ⟨offset, remark⟩ := withCodeRemark member
    obtain ⟨behind, front, text, start⟩ := remarksStand read remark
    dsimp only at declared text start
    rw [← start] at declared
    refine ⟨front, comment.content, behind, code, _, text.symm, declared, declaredAt declared, ?_⟩
    rw [numberKept short (commentNumbered text.symm (by simp)), feedsOfFront text.symm]

end ClassDocs.SourceFile
