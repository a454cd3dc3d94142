import ClassDocs.Proofs.Script.AgreeingPrimary

/-! The readers of expressions of operators, of assignments and of arrow functions agree. -/
namespace ClassDocs.Script.Parse
variable {α : Type} {g : Grammar}

namespace Agrees

theorem asTarget {t : Tree} : Agrees (asTarget t) := by
  unfold Parse.asTarget
  split
  · exact modify.bind fun _ => pure _
  · exact fail _

theorem asSimpleTarget {t : Tree} : Agrees (asSimpleTarget t) := by
  unfold Parse.asSimpleTarget
  split
  · exact pure _
  · exact fail _

section
variable (inner : All g)
include inner

theorem steppedBehind : Agrees (steppedBehind g) := by
  refine (leftSide inner).bind fun t => get (fun c => ?_) (fun _ => rfl) fun _ fresh _ _ => ?_
  · exact ite (asSimpleTarget.bind fun _ => advance.bind fun _ => pure _) (pure _)
  · cases fresh <;> rfl

theorem unary : Agrees (unary g) := by
  refine get (fun c => ?_) (fun _ => rfl) fun _ _ _ _ => rfl
  dsimp only
  split
  · refine ite (advance.bind fun _ => (inner _).bind fun _ => pure _) (ite (advance.bind fun _ => ?_) (steppedBehind inner))
    exact (inner _).bind fun _ => asSimpleTarget.bind fun _ => pure _
  · refine ite (advance.bind fun _ => (inner _).bind fun _ => pure _) (read fun x => ite (advance.bind fun _ => ?_) (steppedBehind inner))
    exact (inner _).bind fun _ => pure _
  · exact steppedBehind inner

theorem privateTest {level : Nat} : Agrees (privateTest g level) :=
  advance.bind fun _ => read fun _ => orFail (expectWord.bind fun _ => (inner _).bind fun _ => pure _)

theorem binary {level : Nat} : Agrees (binary g level) := by
  refine get (fun c => ?_) (fun _ => rfl) fun _ _ _ _ => rfl
  extract_lets behind
  have rest (t : Tree) : Agrees (behind t) := by
    refine loop fun t => read fun x => get (fun d => ?_) (fun _ => rfl) fun _ _ _ _ => rfl
    split
    · refine ite (pure _) (orFail (advance.bind fun _ => (inner _).bind fun _ => ite (orFail (pure _)) (pure _)))
    · exact pure _
  split
  · exact (privateTest inner).bind rest
  · exact (unary inner).bind rest

theorem conditional : Agrees (conditional g) := by
  refine (binary inner).bind fun _ => acceptMark.bind fun _ => ite ((withReader (inner _)).bind fun _ => ?_) (pure _)
  exact expectMark.bind fun _ => (inner _).bind fun _ => pure _

theorem yieldRest : Agrees (yieldRest g) := by
  refine get (fun c => ite (pure _) (acceptMark.bind fun _ => (inner _).bind fun _ => pure _)) (fun _ => rfl) fun _ fresh _ _ => ?_
  cases fresh <;> rfl

theorem assigned : Agrees (assigned g) := by
  refine get (fun c => (conditional inner).bind fun left => get (fun d => ?_) (fun _ => rfl) fun _ _ _ _ => rfl) (fun _ => rfl)
    fun _ _ _ _ => rfl
  split
  · refine ite (ite (asTarget.bind fun _ => ?_) (asSimpleTarget.bind fun _ => ?_)) (pure _)
    all_goals exact advance.bind fun _ => (inner _).bind fun _ => pure _
  · exact pure _

theorem assignment : Agrees (assignment g) := by
  refine read fun x => isWord.bind fun _ => ite (advance.bind fun _ => yieldRest inner) ((arrowFunction inner).bind fun o => ?_)
  cases o with
  | some t => exact pure _
  | none => exact assigned inner

end
end Agrees
end ClassDocs.Script.Parse
