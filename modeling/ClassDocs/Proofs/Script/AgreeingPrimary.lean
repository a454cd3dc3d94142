import ClassDocs.Proofs.Script.AgreeingFunctions

/-! The readers of expressions that stand by themselves, of accesses and of calls agree. -/
namespace ClassDocs.Script.Parse
variable {α : Type} {g : Grammar}

theorem templateRestEnding (limit : Nat) (s : List Char) : templateRest? limit (s ++ ending) = (templateRest? limit s).map (·.before ending) := by
  by_cases closes : ∃ t, s = '\x7d' :: t
  · obtain ⟨t, rfl⟩ := closes
    exact templateEnding limit (some []) ['\x7d'] t
  · have absent (t : List Char) (same : s = '\x7d' :: t) : False := closes ⟨t, same⟩
    rw [templateRest?.eq_2 _ _ (absentEnding (by decide) absent), templateRest?.eq_2 _ _ absent]
    rfl

theorem regexRestEnding (s : List Char) : regexRest? (s ++ ending) = (regexRest? s).map (·.before ending) := by
  by_cases opens : ∃ t, s = '/' :: t
  · obtain ⟨t, rfl⟩ := opens
    exact regexEnding t
  · have absent (t : List Char) (same : s = '/' :: t) : False := opens ⟨t, same⟩
    rw [regexRest?.eq_2 _ (absentEnding (by decide) absent), regexRest?.eq_2 _ absent]
    rfl

namespace Agrees

theorem regexLiteral : Agrees regexLiteral := by
  refine (reread regexRestEnding ⟨rfl, rfl⟩).bind fun _ => get (fun c => advance.bind fun _ => ?_) (fun _ => rfl) fun _ _ _ _ => rfl
  split
  · exact pure _
  · exact fail _

theorem superRest : Agrees superRest :=
  (isMark (by decide)).bind fun _ => (isMark (by decide)).bind fun _ => (isMark (by decide)).bind fun _ => ite (pure _) (fail _)

theorem accessBehindPoint {t : Tree} : Agrees (accessBehindPoint t) := by
  refine get (fun c => ?_) (fun _ => rfl) fun _ _ _ _ => rfl
  split
  · exact advance.bind fun _ => pure _
  · exact anyName.bind fun _ => pure _

section
variable (inner : All g)
include inner

theorem expression : Agrees (expression g) := by
  refine (inner _).bind fun _ => (isMark (by decide)).bind fun _ => ite ((loop fun _ => ?_).bind fun _ => pure _) (pure _)
  exact acceptMark.bind fun _ => ite ((inner _).bind fun _ => pure _) (pure _)

theorem template {tagged : Bool} : Agrees (template g tagged) := by
  refine loop fun done => get (fun c => ?_) (fun _ => rfl) fun _ _ _ _ => rfl
  split
  · refine orFail (advance.bind fun _ => ite (pure _) ((withReader (expression inner)).bind fun _ => ?_))
    exact read fun x => (reread (templateRestEnding _) ⟨rfl, rfl⟩).bind fun _ => pure _
  · exact fail _

theorem untaggedTemplate : Agrees (untaggedTemplate g) := by
  refine (template inner).bind fun parts => ?_
  obtain ⟨parts, text⟩ := parts
  cases text with
  | some text => exact pure _
  | none => exact pure _

theorem spreadOr : Agrees (spreadOr g) := acceptMark.bind fun _ => ite ((inner _).bind fun _ => pure _) (inner _)

theorem arguments : Agrees (arguments g) := withReader (commaList (spreadOr inner))

theorem arrayRest : Agrees (arrayRest g) := by
  refine withReader (loop fun _ => acceptMark.bind fun _ => ite (pure _) <| acceptMark.bind fun _ => ite (pure _) ?_)
  exact (spreadOr inner).bind fun _ => (isMark (by decide)).bind fun _ => ite (expectMark.bind fun _ => pure _) (pure _)

theorem objectMember : Agrees (objectMember g) := by
  refine get (fun c => acceptMark.bind fun _ => ite ?_ ?_) (fun _ => rfl) fun _ _ _ _ => rfl
  · exact (inner _).bind fun _ => pure _
  · refine methodMarks.bind fun marks => read fun x => get (fun d => ?_) (fun _ => rfl) fun _ _ _ _ => rfl
    refine (propertyKey inner).bind fun key => (isMark (by decide)).bind fun _ => ite ((method inner).bind fun _ => pure _) ?_
    refine acceptMark.bind fun _ => ite ((inner _).bind fun _ => pure _) (ite (fail _) ?_)
    exact acceptMark.bind fun _ => ite ((inner _).bind fun _ => modify.bind fun _ => pure _) (pure _)

theorem objectRest : Agrees (objectRest g) := withReader ((commaList (objectMember inner)).bind fun _ => pure _)

theorem newRest : Agrees (newRest g) := by
  refine acceptMark.bind fun _ => ite (expectWord.bind fun _ => pure _) ((inner _).bind fun callee => (isMark (by decide)).bind fun _ => ?_)
  exact orFail (acceptMark.bind fun _ => ite ((arguments inner).bind fun _ => pure _) ((pure _).bind fun _ => pure _))

theorem importRest : Agrees (importRest g) := by
  refine acceptMark.bind fun _ => ite (expectWord.bind fun _ => pure _) (expectMark.bind fun _ => ?_)
  exact (withReader (commaList (inner _))).bind fun _ => orFail (pure _)

theorem namedPrimary {text : String} {escaped : Bool} : Agrees (namedPrimary g text escaped) := by
  refine ite (variableName.bind fun _ => pure _) ?_
  split
  case h_5 => exact advance.bind fun _ => classRest inner
  case h_6 => exact advance.bind fun _ => newRest inner
  case h_7 => exact advance.bind fun _ => superRest
  case h_8 => exact advance.bind fun _ => importRest inner
  case h_9 => exact functionAhead.bind fun _ => ite (functionExpression inner) (variableName.bind fun _ => pure _)
  all_goals exact advance.bind fun _ => pure _

theorem primary : Agrees (primary g) := by
  refine get (fun c => ?_) (fun _ => rfl) fun _ _ _ _ => rfl
  dsimp only
  split
  case h_4 => exact untaggedTemplate inner
  case h_5 => exact namedPrimary inner
  case h_6 =>
    split
    · exact advance.bind fun _ => (withReader (expression inner)).bind fun _ => expectMark.bind fun _ => pure _
    · exact advance.bind fun _ => arrayRest inner
    · exact advance.bind fun _ => objectRest inner
    · exact regexLiteral
    · exact regexLiteral
    · exact fail _
  case h_7 => exact fail _
  all_goals exact advance.bind fun _ => pure _

theorem accessByKey {t : Tree} : Agrees (accessByKey g t) := (withReader (expression inner)).bind fun _ => expectMark.bind fun _ => pure _

theorem access {t : Tree} : Agrees (access? g t) := by
  refine acceptMark.bind fun _ => ite (map accessBehindPoint) <| acceptMark.bind fun _ => ite (map (accessByKey inner)) ?_
  exact get (fun c => ite ((template inner).bind fun _ => pure _) (pure _)) (fun _ => rfl) fun _ _ _ _ => rfl

theorem optionalAccess {start : Nat} {t : Tree} : Agrees (optionalAccess g start t) :=
  acceptMark.bind fun _ => ite ((arguments inner).bind fun _ => pure _) <| acceptMark.bind fun _ => ite (accessByKey inner) accessBehindPoint

theorem callee : Agrees (callee g) := by
  refine (primary inner).bind fun t => loop fun t => (access inner).bind fun o => ?_
  cases o with
  | some t => exact pure _
  | none => exact pure _

theorem leftSide : Agrees (leftSide g) := by
  refine get (fun c => (primary inner).bind fun t => loop fun s => ?_) (fun _ => rfl) fun _ _ _ _ => rfl
  obtain ⟨t, chained⟩ := s
  refine acceptMark.bind fun _ => ite ((optionalAccess inner).bind fun _ => pure _) <| acceptMark.bind fun _ => ite ?_ ?_
  · exact (arguments inner).bind fun _ => pure _
  · refine get (fun d => ite (fail _) ((access inner).bind fun o => ?_)) (fun _ => rfl) fun _ _ _ _ => rfl
    cases o with
    | some t => exact pure _
    | none => exact pure _

end
end Agrees
end ClassDocs.Script.Parse
