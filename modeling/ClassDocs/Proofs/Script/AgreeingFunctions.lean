import ClassDocs.Proofs.Script.Agreeing

/-! The readers of names, patterns, functions and classes agree. -/
namespace ClassDocs.Script.Parse
variable {α : Type} {g : Grammar}

namespace Agrees

/-- The forms inside are read alike. -/
def All (g : Grammar) : Prop := ∀ goal, Agrees (g goal)

theorem variableName : Agrees variableName := by
  refine read fun x => get (fun c => ?_) (fun _ => rfl) fun _ _ _ _ => rfl
  split
  · exact advance.bind fun _ => pure _
  · exact fail _

theorem anyName : Agrees anyName := by
  refine get (fun c => ?_) (fun _ => rfl) fun _ _ _ _ => rfl
  split
  · exact advance.bind fun _ => pure _
  · exact fail _

theorem commaList {close : String} {item : Parse α} (each : Agrees item) : Agrees (commaList close item) := by
  by_cases parenthesis : close = ")"
  · subst parenthesis
    refine loopNear (fun done => ?_) fun done => pastClosing (pure _)
    exact Nears.bind acceptMark fun _ => .ite (.of (pure _)) (Nears.bind each fun _ => .comma _)
  · exact loop fun _ => acceptMark.bind fun _ => ite (pure _) <| each.bind fun _ => (isMark parenthesis).bind fun _ =>
      ite (expectMark.bind fun _ => pure _) (pure _)

theorem itemsUntil {close : String} {item : Parse α} (each : Agrees item) : Agrees (itemsUntil close item) :=
  loop fun _ => acceptMark.bind fun _ => ite (pure _) (each.bind fun _ => pure _)

theorem functionWord {isAsync : Bool} : Agrees (functionWord isAsync) := expectWord.bind fun _ => acceptMark.bind fun _ => pure _

theorem functionAhead : Agrees functionAhead := by
  have looks : Looks fun c => !c.fresh && c.token == .name "function" false := looksAt (fun fresh t => !fresh && t == .name "function" false) fun _ => by simp
  refine isWord.bind fun _ => ite (pure _) <| isWord.bind fun _ => ite (lookAhead looks (fun o => ?_) fun o o' same => ?_) (pure _)
  · cases o <;> exact pure _
  · cases o <;> cases o' <;> exact congrArg Pure.pure same

theorem looksAtKey : Looks fun c => startsKey c.token := looksAt (fun _ t => startsKey t) fun _ => by simp [startsKey]

theorem methodMarks : Agrees methodMarks := by
  refine (acceptModifier ?_).bind fun _ => acceptMark.bind fun _ => ite (pure _) <| (acceptModifier looksAtKey).bind fun _ =>
    ite (pure _) <| (acceptModifier looksAtKey).bind fun _ => ite (pure _) (pure _)
  exact looksAt (fun fresh t => !fresh && (startsKey t || t == .punctuator "*")) fun _ => by simp [startsKey]

section
variable (inner : All g)
include inner

theorem propertyKey : Agrees (propertyKey g) := by
  refine get (fun c => ?_) (fun _ => rfl) fun _ _ _ _ => rfl
  dsimp only
  split
  case h_5 => exact expectMark.bind fun _ => (withReader (inner _)).bind fun _ => expectMark.bind fun _ => pure _
  all_goals exact advance.bind fun _ => pure _

theorem bindingElement : Agrees (bindingElement g) :=
  (inner _).bind fun _ => acceptMark.bind fun _ => ite ((withReader (inner _)).bind fun _ => pure _) (pure _)

theorem arrayBinding : Agrees (arrayBinding g) := by
  refine loop fun _ => acceptMark.bind fun _ => ite (pure _) <| acceptMark.bind fun _ => ite (pure _) <| acceptMark.bind fun _ => ite ?_ ?_
  · exact (inner _).bind fun _ => expectMark.bind fun _ => pure _
  · exact (bindingElement inner).bind fun _ => (isMark (by decide)).bind fun _ => ite (expectMark.bind fun _ => pure _) (pure _)

theorem propertyBinding {key : Tree} {computed short : Bool} : Agrees (propertyBinding g key computed short) :=
  acceptMark.bind fun _ => ite ((bindingElement inner).bind fun _ => pure _) <| ite (fail _) <| acceptMark.bind fun _ =>
    ite ((withReader (inner _)).bind fun _ => pure _) (pure _)

theorem objectBinding : Agrees (objectBinding g) := by
  refine loop fun _ => acceptMark.bind fun _ => ite (pure _) <| acceptMark.bind fun _ => ite ?_ ?_
  · exact variableName.bind fun _ => expectMark.bind fun _ => pure _
  · refine read fun x => get (fun c => ?_) (fun _ => rfl) fun _ _ _ _ => rfl
    exact (propertyKey inner).bind fun _ => (propertyBinding inner).bind fun _ => (isMark (by decide)).bind fun _ =>
      ite (expectMark.bind fun _ => pure _) (pure _)

theorem binding : Agrees (binding g) :=
  acceptMark.bind fun _ => ite (arrayBinding inner) <| acceptMark.bind fun _ => ite (objectBinding inner) <| variableName.bind fun _ => pure _

theorem parameters : Agrees (parameters g) := by
  refine loopNear (fun done => ?_) fun done => pastClosing (pure _)
  refine Nears.bind acceptMark fun _ => .ite (.of (pure _)) <| Nears.bind acceptMark fun _ => .ite (.of ?_) ?_
  · exact (inner _).bind fun _ => expectMark.bind fun _ => pure _
  · exact Nears.bind (bindingElement inner) fun _ => .comma _

theorem block : Agrees (block g) := expectMark.bind fun _ => itemsUntil (inner _)

theorem functionRest {start : Nat} {name : Option String} {m : Manner} : Agrees (functionRest g start name m) :=
  withReader <| expectMark.bind fun _ => (parameters inner).bind fun _ => (block inner).bind fun _ => pure _

theorem functionExpression : Agrees (functionExpression g) := by
  refine get (fun c => ?_) (fun _ => rfl) fun _ _ _ _ => rfl
  exact acceptWord.bind fun _ => functionWord.bind fun _ => (isMark (by decide)).bind fun _ =>
    ite ((pure _).bind fun _ => functionRest inner) ((map (withReader variableName)).bind fun _ => functionRest inner)

theorem functionDeclaration {nameless : Bool} : Agrees (functionDeclaration g nameless) := by
  refine get (fun c => ?_) (fun _ => rfl) fun _ _ _ _ => rfl
  exact acceptWord.bind fun _ => functionWord.bind fun _ => (isMark (by decide)).bind fun _ =>
    ite ((pure _).bind fun _ => functionRest inner) ((map variableName).bind fun _ => functionRest inner)

theorem method {m : MethodMarks} : Agrees (method g m) := by
  refine get (fun c => (functionRest inner).bind fun function => ?_) (fun _ => rfl) fun _ _ _ _ => rfl
  split
  · exact ite (pure _) (fail _)
  · exact pure _

theorem classKey : Agrees (classKey g) := by
  refine get (fun c => ?_) (fun _ => rfl) fun _ _ _ _ => rfl
  split
  · exact advance.bind fun _ => pure _
  · exact (propertyKey inner).bind fun _ => pure _

theorem classMember : Agrees (classMember g) := by
  refine (acceptModifier ?_).bind fun _ => (isMark (by decide)).bind fun _ => ite ?_ ?_
  · exact looksAt (fun _ t => startsKey t || t == .punctuator "*" || t == .punctuator "\x7b") fun _ => by simp [startsKey]
  · exact withReader ((block inner).bind fun _ => pure _)
  · refine methodMarks.bind fun _ => (classKey inner).bind fun _ => (isMark (by decide)).bind fun _ => ite ?_ ?_
    · exact (method inner).bind fun _ => pure _
    · refine acceptMark.bind fun _ => ite ?_ ?_
      · exact (withReader ((inner _).bind fun _ => pure _)).bind fun _ => semicolon.bind fun _ => pure _
      · exact (pure _).bind fun _ => semicolon.bind fun _ => pure _

theorem classRest : Agrees (classRest g) := by
  refine read fun x => get (fun c => ?_) (fun _ => rfl) fun _ _ _ _ => rfl
  extract_lets hasName members behindName
  have membersAgree (heritage : List Tree) : Agrees (members heritage) := by
    refine expectMark.bind fun _ => (loop fun _ => acceptMark.bind fun _ => ite (pure _) ?_).bind fun _ => pure _
    exact acceptMark.bind fun _ => ite (pure _) ((classMember inner).bind fun _ => pure _)
  have rest : Agrees (behindName ()) :=
    acceptWord.bind fun _ => ite ((inner _).bind fun t => (pure _).bind fun _ => membersAgree _) ((pure _).bind fun _ => membersAgree _)
  exact ite (advance.bind fun _ => rest) rest

/- Nothing but an arrow may stand behind the parameters, so that what is behind the ending is no head. -/
theorem arrowHead : Decides (arrowHead g) := by
  refine Decides.bind (acceptModifier ?_) fun isAsync => .withReader (Decides.bind acceptMark fun opens => ?_)
  · refine ⟨fun _ => rfl, fun c listed => ?_⟩
    simp only [List.mem_cons, List.not_mem_nil, or_false] at listed
    rcases listed with token | token | token <;> simp [token]
  extract_lets behindParameters
  have arrow (params : List Tree) : Decides (behindParameters params) := by
    have decides : Decides (Parse.expectMark "=>" >>= fun _ => Pure.pure (isAsync, params)) := .andThen (.expectMark (by decide))
    refine .get (fun c => ?_) (fun _ => rfl) fun _ _ _ _ => rfl
    exact .ite (Decides.bind (fail _) fun _ => decides) decides
  exact .ite (Decides.bind (withReader (parameters inner)) arrow)
    (Decides.bind variableName fun name => Decides.bind (pure _) arrow)

theorem arrowBody {isAsync : Bool} : Agrees (arrowBody g isAsync) :=
  (isMark (by decide)).bind fun _ => ite (withReader (block inner)) (withReader ((inner _).bind fun _ => pure _))

theorem arrowFunction : Agrees (arrowFunction? g) := by
  refine (attempt (arrowHead inner)).bind fun head => ?_
  cases head with
  | some head => exact (arrowBody inner).bind fun _ => pure _
  | none => exact pure _

end
end Agrees
end ClassDocs.Script.Parse
