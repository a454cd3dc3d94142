import ClassDocs.Proofs.Script.AgreeingOperations

/-! The readers of statements agree, and thereby those of the whole grammar. -/
namespace ClassDocs.Script.Parse
variable {α β : Type} {g : Grammar}

namespace Agrees

theorem declarationAhead : Agrees declarationAhead := by
  have looks (x : Context) : Looks fun c => (x.nameOf? c.token).isSome || c.token == .punctuator "[" || c.token == .punctuator "\x7b" :=
    looksAt (fun _ t => (x.nameOf? t).isSome || t == .punctuator "[" || t == .punctuator "\x7b") fun _ => by simp [Context.nameOf?]
  refine isWord.bind fun _ => isWord.bind fun _ => ite (pure _) <| isWord.bind fun _ => ite ?_ (pure _)
  refine lookAheadIn looks (fun o => ?_) fun ctx o o' same => ?_
  · cases o with
    | some c => exact read fun x => pure _
    | none => exact pure _
  · cases o <;> cases o' <;> exact congrArg (fun b (c : Cursor) => (.ok (b, c) : Except SyntaxError (Bool × Cursor))) same

/- A value may be left out in front of the end of the script and on a new line. In front of the parenthesis it is missed. -/
theorem endsHere {q : Bool → Parse β} (each : ∀ b, Agrees (q b))
    (missed : ∀ ctx start remarks pending, Past (q false ctx (.closing start false remarks pending))) : Agrees (endsHere >>= q) := by
  refine getApart (fun _ => each _) (fun _ => rfl) fun ctx start fresh remarks pending => ?_
  cases fresh with
  | true => exact (each true).cuts ctx (.atCut ..)
  | false => exact .past (missed ctx start remarks pending) ((each true).spent ctx (Cursor.finishedSpent ..))

/- What is left out in front of the parenthesis of the ending is not there at the end of the script. -/
theorem isClosing {q : Bool → Parse β} (each : ∀ b, Agrees (q b))
    (past : ∀ ctx start fresh remarks pending, Past (q true ctx (.closing start fresh remarks pending))) : Agrees (Parse.isMark ")" >>= q) :=
  getApart (fun _ => each _) (fun _ => rfl) fun ctx start fresh remarks pending =>
    .past (past ctx start fresh remarks pending) ((each false).spent ctx (Cursor.finishedSpent ..))

theorem eachAhead : Agrees eachAhead := isWord.bind fun _ => isWord.bind fun _ => pure _

theorem jumpRest : Agrees jumpRest := by
  have ends : Agrees (Parse.semicolon >>= fun _ => Pure.pure (plain [])) := semicolon.bind fun _ => pure _
  exact endsHere (fun _ => ite (variableName.bind fun _ => ends) ends) fun _ _ _ _ => trivial

section
variable (inner : All g)
include inner

theorem parenthesized : Agrees (parenthesized g) := expectMark.bind fun _ => (expression inner).bind fun _ => expectMark.bind fun _ => pure _

theorem body : Agrees (body g) := inner _

theorem declarators : Agrees (declarators g) := by
  unfold Parse.declarators
  extract_lets declarator
  have each : Agrees declarator := (inner _).bind fun target => acceptMark.bind fun _ => ite ((map (inner _)).bind fun _ => pure _) (pure _)
  exact each.bind fun first => loop fun _ => acceptMark.bind fun _ => ite (each.bind fun _ => pure _) (pure _)

theorem declaration : Agrees (declaration g) := by
  refine get (fun c => isWord.bind fun _ => advance.bind fun _ => (declarators inner).bind fun _ => orFail ?_) (fun _ => rfl) fun _ _ _ _ => rfl
  exact semicolon.bind fun _ => pure _

theorem countingRest {first : List Tree} : Agrees (countingRest g first) := by
  refine (isMark (by decide)).bind fun _ => ?_
  extract_lets behindTest
  have rest (test : List Tree) : Agrees (behindTest test) := by
    have exits (step : List Tree) : Agrees (Parse.body g >>= fun inside => Pure.pure (plain (first ++ test ++ step ++ [inside]))) :=
      (body inner).bind fun _ => pure _
    refine expectMark.bind fun _ => isClosing (fun _ => ?_) (pastExpecting (q := fun _ => _) (exits []))
    exact ite ((pure _).bind fun _ => expectMark.bind fun _ => exits _) ((expression inner).bind fun _ => (pure _).bind fun _ =>
      expectMark.bind fun _ => exits _)
  exact ite ((pure _).bind rest) ((expression inner).bind fun _ => (pure _).bind rest)

theorem eachRest {isAwait : Bool} {target : Tree} : Agrees (eachRest g isAwait target) := by
  unfold Parse.eachRest
  extract_lets behind
  have rest (range : Tree) : Agrees (behind range) := expectMark.bind fun _ => (body inner).bind fun _ => pure _
  refine acceptWord.bind fun _ => ite ((inner _).bind rest) (ite ((fail _).bind rest) ?_)
  exact expectWord.bind fun _ => (expression inner).bind rest

theorem forRest : Agrees (forRest g) := by
  refine read fun x => ?_
  extract_lets behindAwait
  have rest (isAwait : Bool) : Agrees (behindAwait isAwait) := by
    refine expectMark.bind fun _ => (isMark (by decide)).bind fun _ => ite (advance.bind fun _ => countingRest inner) ?_
    refine declarationAhead.bind fun _ => ite ?_ (isWord.bind fun _ => ?_)
    · refine get (fun c => isWord.bind fun _ => advance.bind fun _ => (withReader (declarators inner)).bind fun ds => ?_) (fun _ => rfl) fun _ _ _ _ => rfl
      exact eachAhead.bind fun _ => ite (eachRest inner) (orFail (expectMark.bind fun _ => countingRest inner))
    · refine (withReader (expression inner)).bind fun first => eachAhead.bind fun _ => ite (asTarget.bind fun target => ?_) ?_
      · split
        · exact isWord.bind fun _ => orFail (eachRest inner)
        · exact eachRest inner
      · exact orFail (expectMark.bind fun _ => countingRest inner)
  exact ite (acceptWord.bind rest) ((pure _).bind rest)

theorem caseBody : Agrees (caseBody g) :=
  loop fun _ => isWord.bind fun _ => isWord.bind fun _ => (isMark (by decide)).bind fun _ => ite (pure _) ((inner _).bind fun _ => pure _)

theorem switchRest : Agrees (switchRest g) := by
  refine (parenthesized inner).bind fun _ => expectMark.bind fun _ => (itemsUntil ?_).bind fun _ => pure _
  extract_lets behindTest
  have rest (test : List Tree) : Agrees (behindTest test) := expectMark.bind fun _ => (caseBody inner).bind fun _ => pure _
  exact acceptWord.bind fun _ => ite ((expression inner).bind fun _ => (pure _).bind rest) (expectWord.bind fun _ => (pure _).bind rest)

theorem tryRest : Agrees (tryRest g) := by
  refine (block inner).bind fun guarded => ?_
  extract_lets behindHandler behindError
  have rest (handler : Option (List Tree)) : Agrees (behindHandler handler) :=
    acceptWord.bind fun _ => ite ((map (block inner)).bind fun _ => orFail (pure _)) ((pure _).bind fun _ => orFail (pure _))
  have caught (error : List Tree) : Agrees (behindError error) := (block inner).bind fun _ => (pure _).bind rest
  refine acceptWord.bind fun _ => ite (acceptMark.bind fun _ => ite ?_ ((pure _).bind caught)) ((pure _).bind rest)
  exact (inner _).bind fun _ => expectMark.bind fun _ => (pure _).bind caught

theorem ifRest : Agrees (ifRest g) :=
  (parenthesized inner).bind fun _ => (body inner).bind fun _ => acceptWord.bind fun _ =>
    ite ((body inner).bind fun _ => (pure _).bind fun _ => pure _) ((pure _).bind fun _ => pure _)

theorem doRest : Agrees (doRest g) :=
  (body inner).bind fun _ => expectWord.bind fun _ => (parenthesized inner).bind fun _ => acceptMark.bind fun _ => pure _

theorem throwRest : Agrees (throwRest g) := by
  refine get (fun c => orFail ?_) (fun _ => rfl) fun _ _ _ _ => rfl
  exact (expression inner).bind fun _ => semicolon.bind fun _ => pure _

theorem expressionStatement : Agrees (expressionStatement g) := (expression inner).bind fun _ => semicolon.bind fun _ => pure _

theorem namedStatement : Agrees (namedStatement g) := by
  refine read fun x => get (fun c => ?_) (fun _ => rfl) fun _ _ _ _ => rfl
  have looks : Looks fun c => c.token == .punctuator ":" := looksAt (fun _ t => t == .punctuator ":") fun _ => by simp
  refine lookAhead looks (fun o => ite ?_ (expressionStatement inner)) fun o o' same => by rw [same]
  exact advance.bind fun _ => advance.bind fun _ => (body inner).bind fun _ => pure _

theorem declaration? {alone : Bool} : Agrees (declaration? g alone) := by
  refine functionAhead.bind fun _ => ite (isWord.bind fun _ => ?_) ?_
  · have looks : Looks fun c => c.token == .punctuator "*" := looksAt (fun _ t => t == .punctuator "*") fun _ => by simp
    refine lookAhead looks (fun o => orFail (map (functionDeclaration inner))) fun o o' same => by dsimp only; rw [same]
  · refine isWord.bind fun _ => ite (orFail (advance.bind fun _ => ?_)) ?_
    · refine read fun x => get (fun c => orFail (map (classRest inner))) (fun _ => rfl) fun _ _ _ _ => rfl
    · exact declarationAhead.bind fun _ => ite (isWord.bind fun _ => orFail (map (declaration inner))) (pure _)

section
variable (values : ∀ ctx c, c.token = .punctuator ")" → (g .assignment ctx c).isOk = false)
include values

theorem returnRest : Agrees (returnRest g) := by
  refine read fun x => orFail (endsHere (fun _ => ?_) fun ctx start remarks pending => ?_)
  · exact ite ((pure _).bind fun _ => semicolon.bind fun _ => pure _) ((map (expression inner)).bind fun _ => semicolon.bind fun _ => pure _)
  · have failed := values ctx (.closing start false remarks pending) rfl
    cases run : g .assignment ctx (.closing start false remarks pending) with
    | ok r => simp [run, Except.isOk, Except.toBool] at failed
    | error e => simp [Parse.expression, run, Leads]

theorem keywordStatement {word : String} {rest : Parse Tree} (found : keywordStatement? g word = some rest) : Agrees rest := by
  unfold keywordStatement? at found
  split at found
  all_goals cases found
  case h_1 => exact ifRest inner
  case h_2 => exact forRest inner
  case h_5 => exact doRest inner
  case h_6 => exact returnRest inner values
  case h_7 | h_8 => exact jumpRest
  case h_9 => exact throwRest inner
  case h_10 => exact tryRest inner
  case h_11 => exact switchRest inner
  case h_12 => exact semicolon.bind fun _ => pure _
  all_goals exact (parenthesized inner).bind fun _ => (body inner).bind fun _ => pure _

theorem statement {alone : Bool} : Agrees (statement g alone) := by
  refine (declaration? inner).bind fun o => ?_
  cases o with
  | some t => exact pure _
  | none =>
    refine get (fun c => ?_) (fun _ => rfl) fun _ _ _ _ => rfl
    split
    · exact advance.bind fun _ => pure _
    · exact (block inner).bind fun _ => pure _
    · rename_i word token
      cases found : keywordStatement? g word with
      | none => exact namedStatement inner
      | some rest => exact advance.bind fun _ => keywordStatement inner values found
    · exact expressionStatement inner

end
end
end Agrees

/- In front of a parenthesis that closes there is no value. -/
theorem closingNoValue {ctx : Context} {c : Cursor} (here : c.token = .punctuator ")") : (assignment g ctx c).isOk = false := by
  have primary : primary g ctx c = .error ⟨c.start, "expected an expression"⟩ := by simp [primary, here]
  have leftSide : leftSide g ctx c = .error ⟨c.start, "expected an expression"⟩ := by simp [leftSide, primary]
  have unary : unary g ctx c = .error ⟨c.start, "expected an expression"⟩ := by
    simp [unary, here, prefixMarks, isStep, steppedBehind, leftSide]
  have assigned : assigned g ctx c = .error ⟨c.start, "expected an expression"⟩ := by simp [assigned, conditional, binary, here, unary]
  have noArrow : arrowFunction? g ctx c = .ok (none, c) := by
    have failed : arrowHead g ctx c = .error ⟨c.start, "expected a name"⟩ := by
      simp [arrowHead, acceptModifier, here, acceptMark, accept, variableName, Context.nameOf?]
    simp [arrowFunction?, attemptFails failed]
  have noYield : c.token ≠ .name "yield" false := by simp [here]
  simp [assignment, here, noArrow, assigned, Except.isOk, Except.toBool]

theorem Agrees.grammar (depth : Nat) : Agrees.All (grammar depth) := by
  induction depth with
  | zero => exact fun _ => .fail _
  | succ depth ih =>
    intro goal
    cases goal with
    | assignment => exact .assignment ih
    | binary level => exact .binary ih
    | unary => exact .unary ih
    | leftSide => exact .leftSide ih
    | callee => exact .callee ih
    | binding => exact .binding ih
    | statement alone =>
      refine .statement ih fun ctx c here => ?_
      cases depth with
      | zero => rfl
      | succ depth => exact closingNoValue here

end ClassDocs.Script.Parse
