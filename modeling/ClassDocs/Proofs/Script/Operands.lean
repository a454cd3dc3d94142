import ClassDocs.Proofs.Script.Run

/-! Operands that stand alone. Where a mark follows that ends an expression, the readers of accesses, calls, operators,
conditions and assignments find nothing to add to what stands in front of it. -/
namespace ClassDocs.Script.Parse
variable {ctx : Context} {c d : Cursor} {g : Grammar} {t : Tree}

/-- The marks behind an item of a list and behind an expression that is a statement. -/
def endMarks : List String := [",", "]", "\x7d", ")", ";"]

/-- A token that an operand begins with, and that is no part of an operator, a function or a declaration. -/
def opensOperand : Token → Bool
  | .string _ => true
  | .name word escaped => !escaped && (word == "true" || word == "false")
  | .punctuator mark => mark == "(" || mark == "[" || mark == "\x7b"
  | _ => false

structure EndsAt (d : Cursor) (mark : String) : Prop where
  token : d.token = .punctuator mark
  ends : mark ∈ endMarks

theorem leftSideAlone {mark : String} (first : primary g ctx c = .ok (t, d)) (ends : EndsAt d mark) :
    leftSide g ctx c = .ok (t, d) := by
  obtain ⟨token, ends⟩ := ends
  simp only [endMarks, List.mem_cons, List.not_mem_nil, or_false] at ends
  simp only [leftSide, runBind, runGet, okBind, first]
  apply loopDone
  rcases ends with rfl | rfl | rfl | rfl | rfl
  all_goals simp [acceptMark, accept, access?, isTemplate, token]

theorem steppedAlone {mark : String} (first : primary g ctx c = .ok (t, d)) (ends : EndsAt d mark) :
    steppedBehind g ctx c = .ok (t, d) := by
  have alone := leftSideAlone first ends
  obtain ⟨token, ends⟩ := ends
  simp only [endMarks, List.mem_cons, List.not_mem_nil, or_false] at ends
  rcases ends with rfl | rfl | rfl | rfl | rfl
  all_goals simp [steppedBehind, alone, isStep, token]

theorem operandCases {token : Token} (opens : opensOperand token = true) : (∃ s, token = .string s) ∨
    token ∈ [Token.name "true" false, .name "false" false, .punctuator "(", .punctuator "[", .punctuator "\x7b"] := by
  cases token with
  | string s => exact .inl ⟨s, rfl⟩
  | name word escaped =>
    simp only [opensOperand, Bool.and_eq_true, Bool.not_eq_true', Bool.or_eq_true, beq_iff_eq] at opens
    obtain ⟨rfl, rfl | rfl⟩ := opens <;> simp
  | punctuator mark =>
    simp only [opensOperand, Bool.or_eq_true, beq_iff_eq] at opens
    obtain (rfl | rfl) | rfl := opens <;> simp
  | _ => contradiction

theorem operandOther (opens : opensOperand c.token = true) {mark : String} (listed : mark ∈ [")", "]", "\x7d", ",", "...", "*"]) :
    accept (.punctuator mark) ctx c = .ok (false, c) := by
  refine runAcceptOther fun same => ?_
  rw [same] at opens
  simp only [List.mem_cons, List.not_mem_nil, or_false] at listed
  rcases listed with rfl | rfl | rfl | rfl | rfl | rfl <;> exact absurd opens (by decide)

theorem unaryAlone {mark : String} (opens : opensOperand c.token = true) (first : primary g ctx c = .ok (t, d))
    (ends : EndsAt d mark) : unary g ctx c = .ok (t, d) := by
  have alone := steppedAlone first ends
  rcases operandCases opens with ⟨s, token⟩ | token
  · simp [unary, token, alone]
  · simp only [List.mem_cons, List.not_mem_nil, or_false] at token
    rcases token with token | token | token | token | token
    all_goals simp [unary, token, alone, prefixMarks, prefixWords, isStep]

theorem noOperator {mark : String} (ends : EndsAt d mark) : operator? ctx d.token = none := by
  obtain ⟨token, ends⟩ := ends
  simp only [endMarks, List.mem_cons, List.not_mem_nil, or_false] at ends
  rw [token]
  rcases ends with rfl | rfl | rfl | rfl | rfl <;> rfl

theorem binaryAlone {mark : String} (opens : opensOperand c.token = true) (first : primary g ctx c = .ok (t, d))
    (ends : EndsAt d mark) : binary g 0 ctx c = .ok (t, d) := by
  have alone := unaryAlone opens first ends
  have none := @noOperator ctx _ _ ends
  rcases operandCases opens with ⟨s, token⟩ | token
  · simp only [binary, runBind, runGet, okBind, token, alone]
    exact loopDone (by simp [none])
  · simp only [List.mem_cons, List.not_mem_nil, or_false] at token
    rcases token with token | token | token | token | token
    all_goals
      simp only [binary, runBind, runGet, okBind, token, alone]
      exact loopDone (by simp [none])

theorem assignedAlone {mark : String} (opens : opensOperand c.token = true) (first : primary g ctx c = .ok (t, d))
    (ends : EndsAt d mark) : assigned g ctx c = .ok (t, d) := by
  have alone := binaryAlone opens first ends
  obtain ⟨token, ends⟩ := ends
  simp only [endMarks, List.mem_cons, List.not_mem_nil, or_false] at ends
  rcases ends with rfl | rfl | rfl | rfl | rfl
  all_goals simp [assigned, conditional, alone, acceptMark, accept, token, assignmentOperators]

/- Parameters of an arrow function begin with a parenthesis or a name. -/
theorem noArrow (opens : opensOperand c.token = true) (inner : c.token ≠ .punctuator "(") :
    arrowFunction? g ctx c = .ok (none, c) := by
  have failed : ∃ e, arrowHead g ctx c = .error e := by
    rcases operandCases opens with ⟨s, token⟩ | token
    · simp [arrowHead, acceptModifier, acceptMark, accept, variableName, Context.nameOf?, token]
    · simp only [List.mem_cons, List.not_mem_nil, or_false] at token
      rcases token with token | token | token | token | token
      · simp [arrowHead, acceptModifier, acceptMark, accept, variableName, Context.nameOf?, reservedWords, token]
      · simp [arrowHead, acceptModifier, acceptMark, accept, variableName, Context.nameOf?, reservedWords, token]
      · exact absurd token inner
      · simp [arrowHead, acceptModifier, acceptMark, accept, variableName, Context.nameOf?, token]
      · simp [arrowHead, acceptModifier, acceptMark, accept, variableName, Context.nameOf?, token]
  obtain ⟨e, failed⟩ := failed
  simp [arrowFunction?, attemptFails failed]

/- In parentheses an operand may be read as parameters; what counts is that no arrow stands behind them. -/
theorem noParenArrow (token : c.token = .punctuator "(") (next : c.next ctx.limit = .ok d)
    (other : ∀ ps e, parameters g { ctx with inAllowed := true, awaits := ctx.awaits || false } d = .ok (ps, e) → e.token ≠ .punctuator "=>") :
    arrowFunction? g ctx c = .ok (none, c) := by
  have noModifier (fits : Cursor → Bool) : acceptModifier "async" fits ctx c = .ok (false, c) := by simp [acceptModifier, token]
  have failed : ∃ e, arrowHead g ctx c = .error e := by
    obtain ⟨inner, same⟩ : ∃ inner : Context, inner = { ctx with awaits := ctx.awaits || false } := ⟨_, rfl⟩
    have opened : accept (.punctuator "(") inner c = .ok (true, d) := runAccept token (by rw [same]; exact next)
    simp only [arrowHead, runBind, noModifier, okBind, runWithReader, ← same, acceptMark, opened, runIte, if_true, allowingIn]
    cases h : parameters g { ctx with inAllowed := true, awaits := ctx.awaits || false } d with
    | error e => exact ⟨e, rfl⟩
    | ok r =>
      obtain ⟨ps, e⟩ := r
      have noArrow : accept (.punctuator "=>") inner e = .ok (false, e) := runAcceptOther (other ps e h)
      cases fresh : e.fresh <;> simp [expectMark, acceptMark, noArrow, fresh]
  obtain ⟨e, failed⟩ := failed
  simp [arrowFunction?, attemptFails failed]

theorem assignmentAlone {mark : String} (opens : opensOperand c.token = true) (none : arrowFunction? g ctx c = .ok (none, c))
    (first : primary g ctx c = .ok (t, d)) (ends : EndsAt d mark) : assignment g ctx c = .ok (t, d) := by
  have alone := assignedAlone opens first ends
  have noYield : c.token ≠ .name "yield" false := by
    rcases operandCases opens with ⟨s, token⟩ | token
    · simp [token]
    · simp only [List.mem_cons, List.not_mem_nil, or_false] at token
      rcases token with token | token | token | token | token <;> simp [token]
  simp [assignment, noYield, none, alone]
/- A key that is spelled like a mark of a method is none in front of a colon. -/
theorem noMarks (keyed : (∃ word, c.token = .name word false) ∨ ∃ x, c.token = .number x)
    (next : c.next ctx.limit = .ok d) (colon : d.token = .punctuator ":") :
    methodMarks ctx c = .ok (⟨⟨false, false⟩, none⟩, c) := by
  have ahead := runAhead next
  rcases keyed with ⟨word, token⟩ | ⟨x, token⟩
  · by_cases isAsync : word = "async"
    · simp [methodMarks, acceptModifier, acceptMark, accept, token, ahead, isAsync, colon, startsKey]
    · by_cases isGet : word = "get"
      · simp [methodMarks, acceptModifier, acceptMark, accept, token, ahead, isGet, colon, startsKey]
      · by_cases isSet : word = "set"
        · simp [methodMarks, acceptModifier, acceptMark, accept, token, ahead, isSet, colon, startsKey]
        · simp [methodMarks, acceptModifier, acceptMark, accept, token, isAsync, isGet, isSet]
  · simp [methodMarks, acceptModifier, acceptMark, accept, token]

end ClassDocs.Script.Parse
