import ClassDocs.Script.Parse.Program

/-! What readers come to when they are run from a cursor: one equation for each way to put readers together and for each
small step. -/
namespace ClassDocs.Script.Parse
variable {α β σ : Type} {ctx : Context} {c d : Cursor}

@[simp] theorem okBind {ε : Type} (a : α) (f : α → Except ε β) : (Except.ok a).bind f = f a := rfl

@[simp] theorem errorBind {ε : Type} (e : ε) (f : α → Except ε β) : (Except.error e).bind f = .error e := rfl

@[simp] theorem okMap {ε : Type} (a : α) (f : α → β) : (Except.ok a : Except ε α).map f = .ok (f a) := rfl

@[simp] theorem errorMap {ε : Type} (e : ε) (f : α → β) : (Except.error e).map f = .error e := rfl

@[simp] theorem runPure (a : α) : (pure a : Parse α) ctx c = .ok (a, c) := rfl

@[simp] theorem runBind (p : Parse α) (f : α → Parse β) : (p >>= f) ctx c = (p ctx c).bind fun r => f r.1 ctx r.2 := rfl

@[simp] theorem runMap (p : Parse α) (f : α → β) : (f <$> p) ctx c = (p ctx c).map fun r => (f r.1, r.2) := by
  simp only [Functor.map, StateT.map]
  rfl

@[simp] theorem runGet : (get : Parse Cursor) ctx c = .ok (c, c) := rfl

@[simp] theorem runSet : (set d : Parse PUnit) ctx c = .ok (⟨⟩, d) := rfl

@[simp] theorem runModify (f : Cursor → Cursor) : (modify f : Parse PUnit) ctx c = .ok (⟨⟩, f c) := rfl

@[simp] theorem runRead : (read : Parse Context) ctx c = .ok (ctx, c) := rfl

@[simp] theorem runWithReader (f : Context → Context) (p : Parse α) : (withReader f p : Parse α) ctx c = p (f ctx) c := rfl

@[simp] theorem runThrow (e : SyntaxError) : (throw e : Parse α) ctx c = .error e := rfl

@[simp] theorem runIte (b : Prop) [Decidable b] (p q : Parse α) : (if b then p else q) ctx c = if b then p ctx c else q ctx c := by
  split <;> rfl

@[simp] theorem runFail (message : String) : (fail message : Parse α) ctx c = .error ⟨c.start, message⟩ := rfl

@[simp] theorem runIsMark (mark : String) : isMark mark ctx c = .ok (c.token == .punctuator mark, c) := rfl

@[simp] theorem runIsWord (word : String) : isWord word ctx c = .ok (c.token == .name word false, c) := rfl

theorem runAdvance (h : c.next ctx.limit = .ok d) : advance ctx c = .ok ((), d) := by
  simp [advance, h]

theorem runAhead (h : c.next ctx.limit = .ok d) : ahead ctx c = .ok (some d, c) := by
  simp [ahead, h]

theorem runAccept {t : Token} (here : c.token = t) (h : c.next ctx.limit = .ok d) : accept t ctx c = .ok (true, d) := by
  simp [accept, here, runAdvance h]

theorem runAcceptOther {t : Token} (other : c.token ≠ t) : accept t ctx c = .ok (false, c) := by
  simp [accept, other]

theorem runExpectMark {mark : String} (here : c.token = .punctuator mark) (h : c.next ctx.limit = .ok d) :
    expectMark mark ctx c = .ok ((), d) := by
  simp [expectMark, acceptMark, runAccept here h]

theorem runAttempt {p : Parse α} {a : α} (h : p ctx c = .ok (a, d)) : attempt p ctx c = .ok (some a, d) := by
  simp [attempt, h]

theorem iterateDone {step : σ → Parse (σ ⊕ α)} {s : σ} {a : α} (h : step s ctx c = .ok (.inr a, d)) (fuel : Nat) :
    iterate step (fuel + 1) s ctx c = .ok (a, d) := by
  simp [iterate, h]

theorem iterateNext {step : σ → Parse (σ ⊕ α)} {s s' : σ} (h : step s ctx c = .ok (.inl s', d)) (fuel : Nat) :
    iterate step (fuel + 1) s ctx c = iterate step fuel s' ctx d := by
  simp [iterate, h]

theorem iterateFails {step : σ → Parse (σ ⊕ α)} {s : σ} {e : SyntaxError} (h : step s ctx c = .error e) (fuel : Nat) :
    iterate step (fuel + 1) s ctx c = .error e := by
  simp [iterate, h]

theorem loopDone {step : σ → Parse (σ ⊕ α)} {s : σ} {a : α} (h : step s ctx c = .ok (.inr a, d)) :
    loop s step ctx c = .ok (a, d) := by
  simp [loop, iterateDone h]

end ClassDocs.Script.Parse
