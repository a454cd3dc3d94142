import ClassDocs.Proofs.Script.Cutting

/-! Readers come to the same in the script that goes on and in the one that is cut off, until one of them uses up the ending. -/
namespace ClassDocs.Script.Parse
variable {α β σ : Type} {p : Parse α} {q : α → Parse β}

/-- Whatever the reader comes to is behind the first token of the ending. -/
abbrev Past (r : Except SyntaxError (α × Cursor)) : Prop := Leads True (fun _ d => d.Spent) r

inductive Verdict : Except SyntaxError (α × Cursor) → Except SyntaxError (α × Cursor) → Prop where
  | both (a : α) {d e : Cursor} : Cursor.Cuts d e → Verdict (.ok (a, d)) (.ok (a, e))
  | past {r s : Except SyntaxError (α × Cursor)} : Past r → Past s → Verdict r s

structure Agrees (p : Parse α) : Prop where
  cuts : ∀ ctx {c d : Cursor}, Cursor.Cuts c d → Verdict (p ctx c) (p ctx d)
  spent : ∀ ctx {c : Cursor}, c.Spent → Past (p ctx c)

theorem Past.bind {r : Except SyntaxError (α × Cursor)} {f : α × Cursor → Except SyntaxError (β × Cursor)} (past : Past r)
    (next : ∀ a d, d.Spent → Past (f (a, d))) : Past (r.bind f) :=
  match r, past with
  | .ok (a, d), spent => next a d spent
  | .error _, _ => trivial

/-- Two runs go on: from the same place in both scripts, or from behind the ending. -/
theorem Verdict.next {r s : Except SyntaxError (α × Cursor)} {f : α × Cursor → Except SyntaxError (β × Cursor)}
    {P : Except SyntaxError (β × Cursor) → Except SyntaxError (β × Cursor) → Prop} (verdict : Verdict r s)
    (both : ∀ a {d e : Cursor}, Cursor.Cuts d e → P (f (a, d)) (f (a, e))) (past : Past r → Past s → P (r.bind f) (s.bind f)) :
    P (r.bind f) (s.bind f) := by
  cases verdict with
  | both a cuts => exact both a cuts
  | past full cut => exact past full cut

theorem runLook (ctx : Context) (c : Cursor) : ahead ctx c = .ok ((c.next ctx.limit).toOption, c) := by
  cases next : c.next ctx.limit <;> simp [ahead, next, Except.toOption]

theorem acceptHere {t : Token} {ctx : Context} {c : Cursor} (same : c.token = t) :
    accept t ctx c = (advance >>= fun _ => pure true) ctx c := by
  cases h : c.next ctx.limit <;> simp [accept, same, advance, h]

namespace Agrees

theorem pure (a : α) : Agrees (Pure.pure a : Parse α) := ⟨fun _ _ _ cuts => .both a cuts, fun _ _ spent => spent⟩

theorem fail (message : String) : Agrees (fail message : Parse α) := ⟨fun _ _ _ _ => .past trivial trivial, fun _ _ _ => trivial⟩

theorem bind (first : Agrees p) (next : ∀ a, Agrees (q a)) : Agrees (p >>= q) where
  cuts ctx c d cuts := by
    have spent (a : α) (d : Cursor) (spent : d.Spent) : Past (q a ctx d) := (next a).spent ctx spent
    rw [runBind, runBind]
    exact (first.cuts ctx cuts).next (fun a => (next a).cuts ctx) fun full cut => .past (full.bind spent) (cut.bind spent)
  spent ctx c spent := (first.spent ctx spent).bind fun a d spent => (next a).spent ctx spent

theorem map {w : α → β} (first : Agrees p) : Agrees (w <$> p) := by
  rw [map_eq_pure_bind]
  exact first.bind fun a => pure (w a)

theorem ite {b : Prop} [Decidable b] {p p' : Parse α} (yes : Agrees p) (no : Agrees p') : Agrees (if b then p else p') := by
  split
  · exact yes
  · exact no

/- What is done where the reader does not fail. -/
theorem orFail {b : Prop} [Decidable b] {message : String} {q : Unit → Parse β} (next : Agrees (q ())) :
    Agrees (if b then Parse.fail message >>= q else q ()) := ite ((fail _).bind fun _ => next) next

theorem read {q : Context → Parse β} (next : ∀ x, Agrees (q x)) : Agrees (read >>= q) :=
  ⟨fun ctx _ _ cuts => (next ctx).cuts ctx cuts, fun ctx _ spent => (next ctx).spent ctx spent⟩

theorem withReader {w : Context → Context} (inside : Agrees p) : Agrees (withReader w p) :=
  ⟨fun ctx _ _ cuts => inside.cuts (w ctx) cuts, fun ctx _ spent => inside.spent (w ctx) spent⟩

/-- What is done with the cursor does not depend on the text behind its token. -/
theorem getApart {q : Cursor → Parse β} (each : ∀ c, Agrees (q c)) (blind : ∀ c, q c.more = q c)
    (atCut : ∀ ctx start fresh remarks pending, Verdict (q (.closing start fresh remarks pending) ctx (.closing start fresh remarks pending))
      (q (.finished start fresh remarks pending) ctx (.finished start fresh remarks pending))) : Agrees (MonadState.get >>= q) where
  cuts ctx c d cuts := by
    change Verdict (q c ctx c) (q d ctx d)
    cases cuts with
    | inside =>
      rw [blind]
      exact (each d).cuts ctx (.inside d)
    | atCut => exact atCut ..
  spent ctx c spent := (each c).spent ctx spent

/- Nor does it depend on the token where the scripts are cut. -/
theorem get {q : Cursor → Parse β} (each : ∀ c, Agrees (q c)) (blind : ∀ c, q c.more = q c)
    (atCut : ∀ start fresh remarks pending, q (.closing start fresh remarks pending) = q (.finished start fresh remarks pending)) :
    Agrees (MonadState.get >>= q) :=
  getApart each blind fun ctx start fresh remarks pending => by
    rw [atCut]
    exact (each _).cuts ctx (.atCut ..)

theorem modify {w : List Nat → List Nat} : Agrees (modify fun c => { c with pending := w c.pending } : Parse PUnit) where
  cuts ctx c d cuts := by
    cases cuts with
    | inside c => exact .both _ (.inside { d with pending := w d.pending })
    | atCut start fresh remarks pending => exact .both _ (.atCut start fresh remarks (w pending))
  spent ctx c spent := ⟨spent.rest, spent.token⟩

theorem advance : Agrees advance where
  cuts ctx c d cuts := by
    have nexts := Cursor.nextCuts ctx.limit cuts
    simp only [Parse.advance, runBind, runGet, runRead, okBind]
    generalize c.next ctx.limit = full at nexts
    generalize d.next ctx.limit = cut at nexts
    cases nexts with
    | both cuts => exact .both _ cuts
    | past spent spent' => exact .past spent spent'
    | broken => exact .past trivial trivial
  spent ctx c spent := by
    obtain ⟨d, next, spent⟩ := spent.next ctx.limit
    rw [runAdvance next]
    exact spent

/-- A parenthesis that closes takes the first token of the ending, and there is none where the script is cut off. -/
theorem accept {t : Token} (more : (t == .finish) = false) : Agrees (accept t) where
  cuts ctx c d cuts := by
    have passes : Agrees (Parse.advance >>= fun _ => Pure.pure true) := advance.bind fun _ => pure true
    by_cases here : d.token = t
    · cases cuts with
      | inside =>
        rw [acceptHere here, acceptHere (c := d.more) here]
        exact passes.cuts ctx (.inside d)
      | atCut =>
        subst here
        contradiction
    · by_cases atCut : c.token = t
      · cases cuts with
        | inside => contradiction
        | atCut start fresh remarks pending =>
          rw [runAccept atCut (Cursor.cutNext ..), runAcceptOther here]
          exact .past (Cursor.endedSpent ..) (Cursor.finishedSpent ..)
      · rw [runAcceptOther here, runAcceptOther atCut]
        exact .both _ cuts
  spent ctx c spent := by
    by_cases same : c.token = t
    · obtain ⟨d, next, spent⟩ := spent.next ctx.limit
      rw [runAccept same next]
      exact spent
    · rw [runAcceptOther same]
      exact spent

theorem acceptMark {mark : String} : Agrees (acceptMark mark) := accept rfl

theorem acceptWord {word : String} : Agrees (acceptWord word) := accept rfl

theorem expectMark {mark : String} : Agrees (expectMark mark) := acceptMark.bind fun _ => ite (fail _) (pure _)

theorem expectWord {word : String} : Agrees (expectWord word) := acceptWord.bind fun _ => ite (fail _) (pure _)

theorem isMark {mark : String} (other : mark ≠ ")") : Agrees (isMark mark) :=
  get (fun _ => pure _) (fun _ => rfl) fun start fresh remarks pending => by
    have no : ((Cursor.closing start fresh remarks pending).token == Token.punctuator mark) = false := by
      simpa [Cursor.closing] using other.symm
    rw [no]
    rfl

theorem isWord {word : String} : Agrees (isWord word) := get (fun _ => pure _) (fun _ => rfl) fun _ _ _ _ => rfl

/- On a new line a statement may end in front of the parenthesis, on the same one it may not. -/
theorem semicolon : Agrees semicolon := by
  refine acceptMark.bind fun ends => ite ?_ (pure _)
  refine getApart (fun c => ite (fail _) (pure _)) (fun _ => rfl) fun ctx start fresh remarks pending => ?_
  cases fresh with
  | false => exact .past trivial (Cursor.finishedSpent ..)
  | true => exact .both _ (.atCut ..)

theorem iterate {step : σ → Parse (σ ⊕ α)} (round : ∀ s, Agrees (step s)) (fuel : Nat) (s : σ) : Agrees (iterate step fuel s) := by
  induction fuel generalizing s with
  | zero => exact fail _
  | succ fuel ih =>
    refine (round s).bind fun r => ?_
    cases r with
    | inl s => exact ih s
    | inr a => exact pure a

theorem loop {s : σ} {step : σ → Parse (σ ⊕ α)} (round : ∀ s, Agrees (step s)) : Agrees (loop s step) := read fun _ => iterate round _ s

/-- The text behind the cut is no part of what is scanned again. -/
theorem reread {scan : List Char → Option Lexeme} {message : String} (more : ∀ s, scan (s ++ ending) = (scan s).map (·.before ending))
    (nothing : scan [] = none ∧ scan [';'] = none) : Agrees (reread scan message) where
  cuts ctx c d cuts := by
    cases cuts with
    | inside =>
      have run : d.more.reread scan = (d.reread scan).map Cursor.more := by
        simp only [Cursor.reread, Cursor.more, ← List.append_assoc, more, Option.map_map]
        rfl
      cases again : d.reread scan with
      | none => simpa [Parse.reread, run, again] using .past trivial trivial
      | some e => simpa [Parse.reread, run, again] using .both () (.inside e)
    | atCut start fresh remarks pending =>
      have closed : (Cursor.closing start fresh remarks pending).reread scan = none := by
        have unscanned : scan ending = none := by simpa [nothing] using more []
        simp [Cursor.reread, Cursor.closing, show [')', ';'] = ending from rfl, unscanned]
      have finished : (Cursor.finished start fresh remarks pending).reread scan = none := by simp [Cursor.reread, Cursor.finished, nothing]
      simpa [Parse.reread, closed, finished] using .past trivial trivial
  spent ctx c spent := by
    have none : c.reread scan = none := by
      rcases spent.token with ⟨-, raw⟩ | ⟨-, raw⟩ <;> simp [Cursor.reread, spent.rest, raw, nothing]
    simp [Parse.reread, none, Leads]

/-- A look at the next token finds nothing in the ending. -/
structure Looks (f : Cursor → Bool) : Prop where
  blind : ∀ c, f c.more = f c
  other : ∀ c : Cursor, c.token ∈ [.finish, .punctuator ")", .punctuator ";"] → f c = false

theorem looksAt (f : Bool → Token → Bool) (other : ∀ fresh, [Token.finish, .punctuator ")", .punctuator ";"].any (f fresh) = false) :
    Looks fun c => f c.fresh c.token :=
  ⟨fun _ => rfl, fun c listed => by simpa using List.any_eq_false.mp (other c.fresh) c.token listed⟩

theorem Looks.spent {f : Cursor → Bool} (looks : Looks f) {c : Cursor} (spent : c.Spent) : f c = false :=
  looks.other c (by rcases spent.token with ⟨token, -⟩ | ⟨token, -⟩ <;> simp [token])

theorem Looks.cuts {f : Cursor → Bool} (looks : Looks f) {c d : Cursor} (cuts : Cursor.Cuts c d) : f c = f d := by
  cases cuts with
  | inside => exact looks.blind d
  | atCut => rw [looks.other _ (by simp [Cursor.closing]), looks.other _ (by simp [Cursor.finished])]

theorem lookAheadIn {f : Context → Cursor → Bool} (looks : ∀ ctx, Looks (f ctx)) {q : Option Cursor → Parse β} (each : ∀ o, Agrees (q o))
    (only : ∀ ctx o o', o.any (f ctx) = o'.any (f ctx) → q o ctx = q o' ctx) : Agrees (ahead >>= q) where
  cuts ctx c d cuts := by
    have same : (c.next ctx.limit).toOption.any (f ctx) = (d.next ctx.limit).toOption.any (f ctx) := by
      have nexts := Cursor.nextCuts ctx.limit cuts
      generalize c.next ctx.limit = full at nexts
      generalize d.next ctx.limit = cut at nexts
      cases nexts with
      | both cuts => exact (looks ctx).cuts cuts
      | past spent spent' => simp [Except.toOption, (looks ctx).spent spent, (looks ctx).spent spent']
      | broken => rfl
    simp only [runBind, runLook, okBind, only ctx _ _ same]
    exact (each _).cuts ctx cuts
  spent ctx c spent := by
    simp only [runBind, runLook, okBind]
    exact (each _).spent ctx spent

/-- What is done with the next token depends on the one look only. -/
theorem lookAhead {f : Cursor → Bool} (looks : Looks f) {q : Option Cursor → Parse β} (each : ∀ o, Agrees (q o))
    (only : ∀ o o', o.any f = o'.any f → q o = q o') : Agrees (ahead >>= q) :=
  lookAheadIn (fun _ => looks) each fun ctx o o' same => congrFun (only o o' same) ctx

theorem acceptModifier {word : String} {fits : Cursor → Bool} (looks : Looks fits) : Agrees (acceptModifier word fits) := by
  refine isWord.bind fun here => ite ⟨fun ctx c d cuts => ?_, fun ctx c spent => ?_⟩ (pure _)
  · have nexts := Cursor.nextCuts ctx.limit cuts
    simp only [runBind, runLook, okBind]
    generalize c.next ctx.limit = full at nexts
    generalize d.next ctx.limit = cut at nexts
    cases nexts with
    | @both e f cuts' =>
      simp only [Except.toOption, looks.cuts cuts']
      cases fits f with
      | true => exact .both _ cuts'
      | false => exact .both _ cuts
    | past spent spent' =>
      simp only [Except.toOption, looks.spent spent, looks.spent spent']
      exact .both _ cuts
    | broken => exact .both _ cuts
  · obtain ⟨d, next, spent'⟩ := spent.next ctx.limit
    simp only [runBind, runLook, okBind, next, Except.toOption, looks.spent spent']
    exact spent

end Agrees

/-- The reader fails in both scripts or in neither, and behind the ending it fails. -/
structure Decides (p : Parse α) : Prop extends Agrees p where
  alike : ∀ ctx {c d : Cursor}, Cursor.Cuts c d → (p ctx c).isOk = (p ctx d).isOk
  refuses : ∀ ctx {c : Cursor}, c.Spent → (p ctx c).isOk = false

namespace Decides

theorem pastRefused {r : Except SyntaxError (α × Cursor)} {f : α × Cursor → Except SyntaxError (β × Cursor)} (past : Past r)
    (refused : ∀ a d, d.Spent → (f (a, d)).isOk = false) : (r.bind f).isOk = false :=
  match r, past with
  | .ok (a, d), spent => refused a d spent
  | .error _, _ => rfl

theorem bind (first : Agrees p) (next : ∀ a, Decides (q a)) : Decides (p >>= q) where
  toAgrees := first.bind fun a => (next a).toAgrees
  alike ctx c d cuts := by
    have refused (a : α) (d : Cursor) (spent : d.Spent) : (q a ctx d).isOk = false := (next a).refuses ctx spent
    rw [runBind, runBind]
    refine (first.cuts ctx cuts).next (P := fun r s => r.isOk = s.isOk) (fun a => (next a).alike ctx) fun full cut => ?_
    rw [pastRefused full refused, pastRefused cut refused]
  refuses ctx c spent := pastRefused (first.spent ctx spent) fun a _ spent => (next a).refuses ctx spent

theorem ite {b : Prop} [Decidable b] {p p' : Parse α} (yes : Decides p) (no : Decides p') : Decides (if b then p else p') := by
  split
  · exact yes
  · exact no

theorem get {q : Cursor → Parse β} (each : ∀ c, Decides (q c)) (blind : ∀ c, q c.more = q c)
    (atCut : ∀ start fresh remarks pending, q (.closing start fresh remarks pending) = q (.finished start fresh remarks pending)) :
    Decides (MonadState.get >>= q) where
  toAgrees := .get (fun c => (each c).toAgrees) blind atCut
  alike ctx c d cuts := by
    have same : q c = q d := by
      cases cuts with
      | inside => exact blind d
      | atCut => exact atCut ..
    change (q c ctx c).isOk = (q d ctx d).isOk
    rw [same]
    exact (each d).alike ctx cuts
  refuses ctx c spent := (each c).refuses ctx spent

theorem andThen {w : α → β} (decides : Decides p) : Decides (p >>= fun a => pure (w a)) where
  toAgrees := decides.toAgrees.bind fun a => .pure (w a)
  alike ctx c d cuts := by
    have alike := decides.alike ctx cuts
    rw [runBind, runBind]
    generalize p ctx c = full at alike
    generalize p ctx d = cut at alike
    cases full <;> cases cut <;> first | rfl | contradiction
  refuses ctx c spent := by
    have refuses := decides.refuses ctx spent
    rw [runBind]
    generalize p ctx c = r at refuses
    cases r with
    | ok r => contradiction
    | error e => rfl

theorem withReader {w : Context → Context} (inside : Decides p) : Decides (withReader w p) :=
  ⟨.withReader inside.toAgrees, fun ctx _ _ cuts => inside.alike (w ctx) cuts, fun ctx _ spent => inside.refuses (w ctx) spent⟩

theorem expectMark {mark : String} (other : mark ≠ ")" ∧ mark ≠ ";") : Decides (expectMark mark) where
  toAgrees := .expectMark
  alike ctx c d cuts := by
    by_cases here : d.token = .punctuator mark
    · cases cuts with
      | inside =>
        have nexts := Cursor.nextCuts ctx.limit (.inside d)
        have run (c : Cursor) (here : c.token = .punctuator mark) : Parse.expectMark mark ctx c = (c.next ctx.limit).map fun d => ((), d) := by
          cases next : c.next ctx.limit <;> simp [Parse.expectMark, Parse.acceptMark, acceptHere here, Parse.advance, next]
        rw [run d here, run d.more here]
        generalize d.more.next ctx.limit = full at nexts
        generalize d.next ctx.limit = cut at nexts
        cases nexts <;> rfl
      | atCut => contradiction
    · have absent : c.token ≠ .punctuator mark := by
        cases cuts with
        | inside => exact here
        | atCut => simpa [Cursor.closing] using other.1.symm
      simp [Parse.expectMark, Parse.acceptMark, runAcceptOther here, runAcceptOther absent, Except.isOk, Except.toBool]
  refuses ctx c spent := by
    have absent : c.token ≠ .punctuator mark := by
      rcases spent.token with ⟨token, -⟩ | ⟨token, -⟩ <;> simp [token, other.2.symm]
    simp [Parse.expectMark, Parse.acceptMark, runAcceptOther absent, Except.isOk, Except.toBool]

end Decides

theorem Agrees.attempt (decides : Decides p) : Agrees (attempt p) where
  cuts ctx c d cuts := by
    have verdict := decides.cuts ctx cuts
    have alike := decides.alike ctx cuts
    rw [Parse.attempt, Parse.attempt]
    generalize p ctx c = full at verdict alike
    generalize p ctx d = cut at verdict alike
    cases verdict with
    | both a cuts => exact .both _ cuts
    | past past past' =>
      cases full with
      | ok r =>
        cases cut with
        | ok s => exact .past past past'
        | error e => contradiction
      | error e =>
        cases cut with
        | ok s => contradiction
        | error f => exact .both _ cuts
  spent ctx c spent := by
    have refuses := decides.refuses ctx spent
    rw [Parse.attempt]
    generalize p ctx c = r at refuses
    cases r with
    | ok r => contradiction
    | error e => exact spent

/-- In front of the parenthesis of the ending the one reader goes on and the other fails. -/
def Hangs (r s : Except SyntaxError ((σ ⊕ α) × Cursor)) : Prop :=
  (∃ t start fresh remarks pending, r = .ok (.inl t, .closing start fresh remarks pending)) ∧ Past s

/-- Where the parenthesis of the ending may be next, which ends a list. -/
structure Nears (p : Parse (σ ⊕ α)) : Prop where
  cuts : ∀ ctx {c d : Cursor}, Cursor.Cuts c d → Verdict (p ctx c) (p ctx d) ∨ Hangs (p ctx c) (p ctx d)
  spent : ∀ ctx {c : Cursor}, c.Spent → Past (p ctx c)

namespace Nears

theorem of {p : Parse (σ ⊕ α)} (agrees : Agrees p) : Nears p := ⟨fun ctx _ _ cuts => .inl (agrees.cuts ctx cuts), agrees.spent⟩

theorem bind {q : α → Parse (σ ⊕ β)} (first : Agrees p) (next : ∀ a, Nears (q a)) : Nears (p >>= q) where
  cuts ctx c d cuts := by
    have spent (a : α) (d : Cursor) (spent : d.Spent) : Past (q a ctx d) := (next a).spent ctx spent
    rw [runBind, runBind]
    exact (first.cuts ctx cuts).next (P := fun r s => Verdict r s ∨ Hangs r s) (fun a => (next a).cuts ctx) fun full cut =>
      .inl (.past (full.bind spent) (cut.bind spent))
  spent ctx c spent := (first.spent ctx spent).bind fun a d spent => (next a).spent ctx spent

theorem ite {b : Prop} [Decidable b] {p p' : Parse (σ ⊕ α)} (yes : Nears p) (no : Nears p') : Nears (if b then p else p') := by
  split
  · exact yes
  · exact no

/- The comma may only be left out in front of the parenthesis. -/
theorem comma (s : σ) : Nears (isMark ")" >>= fun closes =>
    if (!closes) = true then Parse.expectMark "," >>= fun _ => (pure (.inl s) : Parse (σ ⊕ α)) else pure (.inl s)) where
  cuts ctx c d cuts := by
    have rest (closes : Bool) : Agrees (if (!closes) = true then Parse.expectMark "," >>= fun _ => (pure (.inl s) : Parse (σ ⊕ α)) else pure (.inl s)) :=
      .ite (Agrees.expectMark.bind fun _ => .pure _) (.pure _)
    cases cuts with
    | inside => exact .inl ((rest _).cuts ctx (.inside d))
    | atCut start fresh remarks pending => exact .inr ⟨⟨s, start, fresh, remarks, pending, rfl⟩, trivial⟩
  spent ctx c spent := Agrees.spent (.ite (Agrees.expectMark.bind fun _ => .pure _) (.pure _)) ctx spent

end Nears

/- The parenthesis of the ending closes what is open. -/
theorem pastClosing {q : Bool → Parse α} (exit : Agrees (q true)) (ctx : Context) (start : Nat) (fresh : Bool) (remarks : Remarks)
    (pending : List Nat) : Past ((acceptMark ")" >>= q) ctx (.closing start fresh remarks pending)) := by
  rw [runBind, acceptMark, runAccept (t := .punctuator ")") rfl (Cursor.cutNext ..)]
  exact exit.spent ctx (Cursor.endedSpent ..)

theorem pastExpecting {q : Unit → Parse α} (exit : Agrees (q ())) (ctx : Context) (start : Nat) (fresh : Bool) (remarks : Remarks)
    (pending : List Nat) : Past ((expectMark ")" >>= q) ctx (.closing start fresh remarks pending)) := by
  rw [expectMark, bind_assoc]
  exact pastClosing exit ctx start fresh remarks pending

theorem iterateRound (step : σ → Parse (σ ⊕ α)) (fuel : Nat) (s : σ) (ctx : Context) (c : Cursor) : Parse.iterate step (fuel + 1) s ctx c =
    (step s ctx c).bind fun r => r.1.elim (fun s => Parse.iterate step fuel s ctx r.2) fun a => .ok (a, r.2) := by
  rw [Parse.iterate, runBind]
  refine congrArg (Except.bind _) (funext fun r => ?_)
  rcases r with ⟨s | a, d⟩ <;> rfl

theorem Agrees.loopNear {s : σ} {step : σ → Parse (σ ⊕ α)} (round : ∀ s, Nears (step s))
    (closes : ∀ s ctx start fresh remarks pending, Past (step s ctx (.closing start fresh remarks pending))) : Agrees (Parse.loop s step) := by
  have behind {fuel : Nat} (ih : ∀ s ctx c, c.Spent → Past (Parse.iterate step fuel s ctx c)) {ctx : Context} {r : Except SyntaxError ((σ ⊕ α) × Cursor)}
      (past : Past r) : Past (r.bind fun r => r.1.elim (fun s => Parse.iterate step fuel s ctx r.2) fun a => .ok (a, r.2)) :=
    past.bind fun r d spent => by
      cases r with
      | inl s => exact ih s ctx d spent
      | inr a => exact spent
  have spent (fuel : Nat) : ∀ s ctx c, c.Spent → Past (Parse.iterate step fuel s ctx c) := by
    induction fuel with
    | zero => exact fun _ _ _ _ => trivial
    | succ fuel ih =>
      intro s ctx c spent
      rw [iterateRound]
      exact behind ih ((round s).spent ctx spent)
  refine .read fun x => ⟨fun ctx c d cuts => ?_, fun ctx c => spent _ s ctx c⟩
  generalize x.limit + 2 = fuel
  induction fuel generalizing s c d with
  | zero => exact .past trivial trivial
  | succ fuel ih =>
    have verdict := (round s).cuts ctx cuts
    rw [iterateRound, iterateRound]
    -- a round comes to the same place in both scripts, or behind the ending in both; the script that goes on may also
    -- stop at the closing mark
    generalize step s ctx c = full at verdict
    generalize step s ctx d = cut at verdict
    rcases verdict with verdict | ⟨⟨t, start, fresh, remarks, pending, rfl⟩, cut⟩
    · cases verdict with
      | both r cuts =>
        cases r with
        | inl s => exact ih _ _ cuts
        | inr a => exact .both a cuts
      | past full cut => exact .past (behind (spent fuel) full) (behind (spent fuel) cut)
    · refine .past ?_ (behind (spent fuel) cut)
      cases fuel with
      | zero => trivial
      | succ fuel =>
        change Past (Parse.iterate step (fuel + 1) t ctx (.closing start fresh remarks pending))
        rw [iterateRound]
        exact behind (spent fuel) (closes t ctx start fresh remarks pending)

end ClassDocs.Script.Parse
