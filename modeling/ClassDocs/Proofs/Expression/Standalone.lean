import ClassDocs.SourceFile
import ClassDocs.Proofs.Script.Equality
import ClassDocs.Proofs.Script.Operands
import ClassDocs.Proofs.Script.LayingProgram
import ClassDocs.Proofs.Script.AgreeingStatements

/-! A text that is read as an expression, in parentheses that are put around it. It is an expression by itself, unless a parenthesis of
its own closes the one in front of it. -/
namespace ClassDocs
open Script Script.Parse

namespace Script

/-- On the parenthesis in front of a text. -/
def Cursor.opening (s : List Char) : Cursor := ⟨.punctuator "(", 0, ['('], s, true, Remarks.atStart.token 0 true, []⟩

theorem ofScriptOpening (limit : Nat) (s : List Char) : Cursor.ofScript limit ('(' :: s) = .ok (Cursor.opening s) := by
  change Cursor.behind limit ⟨0, '(' :: s, true, Remarks.atStart⟩ [] = _
  rw [Cursor.behindPass, passSolid (c := '(') (by decide) s limit _ rfl]
  rfl

theorem openingCuts (limit : Nat) (s : List Char) : Cursor.Nexts ((Cursor.opening (s ++ ending)).next limit) ((Cursor.opening s).next limit) :=
  Cursor.nextCuts limit (.inside (Cursor.opening s))

namespace Parse
variable {g : Grammar} {ctx : Context} {c d : Cursor} {ts : List Tree} {n : Nat}

theorem partsRead {ε α β : Type} {r : Except ε α} {f : α → Except ε β} {b : β} (read : r.bind f = .ok b) : ∃ a, r = .ok a ∧ f a = .ok b :=
  match r, read with
  | .ok a, read => ⟨a, rfl, read⟩

theorem advanceRead {r : Unit} (read : advance ctx c = .ok (r, d)) : c.next ctx.limit = .ok d := by
  cases next : c.next ctx.limit with
  | error e => simp [advance, next] at read
  | ok e =>
    rw [runAdvance next] at read
    cases read
    rfl

theorem expectRead {mark : String} {r : Unit} (read : expectMark mark ctx c = .ok (r, d)) :
    c.token = .punctuator mark ∧ c.next ctx.limit = .ok d := by
  by_cases here : c.token = .punctuator mark
  · refine ⟨here, ?_⟩
    cases next : c.next ctx.limit with
    | error e => simp [expectMark, acceptMark, acceptHere here, advance, next] at read
    | ok e =>
      rw [runExpectMark here next] at read
      cases read
      rfl
  · simp [expectMark, acceptMark, runAcceptOther here] at read

theorem openingStatement (token : c.token = .punctuator "(") :
    topStatement (grammar (n + 2)) ctx c = expressionStatement (grammar (n + 1)) ctx c := by
  have noDeclaration : declaration? (grammar (n + 1)) false ctx c = .ok (none, c) := by
    simp [declaration?, functionAhead, declarationAhead, token]
  have effect : grammar (n + 2) (.statement false) ctx c = expressionStatement (grammar (n + 1)) ctx c := by
    change statement (grammar (n + 1)) false ctx c = _
    simp [statement, noDeclaration, token]
  simp [topStatement, runLook, token, acceptWord, accept, effect]

/- Every script that is read begins with a statement that is read. -/
theorem openingRead (token : c.token = .punctuator "(") (read : program (grammar (n + 2)) ctx c = .ok (ts, d)) :
    ∃ t e, assignment (grammar n) ctx c = .ok (t, e) := by
  cases run : assignment (grammar n) ctx c with
  | ok r => exact ⟨r.1, r.2, rfl⟩
  | error e =>
    have failed : grammar (n + 1) .assignment ctx c = .error e := run
    simp [program, loop, iterate, token, openingStatement token, expressionStatement, expression, failed] at read

theorem closedRead {e f : Cursor} {t : Tree} (token : c.token = .punctuator "(") (run : assignment (grammar n) ctx c = .ok (t, e))
    (ends : e.token = .punctuator ";") (next : e.next ctx.limit = .ok f) (finish : f.token = .finish)
    (read : program (grammar (n + 2)) ctx c = .ok (ts, d)) : ts = [.effect t] ∧ f.pending = [] := by
  have value : grammar (n + 1) .assignment ctx c = .ok (t, e) := run
  have first : topStatement (grammar (n + 2)) ctx c = .ok (.effect t, f) := by
    rw [openingStatement token]
    simp [expressionStatement, expression, value, ends, semicolon, acceptMark, runAccept ends next]
  have all : program (grammar (n + 2)) ctx c = if f.pending.isEmpty then .ok ([.effect t], f)
      else .error ⟨f.start, "an object has an initial value without a name"⟩ := by
    simp [program, loop, iterate, token, first, finish]
  rw [all] at read
  split at read
  · rename_i settled
    cases read
    exact ⟨rfl, List.isEmpty_iff.mp settled⟩
  · contradiction

theorem parenFails {e : SyntaxError} (token : c.token = .punctuator "(") (noArrow : arrowFunction? g ctx c = .ok (none, c))
    (failed : primary g ctx c = .error e) : assignment g ctx c = .error e := by
  have left : leftSide g ctx c = .error e := by simp [leftSide, failed]
  have operand : unary g ctx c = .error e := by simp [unary, token, prefixMarks, isStep, steppedBehind, left]
  simp [assignment, token, noArrow, assigned, conditional, binary, operand]

/- What is read where no arrow follows: the expression in the parentheses, up to the one that closes. -/
theorem parenParts {t : Tree} {e : Cursor} (token : c.token = .punctuator "(") (noArrow : arrowFunction? g ctx c = .ok (none, c))
    (read : assignment g ctx c = .ok (t, e)) : ∃ first t d f, c.next ctx.limit = .ok first ∧
      expression g { ctx with inAllowed := true } first = .ok (t, d) ∧ d.token = .punctuator ")" ∧ d.next ctx.limit = .ok f ∧
      primary g ctx c = .ok (.paren t, f) := by
  cases run : primary g ctx c with
  | error e =>
    rw [parenFails token noArrow run] at read
    contradiction
  | ok r =>
    simp only [primary, runGet, runBind, okBind, token] at run
    obtain ⟨⟨_, first⟩, opened, run⟩ := partsRead run
    obtain ⟨⟨t, d⟩, inside, run⟩ := partsRead run
    obtain ⟨⟨_, f⟩, closed, run⟩ := partsRead run
    cases run
    obtain ⟨closing, next⟩ := expectRead closed
    exact ⟨first, t, d, f, advanceRead opened, inside, closing, next, rfl⟩

theorem openingNoArrow (token : c.token = .punctuator "(") (other : ∀ first, c.next ctx.limit = .ok first → ∀ ps e,
    parameters g { ctx with inAllowed := true, awaits := ctx.awaits || false } first = .ok (ps, e) → e.token ≠ .punctuator "=>") :
    arrowFunction? g ctx c = .ok (none, c) := by
  cases next : c.next ctx.limit with
  | ok first => exact noParenArrow token next (other first next)
  | error e =>
    have failed : arrowHead g ctx c = .error e := by simp [arrowHead, acceptModifier, token, acceptMark, acceptHere, advance, next]
    simp [arrowFunction?, attemptFails failed]

end Parse

section
variable {text : List Char} {n : Nat} {ctx : Context} {first d : Cursor} {t : Tree}
  (next : (Cursor.opening (text ++ ending)).next ctx.limit = .ok first) (read : expression (grammar n) ctx first = .ok (t, d))
include next read

theorem expressionWithin : d.Within ('(' :: (text ++ ending)) := by
  have passed := Lays.expression (Lays.grammar n) ctx (nextWithin (ofScriptWithin (ofScriptOpening ctx.limit (text ++ ending))) next).1
    (k := ⟨[], []⟩) ⟨by simp, by simp, by simp, by simp, by simp⟩
  rw [read] at passed
  exact passed.within

/-- An expression that a parenthesis ends is the same in the text by itself, where the same parenthesis ends it or the end of the text. -/
theorem expressionCut (closing : d.token = .punctuator ")") :
    ∃ cut e, (Cursor.opening text).next ctx.limit = .ok cut ∧ expression (grammar n) ctx cut = .ok (t, e) ∧ Cursor.Cuts d e := by
  have nexts := openingCuts ctx.limit text
  have agrees := Agrees.expression (Agrees.grammar n)
  have unspent : ¬d.Spent := fun spent => by
    rcases spent.token with ⟨token, -⟩ | ⟨token, -⟩ <;> simp [token] at closing
  rw [next] at nexts
  generalize alone : (Cursor.opening text).next ctx.limit = cut at nexts
  cases nexts with
  | both cuts =>
    rename_i cut
    have verdict := agrees.cuts ctx cuts
    rw [read] at verdict
    generalize ends : expression (grammar n) ctx cut = result at verdict
    cases verdict with
    | both _ cuts => exact ⟨cut, _, rfl, ends, cuts⟩
    | past spent => exact absurd spent unspent
  | past spent =>
    have past := agrees.spent ctx spent
    rw [read] at past
    exact absurd past unspent

/- The parenthesis of the ending stands behind the text, every other one in it. -/
theorem endsInside {e : Cursor} (closing : d.token = .punctuator ")") (cuts : Cursor.Cuts d e) :
    d.start ≤ byteLength text ↔ e.token ≠ .finish := by
  have within := expressionWithin next read
  have total := within.place.total
  cases cuts with
  | inside =>
    have takes : 0 < byteLength e.raw := by
      rcases within.token with ⟨finish, -⟩ | ⟨-, takes⟩
      · exact absurd finish (by simp [closing])
      · exact byteLengthPositive takes
    simp only [Cursor.more, byteLengthAppend, byteLengthCons, show '('.utf8Size = 1 from rfl] at total closing ⊢
    simp [closing]
    omega
  | atCut start fresh remarks pending =>
    simp only [Cursor.closing, byteLengthAppend, byteLengthCons, show '('.utf8Size = 1 from rfl, show byteLength [')'] = 1 from rfl,
      show byteLength [';'] = 1 from rfl, show byteLength ending = 2 from rfl] at total ⊢
    simp [Cursor.finished]
    omega

end
end Script

namespace Expression
variable {α : Type}

/-- The bound on the rounds of the readers for a text in parentheses. The one on the nesting is twice as much. -/
def bound (text : String) : Nat := text.toList.length + 5

/-- Outside of functions and heads of loops. -/
def outside (bound : Nat) : Context := ⟨bound, true, false, false, false⟩

/-- What a reader comes to from behind the parenthesis in front of a text. -/
def readInside (bound : Nat) (p : Grammar → Parse α) (text : List Char) : Except SyntaxError (α × Cursor) :=
  ((Cursor.opening text).next bound).bind (p (grammar (2 * bound - 2)) (outside bound))

theorem runInside {bound : Nat} {text : List Char} {first : Cursor} (next : (Cursor.opening text).next bound = .ok first) (p : Grammar → Parse α) :
    readInside bound p text = p (grammar (2 * bound - 2)) (outside bound) first := by
  rw [readInside, next]
  rfl

/-- The text by itself, from its first token to its end, is one expression. -/
def StandsAlone (text : String) (t : Tree) : Prop :=
  ∃ last, readInside (bound text) expression text.toList = .ok (t, last) ∧ last.token = .finish ∧ last.pending = []

/-- A parenthesis of the text closes the one in front of it: an expression ends at one inside of the text, or parameters do, with an arrow
behind them. -/
def closesEarly (text : String) : Bool :=
  (readInside (bound text) expression (text.toList ++ ending)).toOption.any
      (fun r => r.2.token == .punctuator ")" && r.2.start ≤ byteLength text.toList) ||
    (readInside (bound text) parameters (text.toList ++ ending)).toOption.any fun r => r.2.token == .punctuator "=>"

section
variable {text : String} {d : Cursor}

theorem arrowCloses {ps : List Tree} (run : readInside (bound text) parameters (text.toList ++ ending) = .ok (ps, d))
    (arrow : d.token = .punctuator "=>") : closesEarly text = true := by
  simp [closesEarly, run, arrow, Except.toOption]

theorem parenthesisCloses {t : Tree} (run : readInside (bound text) expression (text.toList ++ ending) = .ok (t, d))
    (closing : d.token = .punctuator ")") (early : d.start ≤ byteLength text.toList) : closesEarly text = true := by
  simp [closesEarly, run, closing, early, Except.toOption]

end

/-- What an accepted text was read by. -/
theorem parsedRun {text : String} {node : Expression} (accepted : parse text = .ok node) :
    ∃ e d, program (grammar (2 * bound text)) (outside (bound text)) (Cursor.opening (text.toList ++ ending)) = .ok ([.effect e], d) ∧
      node = e.lower := by
  obtain ⟨source, written⟩ : ∃ source, source = "(" ++ text ++ ");" := ⟨_, rfl⟩
  have script : source.toList = '(' :: (text.toList ++ ending) := by simp [written, ending]
  have length : bound text = source.toList.length + 2 := by simp [bound, script, ending]
  rw [parse, ← written] at accepted
  cases parsed : Program.read source with
  | error e => simp [parsed] at accepted
  | ok program =>
    obtain ⟨c, d, first, read, -⟩ := readRuns length parsed
    rw [script, ofScriptOpening] at first
    cases first
    simp only [parsed] at accepted
    split at accepted
    · rename_i e statements
      cases accepted
      rw [statements] at read
      exact ⟨e, d, read, rfl⟩
    · contradiction

/-- A text that is accepted is an expression by itself and stands for what it was accepted as, unless it closes the parenthesis in front
of it. -/
theorem parsedStandsAlone {text : String} {node : Expression} (accepted : parse text = .ok node) (kept : closesEarly text = false) :
    ∃ t, StandsAlone text t ∧ node = t.lower := by
  obtain ⟨e, d, read, rfl⟩ := parsedRun accepted
  have deep : 2 * bound text = (2 * bound text - 2) + 2 := by
    rw [bound]
    omega
  rw [deep] at read
  obtain ⟨_, _, value⟩ := openingRead rfl read
  -- parameters in front of an arrow end with a parenthesis of the text's own
  have noArrow : arrowFunction? (grammar (2 * bound text - 2)) (outside (bound text)) (Cursor.opening (text.toList ++ ending)) =
      .ok (none, Cursor.opening (text.toList ++ ending)) := by
    refine openingNoArrow rfl fun first next ps e read arrow => ?_
    have closes := arrowCloses ((runInside next parameters).trans read) arrow
    simp [closes] at kept
  obtain ⟨first, t, d, f, next, inside, closing, behind, whole⟩ := parenParts rfl noArrow value
  obtain ⟨cut, e, next', alone, cuts⟩ := expressionCut next inside closing
  have ends := endsInside next inside closing cuts
  cases cuts with
  | inside =>
    have marked : e.token = .punctuator ")" := closing
    have closes := parenthesisCloses ((runInside next expression).trans inside) closing (ends.mpr (by simp [marked]))
    simp [closes] at kept
  | atCut start fresh remarks pending =>
    rw [Cursor.cutNext] at behind
    cases behind
    have value := assignmentAlone rfl noArrow whole ⟨rfl, by decide⟩
    have last : (Cursor.ended start remarks pending).next (bound text) = _ := Cursor.behindNothing _ rfl _
    obtain ⟨statements, settled⟩ := closedRead rfl value rfl last rfl read
    cases statements
    exact ⟨t, ⟨.finished start fresh remarks pending, (runInside next' expression).trans alone, rfl, settled⟩, Tree.lowerParen t⟩

/-- A text with an expression that ends inside of it is not one. -/
theorem endedEarlyNotAlone {text : String} {t u : Tree} {d : Cursor} (run : readInside (bound text) expression (text.toList ++ ending) = .ok (t, d))
    (closing : d.token = .punctuator ")") (early : d.start ≤ byteLength text.toList) : ¬StandsAlone text u := by
  rintro ⟨last, alone, finish, -⟩
  obtain ⟨first, next, inside⟩ := partsRead run
  have next : (Cursor.opening (text.toList ++ ending)).next (outside (bound text)).limit = .ok first := next
  obtain ⟨cut, e, next', ends, cuts⟩ := expressionCut next inside closing
  have same : Except.ok (u, last) = Except.ok (t, e) := alone.symm.trans ((runInside next' expression).trans ends)
  cases same
  exact (endsInside next inside closing cuts).mp early finish

/-- Parentheses of the text that close what it opens itself do no harm. -/
theorem callStandsAlone : ∃ node, parse "f(a) + (b)" = .ok node ∧ closesEarly "f(a) + (b)" = false ∧
    ∃ t, StandsAlone "f(a) + (b)" t ∧ node = t.lower := by
  have read : Program.read ("(" ++ "f(a) + (b)" ++ ");") =
      .ok ⟨[.effect (.paren (.binary "+" (.call 1 (.identifier "f") [.identifier "a"]) (.paren (.identifier "b"))))], []⟩ := by decide +kernel
  have kept : closesEarly "f(a) + (b)" = false := by decide +kernel
  have accepted : parse "f(a) + (b)" = .ok (.binary "+" (.other "CallExpression") (.identifier "b")) := by
    rw [parse, read]
    simp [Tree.lower]
  exact ⟨_, accepted, kept, parsedStandsAlone accepted kept⟩

/-- A text that closes the parenthesis in front of it and opens the one behind it is read as a sum. By itself it is no expression. -/
theorem sumAccepted : parse "a) + (b" = .ok (.binary "+" (.identifier "a") (.identifier "b")) ∧ closesEarly "a) + (b" = true ∧
    ∀ t, ¬StandsAlone "a) + (b" t := by
  have read : Program.read ("(" ++ "a) + (b" ++ ");") =
      .ok ⟨[.effect (.binary "+" (.paren (.identifier "a")) (.paren (.identifier "b")))], []⟩ := by decide +kernel
  refine ⟨?_, by decide +kernel, ?_⟩
  · rw [parse, read]
    simp [Tree.lower]
  · rintro t ⟨last, alone, finish, -⟩
    have closes : (readInside (bound "a) + (b") expression "a) + (b".toList).toOption.map (·.2.token) = some (.punctuator ")") := by decide +kernel
    rw [alone] at closes
    simp [Except.toOption, finish] at closes

end Expression
end ClassDocs
