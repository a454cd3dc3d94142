import ClassDocs.Proofs.Expression.Literals
import ClassDocs.Proofs.Script.Equality

/-! Literals in parentheses, as they are read: what could be the parameters of an arrow function first is none, and the value
comes back as it was. -/
namespace ClassDocs
open Script Parse
namespace Value

/-- As a pattern the value is refused, or read up to the mark behind it. -/
def Binds (g : Grammar) (v : Value) : Prop :=
  ∀ ctx c m rest, m ∈ [',', ')', ']', '\x7d'] → c.On ctx.limit (v.chars ++ m :: rest) →
    Leads True (fun _ d => d.On ctx.limit (m :: rest)) (g .binding ctx c)

section
variable {g : Grammar} {ctx : Context} {c : Cursor}

theorem elementBinds {v : Value} (binds : Binds g v) {close : Char} (mark : close ∈ [')', ']', '\x7d']) {behind after : List Char}
    (parted : Behind ctx.limit close behind after) (on : c.On ctx.limit (v.chars ++ behind)) :
    (∃ e, bindingElement g ctx c = .error e) ∨ ∃ t d, bindingElement g ctx c = .ok (t, d) ∧ d.On ctx.limit behind := by
  have bound : Leads True (fun _ d => d.On ctx.limit behind) (g .binding ctx c) := by
    cases parted with
    | comma => exact binds ctx c _ _ (by decide) on
    | close => exact binds ctx c _ _ (by simp only [List.mem_cons] at mark ⊢; tauto) on
  cases h : g .binding ctx c with
  | error e => exact .inl ⟨e, by simp [bindingElement, h]⟩
  | ok r =>
    obtain ⟨t, d⟩ := r
    rw [h] at bound
    have on : d.On ctx.limit behind := bound
    have noValue : accept (.punctuator "=") ctx d = .ok (false, d) := by
      refine runAcceptOther fun same => ?_
      rcases behindPassed mark parted on with ⟨token, -⟩ | ⟨token, -⟩
      · rw [same] at token
        simp only [List.mem_cons, List.not_mem_nil, or_false] at mark
        rcases mark with rfl | rfl | rfl <;> exact absurd (Token.punctuator.inj token) (by decide)
      · rw [same] at token
        exact absurd (Token.punctuator.inj token) (by decide)
    exact .inr ⟨t, d, by simp [bindingElement, h, acceptMark, noValue], on⟩

/- Strings and the two booleans are no names. -/
theorem scalarBinds {Q : Cursor → Prop} (scalar : (∃ s, c.token = .string s) ∨ ∃ b, c.token = .name (booleanText b) false) :
    Leads True (fun _ d => Q d) (binding g ctx c) := by
  rcases scalar with ⟨s, token⟩ | ⟨b, token⟩
  · simp [binding, acceptMark, accept, token, variableName, Context.nameOf?, Leads]
  · cases b <;> simp [binding, acceptMark, accept, token, variableName, Context.nameOf?, booleanText, reservedWords, Leads]

variable {m : Char} {rest : List Char} (mark : m ∈ [',', ')', ']', '\x7d'])
include mark

theorem elementsBind {items : List Value} (plain : ∀ v ∈ items, v.Plain) (binds : ∀ v ∈ items, Binds g v)
    (on : c.On ctx.limit (listed ']' (items.map chars) ++ m :: rest)) :
    Leads True (fun _ d => d.On ctx.limit (m :: rest)) (arrayBinding g ctx c) := by
  have enough : items.length < ctx.limit + 2 := by
    have lengths := listedLength ']' (items.map chars)
    have fits := on.fits
    simp at fits lengths
    omega
  rw [arrayBinding, loop, runBind, runRead, okBind]
  refine (listRead (valuesOpen plain) (by decide) (I := fun _ (_ : List Tree) => True) (R := fun (_ : Tree) => True) ?_ ?_
    (List.nil_append items) trivial enough on).imp fun _ _ h => h.2
  · intro done v more whole ts c behind after _ parted on
    have member : v ∈ items := whole ▸ by simp
    obtain ⟨l, opens, operand, -⟩ := opensBehind (plain v member) (by decide) parted on.fits
    rw [← (on.is opens).1] at operand
    rcases elementBinds (binds v member) (by decide) parted on with ⟨e, failed⟩ | ⟨t, d, read, on⟩
    · simp [acceptMark, operandOther operand, failed, Leads]
    · rcases behindPassed (by decide) parted on with ⟨closing, on⟩ | ⟨comma, e, next, on⟩
      · have closing : d.token = .punctuator "]" := closing
        simp [acceptMark, operandOther operand, read, closing, Leads, on]
      · simp [acceptMark, operandOther operand, read, comma, runExpectMark comma next, Leads, on]
  · intro ts c _ on
    obtain ⟨d, closed, on⟩ := closeRead mark (by decide) on
    have closed : accept (.punctuator "]") ctx c = .ok (true, d) := closed
    simp [acceptMark, closed, Leads, on]

theorem entriesBind {entries : List (String × Value)} (bare : ∀ entry ∈ entries, bareKey entry.1 = true)
    (plain : ∀ entry ∈ entries, entry.2.Plain) (binds : ∀ entry ∈ entries, Binds g entry.2)
    (on : c.On ctx.limit (listed '\x7d' (entries.map entryChars) ++ m :: rest)) :
    Leads True (fun _ d => d.On ctx.limit (m :: rest)) (objectBinding g ctx c) := by
  have enough : entries.length < ctx.limit + 2 := by
    have lengths := listedLength '\x7d' (entries.map entryChars)
    have fits := on.fits
    simp at fits lengths
    omega
  rw [objectBinding, loop, runBind, runRead, okBind]
  refine (listRead (entryOpens bare ctx.limit) (by decide) (I := fun _ (_ : List Tree) => True) (R := fun (_ : Tree) => True) ?_ ?_
    (List.nil_append entries) trivial enough on).imp fun _ _ h => h.2
  · intro done entry more whole ts c behind after _ parted on
    have member : entry ∈ entries := whole ▸ by simp
    have opens (fits : (entry.2.chars ++ behind).length < ctx.limit) : ∃ l, Opens ctx.limit (entry.2.chars ++ behind) l :=
      (opensBehind (plain entry member) (by decide) parted fits).imp fun _ h => h.1
    obtain ⟨keyed, raw, colon, first, next, isColon, next', on⟩ := entryCursors (bare entry member) opens on
    have noMark (mark : String) : accept (.punctuator mark) ctx c = .ok (false, c) := runAcceptOther (keyOther keyed)
    obtain ⟨key, named, -⟩ := propertyKeyRead (g := g) keyed raw next
    rcases elementBinds (binds entry member) (by decide) parted on with ⟨e, failed⟩ | ⟨t, d, read, on⟩
    · simp [acceptMark, noMark, named, propertyBinding, runAccept isColon next', failed, Leads]
    · rcases behindPassed (by decide) parted on with ⟨closing, on⟩ | ⟨comma, e, next, on⟩
      · have closing : d.token = .punctuator "\x7d" := closing
        simp [acceptMark, noMark, named, propertyBinding, runAccept isColon next', read, closing, Leads, on]
      · simp [acceptMark, noMark, named, propertyBinding, runAccept isColon next', read, comma, runExpectMark comma next, Leads, on]
  · intro ts c _ on
    obtain ⟨d, closed, on⟩ := closeRead mark (by decide) on
    have closed : accept (.punctuator "\x7d") ctx c = .ok (true, d) := closed
    simp [acceptMark, closed, Leads, on]

end

theorem plainBinds {v : Value} (plain : v.Plain) (depth : Nat) : Binds (grammar depth) v := by
  induction plain generalizing depth with
  | @string s spelled =>
    intro ctx c m rest mark on
    have fits := on.fits
    cases depth with
    | zero => simp [grammar, Leads]
    | succ depth =>
      rw [charsString] at on fits
      simp only [List.cons_append, List.append_assoc, List.nil_append] at on fits
      have token := (on.is (stringOpens spelled (by simp at fits; omega) (m :: rest))).1
      exact scalarBinds (.inl ⟨_, token⟩)
  | boolean b =>
    intro ctx c m rest mark on
    cases depth with
    | zero => simp [grammar, Leads]
    | succ depth => exact scalarBinds (.inr ⟨b, (on.is (booleanOpens mark b on.fits)).1⟩)
  | @array items each ih =>
    intro ctx c m rest mark on
    cases depth with
    | zero => simp [grammar, Leads]
    | succ depth =>
      rw [charsArray, List.cons_append] at on
      have fits := on.fits
      obtain ⟨token, -, behind⟩ := on.is (markOpens (by decide) ctx.limit _)
      obtain ⟨l, opens⟩ : ∃ l, Opens ctx.limit (listed ']' (items.map chars) ++ m :: rest) l :=
        listedOpens (valuesOpen each) (by decide) (fun _ h => h) (by simp at fits ⊢; omega)
      obtain ⟨d, next, on⟩ := nextOn on opens (by simp at fits ⊢; omega) (.inl behind)
      have token : c.token = .punctuator "[" := token
      have read := elementsBind mark each (fun v member => ih v member depth) on
      simpa [grammar, binding, acceptMark, runAccept token next] using read
  | @object entries each bare distinct ih =>
    intro ctx c m rest mark on
    cases depth with
    | zero => simp [grammar, Leads]
    | succ depth =>
      rw [charsObject, List.cons_append] at on
      have fits := on.fits
      obtain ⟨token, -, behind⟩ := on.is (markOpens (by decide) ctx.limit _)
      obtain ⟨l, opens⟩ : ∃ l, Opens ctx.limit (listed '\x7d' (entries.map entryChars) ++ m :: rest) l :=
        listedOpens (entryOpens bare ctx.limit) (by decide) (fun _ h => h) (by simp at fits ⊢; omega)
      obtain ⟨d, next, on⟩ := nextOn on opens (by simp at fits ⊢; omega) (.inl behind)
      have token : c.token = .punctuator "\x7b" := token
      have noArray : accept (.punctuator "[") ctx c = .ok (false, c) := runAcceptOther (by simp [token])
      have read := entriesBind mark bare each (fun entry member => ih entry member depth) on
      simpa [grammar, binding, acceptMark, noArray, runAccept token next] using read

/- The value may stand for the one parameter of an arrow function, so that its parenthesis is read as one first. -/
theorem parametersBind {v : Value} (plain : v.Plain) (depth : Nat) {ctx : Context} {c : Cursor}
    (on : c.On ctx.limit (v.chars ++ [')', ';'])) :
    Leads True (fun _ d => d.On ctx.limit [';']) (parameters (grammar depth) ctx c) := by
  have starts : ∀ w ∈ [v], ∀ s after, Behind ctx.limit ')' s after → (w.chars ++ s).length < ctx.limit →
      ∃ l, Opens ctx.limit (w.chars ++ s) l := by
    intro w member s after parted fits
    cases List.mem_singleton.mp member
    exact (opensBehind plain (by decide) parted fits).imp fun _ h => h.1
  have whole : c.On ctx.limit (listed ')' ([v].map chars) ++ [';']) := by simpa [listed] using on
  rw [parameters, loop, runBind, runRead, okBind]
  refine (listRead starts (by decide) (I := fun _ (_ : List Tree) => True) (R := fun (_ : List Tree) => True) ?_ ?_
    (List.nil_append [v]) trivial (by simp) whole).imp fun _ _ h => h.2
  · intro done w more whole ts c behind after _ parted here
    obtain rfl : v = w := by simpa [eq_comm] using (show w ∈ [v] from whole ▸ by simp)
    obtain ⟨l, opens, operand, -⟩ := opensBehind plain (by decide) parted here.fits
    rw [← (here.is opens).1] at operand
    rcases elementBinds (plainBinds plain depth) (by decide) parted here with ⟨e, failed⟩ | ⟨t, d, read, on⟩
    · simp [acceptMark, operandOther operand, failed, Leads]
    · rcases behindPassed (by decide) parted on with ⟨closing, on⟩ | ⟨comma, e, next, on⟩
      · have closing : d.token = .punctuator ")" := closing
        simp [acceptMark, operandOther operand, read, closing, Leads, on]
      · simp [acceptMark, operandOther operand, read, comma, runExpectMark comma next, Leads, on]
  · intro ts c _ on
    obtain ⟨token, -, behind⟩ := on.is (markOpens (by decide) ctx.limit _)
    have fits := on.fits
    obtain ⟨d, next, on⟩ := nextOn on (markOpens (by decide) ctx.limit []) (by simp at fits ⊢; omega) (.inl behind)
    have closed : accept (.punctuator ")") ctx c = .ok (true, d) := runAccept token next
    simp [acceptMark, closed, Leads, on]

section
variable {v : Value} (plain : v.Plain) {ctx : Context} {c : Cursor} (on : c.On ctx.limit ('(' :: (v.chars ++ [')', ';'])))
include plain on

theorem insideOn : c.token = .punctuator "(" ∧ ∃ d, c.next ctx.limit = .ok d ∧ d.On ctx.limit (v.chars ++ [')', ';']) := by
  have fits := on.fits
  obtain ⟨token, -, behind⟩ := on.is (markOpens (by decide) ctx.limit _)
  rw [List.length_cons] at fits
  obtain ⟨l, opens, -⟩ : ∃ l, Opens ctx.limit (v.chars ++ [')', ';']) l ∧ opensOperand l.token = true ∧ l.token ≠ .punctuator "(" :=
    valueOpens (by decide) plain (by omega)
  exact ⟨token, nextOn on opens (by omega) (.inl behind)⟩

theorem noParameters (depth : Nat) : arrowFunction? (grammar depth) ctx c = .ok (none, c) := by
  obtain ⟨token, d, next, on⟩ := insideOn plain on
  refine noParenArrow token next fun ps e read arrow => ?_
  have bound : Leads True (fun _ d => d.On ctx.limit [';'])
      (parameters (grammar depth) { ctx with inAllowed := true, awaits := ctx.awaits || false } d) := parametersBind plain depth on
  rw [read] at bound
  have on : e.On ctx.limit [';'] := bound
  rw [(on.is (markOpens (by decide) ctx.limit [])).1] at arrow
  exact absurd (Token.punctuator.inj arrow) (by decide)

theorem parenRead (depth : Nat) (enough : v.chars.length ≤ depth) :
    ∃ t d, grammar (depth + 2) .assignment ctx c = .ok (.paren t, d) ∧ t.lower.evaluate = .ok v ∧ d.On ctx.limit [';'] := by
  have noParams := noParameters plain on (depth + 1)
  obtain ⟨token, d, next, on⟩ := insideOn plain on
  obtain ⟨t, e, read, value, on⟩ := plainRead plain (depth + 1) (by omega) { ctx with inAllowed := true } d ')' [';'] (by decide) on
  have on : e.On ctx.limit [')', ';'] := on
  obtain ⟨closing, -, behind⟩ := on.is (markOpens (by decide) ctx.limit _)
  have fits := on.fits
  obtain ⟨f, next', on⟩ := nextOn on (markOpens (by decide) ctx.limit []) (by simp at fits ⊢; omega) (.inl behind)
  have closing : e.token = .punctuator ")" := closing
  have ends : EndsAt f ";" := ⟨(on.is (markOpens (by decide) ctx.limit [])).1, by decide⟩
  have first : primary (grammar (depth + 1)) ctx c = .ok (.paren t, f) := by
    simp [primary, token, runAdvance next, allowingIn, expression, read, closing, runExpectMark closing next']
  exact ⟨t, f, assignmentAlone (by rw [token]; rfl) noParams first ends, value, on⟩

end

theorem statementRead {v : Value} (ctx : Context) {c : Cursor} (plain : v.Plain) (on : c.On ctx.limit ('(' :: (v.chars ++ [')', ';'])))
    (depth : Nat) (enough : v.chars.length ≤ depth) :
    ∃ t d, topStatement (grammar (depth + 3)) ctx c = .ok (.effect (.paren t), d) ∧ t.lower.evaluate = .ok v ∧ d.On ctx.limit [] := by
  obtain ⟨token, inside, next, -⟩ := insideOn plain on
  obtain ⟨t, d, read, value, on⟩ := parenRead plain on depth enough
  obtain ⟨ends, -, behind⟩ := on.is (markOpens (by decide) ctx.limit [])
  have fits := on.fits
  obtain ⟨e, next', on⟩ := nextOn on (finishOpens ctx.limit) (by simp at fits ⊢; omega) (.inl behind)
  have ends : d.token = .punctuator ";" := ends
  have noDeclaration : declaration? (grammar (depth + 2)) false ctx c = .ok (none, c) := by
    simp [declaration?, functionAhead, declarationAhead, token]
  have effect : grammar (depth + 3) (.statement false) ctx c = .ok (.effect (.paren t), e) := by
    change statement (grammar (depth + 2)) false ctx c = _
    simp [statement, noDeclaration, token, expressionStatement, expression, read, ends, semicolon, acceptMark, runAccept ends next']
  refine ⟨t, e, ?_, value, on⟩
  simpa [topStatement, runAhead next, token, acceptWord, accept] using effect

theorem scriptRead {v : Value} (plain : v.Plain) :
    ∃ t remarks, Program.read ("(" ++ v.literal ++ ");") = .ok ⟨[.effect (.paren t)], remarks⟩ ∧ t.lower.evaluate = .ok v := by
  have script : ("(" ++ v.literal ++ ");").toList = '(' :: (v.chars ++ [')', ';']) := by simp [chars]
  obtain ⟨limit, length⟩ : ∃ n, n = ('(' :: (v.chars ++ [')', ';'])).length + 2 := ⟨_, rfl⟩
  obtain ⟨c, first, on⟩ : ∃ c, Cursor.ofScript limit ('(' :: (v.chars ++ [')', ';'])) = .ok c ∧ c.On limit ('(' :: (v.chars ++ [')', ';'])) :=
    behindOn (markOpens (by decide) limit _) (by omega) (.inl rfl)
  obtain ⟨depth, deep⟩ : ∃ n, 2 * limit = n + 3 := ⟨2 * limit - 3, by omega⟩
  have enough : v.chars.length ≤ depth := by
    simp at length
    omega
  have token := (on.is (markOpens (by decide) limit _)).1
  obtain ⟨t, d, read, value, onFinish⟩ := statementRead ⟨limit, true, false, false, false⟩ plain on depth enough
  have finish := (onFinish.is (finishOpens limit)).1
  have all : program (grammar (depth + 3)) ⟨limit, true, false, false, false⟩ c = .ok ([.effect (.paren t)], d) := by
    simp [program, loop, iterate, token, read, finish, onFinish.settled]
  refine ⟨t, d.remarks.settled.reverse, ?_, value⟩
  rw [Program.read, script]
  dsimp only
  rw [← length, first, deep]
  change (program (grammar (depth + 3)) _ c).bind _ = _
  rw [all]
  rfl

/-- The literal of a value, read as source, has the value again. -/
theorem literalReadsBack {v : Value} (plain : v.Plain) :
    ∃ e, Expression.parse v.literal = .ok e ∧ e.evaluate = .ok v := by
  obtain ⟨t, remarks, read, value⟩ := scriptRead plain
  refine ⟨t.lower, ?_, value⟩
  rw [Expression.parse, read]
  simp only [Tree.lowerParen]

def sample : Value := .array [.object [("a", .boolean false), ("7", .string "it's")], .array []]

theorem sampleReadsBack : sample.Plain ∧ ∃ e, Expression.parse sample.literal = .ok e ∧ e.evaluate = .ok sample := by
  have plain : sample.Plain := by
    refine .array fun v member => ?_
    simp only [List.mem_cons, List.not_mem_nil, or_false] at member
    rcases member with rfl | rfl
    · refine .object (fun entry member => ?_) (by decide +kernel) (by decide)
      simp only [List.mem_cons, List.not_mem_nil, or_false] at member
      rcases member with rfl | rfl
      · exact .boolean false
      · exact .string (by decide)
    · exact .array nofun
  exact ⟨plain, literalReadsBack plain⟩

def folder : Value := .string "C:\\temp"

/-- A backslash in a string is read as the beginning of an escape. -/
theorem folderChanged : folder.literal = "'C:\\temp'" ∧
    (Expression.parse folder.literal).toOption.map Expression.evaluate = some (.ok (.string "C:\temp")) := by
  have read : Program.read ("(" ++ folder.literal ++ ");") =
      .ok ⟨[.effect (.paren (.literal "'C:\\temp'" (.string "C:\temp")))], []⟩ := by decide +kernel
  refine ⟨by decide +kernel, ?_⟩
  rw [Expression.parse, read]
  rfl

/- A key that needs quotes has none. -/
example : (Program.read ("(" ++ (Value.object [("a-b", .boolean true)]).literal ++ ");")).toOption.isNone = true := by
  decide +kernel

end Value
end ClassDocs
