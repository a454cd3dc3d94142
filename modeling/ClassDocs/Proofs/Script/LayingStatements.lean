import ClassDocs.Proofs.Script.LayingOperations

/-! Statements lay their trees. -/
namespace ClassDocs.Script.Parse.Lays
variable {α β : Type} {h : β → Places} {source : List Char} {c : Cursor} {room : Room} {k : Places} {g : Grammar}

theorem eachAhead {q : Bool → Parse β} (next : ∀ b, Lays source c room k h (q b)) : Lays source c room k h (eachAhead >>= q) :=
  next _

theorem declarationAhead {q : Bool → Parse β} (next : ∀ b, (b = true → c.token ≠ .finish) → Lays source c room k h (q b)) :
    Lays source c room k h (declarationAhead >>= q) := by
  have more {word : String} (here : c.token = .name word false) : c.token ≠ .finish := by
    simp [here]
  unfold Parse.declarationAhead
  rw [bind_assoc]
  refine isWord ?_
  rw [bind_assoc]
  refine isWord ?_
  split
  · rename_i isWord
    refine next true fun _ => ?_
    simp only [Bool.or_eq_true, beq_iff_eq] at isWord
    exact isWord.elim more more
  rw [bind_assoc]
  refine isWord ?_
  split
  · rename_i isLet
    rw [bind_assoc]
    refine ahead fun o => ?_
    cases o with
    | some d => exact read fun x => next _ fun _ => more (by simpa using isLet)
    | none => exact next false (by simp)
  · exact next false (by simp)

theorem endsHere {q : Bool → Parse β} (next : ∀ b, Lays source c room k h (q b)) : Lays source c room k h (endsHere >>= q) :=
  next _

theorem jumpRest : Lays source c .none k (fun t => k.add [t]) jumpRest := by
  have rest (d : Cursor) : Lays source d .none k (fun t => k.add [t]) (Parse.semicolon >>= fun _ => Pure.pure (plain [])) :=
    semicolon.bind fun _ e => pure (by simp [plain])
  exact endsHere fun b => ite (fun _ => variableName.bind fun name d => rest d) fun _ => rest c

theorem assoc {γ : Type} {p : Parse γ} {r : γ → Parse α} {q : α → Parse β} (next : Lays source c room k h (p >>= fun a => r a >>= q)) :
    Lays source c room k h ((p >>= r) >>= q) := by
  rwa [bind_assoc]

theorem eitherThen {b : Prop} [Decidable b] {p p' : Parse α} {q : α → Parse β} (yes : b → Lays source c room k h (p >>= q))
    (no : ¬b → Lays source c room k h (p' >>= q)) : Lays source c room k h ((if b then p else p') >>= q) := by
  split
  · exact yes ‹_›
  · exact no ‹_›

theorem mapThen {γ : Type} {w : γ → α} {p : Parse γ} {q : α → Parse β} (next : Lays source c room k h (p >>= fun a => q (w a))) :
    Lays source c room k h ((w <$> p) >>= q) := by
  rwa [bind_map_left]

/- At the end of the source the reader stays there. -/
theorem advanceOn {q : Unit → Parse β} (next : ∀ d, Lays source d .none k h (q ())) : Lays source c .none k h (Parse.advance >>= q) := by
  intro ctx here laid
  cases r : c.next ctx.limit with
  | error e => simp [Parse.advance, r, Leads]
  | ok d =>
    obtain ⟨within, later⟩ := nextWithin here r
    have later : c.start ≤ d.start := by omega
    rw [runBind, runAdvance r]
    exact (next d ctx within (laid.later later later)).imp fun b e passed => passed.after later

section
variable (inner : All source g)
include inner

theorem parenthesized : Lays source c room k (fun t => k.add [t]) (parenthesized g) :=
  expectMark fun _ => (expression inner).weaken.bind fun _ _ => expectMark fun _ => pure (.refl _)

theorem body : Lays source c .none k (fun t => k.add [t]) (body g) := (inner _ _ _).weaken

theorem declarators : Lays source c .none k (fun ts => k.add ts) (declarators g) := by
  unfold Parse.declarators
  extract_lets declarator
  have each (k : Places) (d : Cursor) : Lays source d .none k (fun t => k.add [t]) declarator := by
    refine (inner _ _ _).weaken.bind fun target e => accept rfl (fun e => ?_) fun _ => pure (by simp)
    exact bind (f := fun o => (k.add [target]).add o.toList) (map (by simpa using (inner .assignment e (k.add [target])).weaken))
      fun value e => pure (by cases value <;> simp)
  refine (each k c).bind fun first d => ?_
  refine loop (s := [first]) (fun (done : List Tree) => k.add done.reverse) fun done e => accept rfl (fun e => (each _ _).bind fun t e => pure (by simp)) fun _ => pure (by simp)

theorem declaration (more : c.token ≠ .finish) : Lays source c .code k (fun t => k.add [t]) (declaration g) := by
  refine get (isWord (reserve (advance more fun d => (declarators inner).bind fun ds e => ite (fun _ _ _ _ => trivial) fun _ => ?_)))
  exact semicolon.bind fun _ e => pure (by simp)

theorem countingRest (first : List Tree) : Lays source c .none (k.add first) (fun t => k.add [t]) (countingRest g first) := by
  refine isMark ?_
  extract_lets behindTest
  have rest (test : List Tree) (d : Cursor) : Lays source d .none ((k.add first).add test) (fun t => k.add [t]) (behindTest test) := by
    refine expectMark fun e => isMark ?_
    extract_lets behindStep
    have last (step : List Tree) (f : Cursor) :
        Lays source f .none (((k.add first).add test).add step) (fun t => k.add [t]) (behindStep step) :=
      expectMark fun _ => (body inner).bind fun inside _ => pure (by simp [plain])
    exact ite (fun _ => given (by simpa using last [] e)) fun _ => (expression inner).weaken.bind fun step f => given (last [step] f)
  exact ite (fun _ => given (by simpa using rest [] c)) fun _ => (expression inner).weaken.bind fun test d => given (rest [test] d)

theorem eachRest {isAwait : Bool} (target : Tree) : Lays source c .none (k.add [target]) (fun t => k.add [t]) (eachRest g isAwait target) := by
  unfold Parse.eachRest
  extract_lets behind
  have rest (range : Tree) (d : Cursor) : Lays source d .none ((k.add [target]).add [range]) (fun t => k.add [t]) (behind range) :=
    expectMark fun e => (body inner).bind fun inside f => pure (by simp [plain])
  refine accept rfl (fun d => (inner _ _ _).weaken.bind rest) fun _ => otherwise <| ite (fun _ _ _ _ => trivial) fun _ => ?_
  exact expectWord fun d => (expression inner).weaken.bind rest

theorem forRest : Lays source c .none k (fun t => k.add [t]) (forRest g) := by
  refine read fun x => ?_
  extract_lets behindAwait
  have rest (isAwait : Bool) (d : Cursor) : Lays source d .none k (fun t => k.add [t]) (behindAwait isAwait) := by
    refine expectMark fun e => isMark (ite (fun mark => ?_) fun _ => ?_)
    · have more : e.token ≠ .finish := by
        intro finish
        simp [finish] at mark
      exact advance more fun f => by simpa using countingRest inner (c := f) (k := k) []
    refine declarationAhead fun b more => ite (fun here => weaken ?_) fun _ => isWord ?_
    · refine get (isWord (reserve (advance (more here) fun f => (withReader (declarators inner)).bind fun ds f => eachAhead fun b => ?_)))
      refine ite (fun _ => ?_) fun _ => ite (fun _ _ _ _ => trivial) fun _ => expectMark fun f => ?_
      · simpa using eachRest inner (c := f) (k := k) (.declare e.start ds)
      · simpa using countingRest inner (c := f) (k := k) [.declare e.start ds]
    · refine (withReader (expression inner)).weaken.bind fun first f => eachAhead fun b => ite (fun _ => ?_) fun _ => ?_
      · refine targetThen fun target f _ => ?_
        split
        · exact ite (fun _ _ _ _ => trivial) fun _ => eachRest inner _
        · exact eachRest inner _
      · exact ite (fun _ _ _ _ => trivial) fun _ => expectMark fun _ => countingRest inner [first]
  refine ite (fun _ => accept rfl (fun d => rest true d) fun _ => rest false c) fun _ => given (rest false c)

theorem caseBody : Lays source c .none k (fun ts => k.add ts) (caseBody g) := by
  refine rounds fun done d => isWord (isWord (isMark (ite (fun _ => pure (by simp)) fun _ => ?_)))
  exact (inner _ _ _).weaken.bind fun t e => pure (by simp)

theorem switchRest : Lays source c .none k (fun t => k.add [t]) (switchRest g) := by
  refine (parenthesized inner).bind fun subject d => expectMark fun e => ?_
  refine (treesUntil fun k d => ?_).bind fun cases f => pure (by rw [Places.addSilent _ _ rfl, plain, Tree.parts, Places.addHead k]; exact .refl _)
  extract_lets behindTest
  have rest (test : List Tree) (d : Cursor) : Lays source d .none (k.add test) (fun t => k.add [t]) (behindTest test) :=
    expectMark fun _ => (caseBody inner).bind fun ts f => pure (by simp [plain])
  refine accept rfl (fun e => (expression inner).weaken.bind fun test e => given (rest [test] e)) fun _ => ?_
  exact expectWord fun e => given (by simpa using rest [] e)

theorem tryRest : Lays source c .none k (fun t => k.add [t]) (tryRest g) := by
  refine (block inner).bind fun guarded d => ?_
  extract_lets behindHandler behindError
  have rest (handler : Option (List Tree)) (d : Cursor) :
      Lays source d .none ((k.add guarded).add (handler.getD [])) (fun t => k.add [t]) (behindHandler handler) := by
    refine accept rfl (fun e => ?_) fun _ => ?_
    · refine bind (f := fun o => ((k.add guarded).add (handler.getD [])).add (o.getD [])) (map (block inner)) fun finalizer f => ?_
      exact ite (fun _ _ _ _ => trivial) fun _ => pure (by simp [plain])
    · exact given (ite (fun _ _ _ _ => trivial) fun _ => pure (by simp [plain]))
  have caught (error : List Tree) (e : Cursor) :
      Lays source e .none ((k.add guarded).add error) (fun t => k.add [t]) (behindError error) :=
    (block inner).bind fun ts f => given (by simpa using rest (some (error ++ ts)) f)
  refine accept rfl (fun e => accept rfl (fun f => ?_) fun _ => given (by simpa using caught [] e)) fun _ => given (by simpa using rest none d)
  exact (inner _ _ _).weaken.bind fun target f => expectMark fun f => given (caught [target] f)

theorem ifRest : Lays source c .none k (fun t => k.add [t]) (ifRest g) := by
  refine (parenthesized inner).bind fun test d => (body inner).bind fun yes e => ?_
  refine accept rfl (fun f => (body inner).bind fun no f => given (pure (by simp [plain]))) fun _ => given (pure (by simp [plain]))

theorem doRest : Lays source c .none k (fun t => k.add [t]) (doRest g) := by
  refine (body inner).bind fun inside d => expectWord fun e => (parenthesized inner).bind fun test f => ?_
  exact acceptAny rfl fun _ _ => pure (by simp [plain])

theorem returnRest : Lays source c .none k (fun t => k.add [t]) (returnRest g) := by
  refine read fun x => ite (fun _ _ _ _ => trivial) fun _ => endsHere fun b => ?_
  extract_lets behind
  have rest (value : Option Tree) (d : Cursor) : Lays source d .none (k.add value.toList) (fun t => k.add [t]) (behind value) :=
    semicolon.bind fun _ e => pure (by cases value <;> simp)
  refine ite (fun _ => given (by simpa using rest none c)) fun _ => ?_
  exact bind (f := fun o => k.add o.toList) (map (by simpa using (expression inner (c := c) (k := k)).weaken)) rest

theorem throwRest : Lays source c .none k (fun t => k.add [t]) (throwRest g) := by
  refine get (ite (fun _ _ _ _ => trivial) fun _ => (expression inner).weaken.bind fun value d => ?_)
  exact semicolon.bind fun _ e => pure (by simp [plain])

theorem expressionStatement : Lays source c .code k (fun t => k.add [t]) (expressionStatement g) :=
  (expression inner).bind fun e d => semicolon.bind fun _ f => pure (by simp)

theorem namedStatement : Lays source c .code k (fun t => k.add [t]) (namedStatement g) := by
  refine read fun x => get (ahead fun o => ite (fun labelled => ?_) fun _ => expressionStatement inner)
  have more : c.token ≠ .finish := by
    intro finish
    simp [finish, Context.nameOf?] at labelled
  exact advance more fun d => advanceOn fun e => (body inner).bind fun inside f => pure (by simp [plain])

theorem keywordStatement {word : String} {rest : Parse Tree} (found : keywordStatement? g word = some rest) :
    Lays source c .none k (fun t => k.add [t]) rest := by
  unfold keywordStatement? at found
  split at found
  all_goals cases found
  case h_1 => exact ifRest inner
  case h_2 => exact forRest inner
  case h_5 => exact doRest inner
  case h_6 => exact returnRest inner
  case h_7 | h_8 => exact jumpRest
  case h_9 => exact throwRest inner
  case h_10 => exact tryRest inner
  case h_11 => exact switchRest inner
  case h_12 => exact semicolon.bind fun _ d => pure (by simp [plain])
  all_goals exact (parenthesized inner).bind fun test d => (body inner).bind fun inside e => pure (by simp [plain])

/- Without a declaration nothing is passed. -/
theorem declarationThen {alone : Bool} {q : Option Tree → Parse β} (some : ∀ t d, Lays source d .none (k.add [t]) h (q (.some t)))
    (none : Lays source c .code k h (q none)) : Lays source c .code k h (declaration? g alone >>= q) := by
  refine assoc (functionAhead fun b => eitherThen (fun _ => assoc (isWord (assoc (ahead fun o => ?_)))) fun _ => assoc (isWord ?_))
  · exact eitherThen (fun _ _ _ _ => trivial) fun _ => mapThen ((functionDeclaration inner).bind some)
  refine eitherThen (fun word => eitherThen (fun _ _ _ _ => trivial) fun _ => assoc (advance ?_ fun d => ?_)) fun _ => ?_
  · intro finish
    simp [finish] at word
  · exact assoc (read fun x => assoc (get (eitherThen (fun _ _ _ _ => trivial) fun _ => mapThen ((classRest inner).bind some))))
  refine assoc (declarationAhead fun b more => eitherThen (fun here => assoc (isWord ?_)) fun _ => none)
  exact eitherThen (fun _ _ _ _ => trivial) fun _ => mapThen ((declaration inner (more here)).bind some)

theorem statement {alone : Bool} : Lays source c .code k (fun t => k.add [t]) (statement g alone) := by
  refine declarationThen inner (fun t d => pure (.refl _)) (get ?_)
  split
  · rename_i token
    exact advance (by simp [token]) fun d => pure (by simp [plain])
  · exact (block inner).bind fun ts d => pure (by simp [plain])
  · rename_i word token
    cases found : keywordStatement? g word with
    | none => exact namedStatement inner
    | some rest => exact advance (by simp [token]) fun d => keywordStatement inner found
  · exact expressionStatement inner

end
end ClassDocs.Script.Parse.Lays
