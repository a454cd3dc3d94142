import ClassDocs.Proofs.Script.Laying

/-! Names, patterns, functions and classes lay their trees. -/
namespace ClassDocs.Script.Parse
variable {α β : Type} {h : β → Places} {source : List Char} {c : Cursor} {room : Room} {k : Places} {g : Grammar}

theorem nameMore {ctx : Context} {t : Token} {name : String} (h : ctx.nameOf? t = some name) : t ≠ .finish := by
  rintro rfl
  contradiction

namespace Lays

/-- The forms inside lay their trees. -/
def All (source : List Char) (g : Grammar) : Prop := ∀ goal c k, Lays source c .code k (fun t => k.add [t]) (g goal)

/- Code that is no property may begin at the current token. -/
theorem reserve {α : Type} {f : α → Places} {p : Parse α} (lays : Lays source c .code (k.code c.start) f p) : Lays source c .code k f p := by
  refine fun ctx here laid => lays ctx here ⟨laid.distinct, laid.named, fun place member => ?_, laid.keysPassed, fun n member => ?_⟩
  · have passed : place.1 < c.start := laid.keysPassed place member
    simp only [Places.code, List.mem_append, List.mem_singleton, not_or]
    exact ⟨laid.apart place member, by omega⟩
  · simp only [Places.code, List.mem_append, List.mem_singleton] at member
    exact member.elim (laid.codesPassed n) fun same => by rw [same]; exact Nat.lt_succ_self _

/- The mark may be there or not. -/
theorem acceptEither {β : Type} {h : β → Places} {t : Token} {q : Bool → Parse β} (more : (t == .finish) = false)
    (next : ∀ b d room, Lays source d room k h (q b)) : Lays source c room k h (Parse.accept t >>= q) :=
  accept more (fun d => next true d .none) fun _ => next false c room

theorem acceptAny {t : Token} {q : Bool → Parse β} (more : (t == .finish) = false) (next : ∀ b d, Lays source d .none k h (q b)) :
    Lays source c .none k h (Parse.accept t >>= q) :=
  accept more (next true) fun _ => next false c

theorem given {a : α} {q : α → Parse β} (next : Lays source c room k h (q a)) :
    Lays source c room k h (Pure.pure a >>= q) := next

theorem semicolon : Lays source c .none k (fun _ => k) semicolon :=
  accept rfl (fun _ => pure (.refl k)) fun _ => get (ite (fun _ => fail _) fun _ => pure (.refl k))

theorem variableName : Lays source c room k (fun _ => k) variableName := by
  refine read fun x => get ?_
  split
  · rename_i name named
    exact advance (nameMore named) fun d => pure (.refl k)
  · exact fail _

theorem anyName : Lays source c room k (fun _ => k) anyName := by
  refine get ?_
  split
  · rename_i token
    exact advance (by simp [token]) fun d => pure (.refl k)
  · exact fail _

/- Trees are kept last one first until the last round. -/
theorem rounds {step : List Tree → Parse (List Tree ⊕ β)}
    (round : ∀ done d, Lays source d .none (k.add done.reverse) (Sum.elim (fun done => k.add done.reverse) h) (step done)) :
    Lays source c .none k h (Parse.loop [] step) := by
  simpa using loop (s := []) (fun (done : List Tree) => k.add done.reverse) round

theorem functionWord {isAsync : Bool} : Lays source c room k (fun _ => k) (functionWord isAsync) :=
  expectWord fun _ => acceptAny rfl fun _ _ => pure (.refl k)

theorem methodMarks : Moves source methodMarks :=
  Moves.acceptModifier.bind fun _ => (Moves.accept (t := .punctuator "*") rfl).bind fun _ => Moves.ite (.pure _) <|
    Moves.acceptModifier.bind fun _ => Moves.ite (.pure _) <| Moves.acceptModifier.bind fun _ => Moves.ite (.pure _) (.pure _)

theorem commaList {α : Type} (f : List α → Places) {close : String} {item : Parse α} 
    (each : ∀ done d, Lays source d .none (f done) (fun a => f (done ++ [a])) item) :
    Lays source c .none (f []) f (commaList close item) := by
  refine loop (s := []) (fun (done : List α) => f done.reverse) fun done d => ?_
  refine accept rfl (fun e => pure (.refl _)) fun _ => ?_
  refine (each _ _).bind fun a e => isMark (ite (fun _ => expectMark fun e => pure (by simp)) fun _ => pure (by simp))

theorem itemsUntil {α : Type} (f : List α → Places) {close : String} {item : Parse α} 
    (each : ∀ done d, Lays source d .none (f done) (fun a => f (done ++ [a])) item) :
    Lays source c .none (f []) f (itemsUntil close item) := by
  refine loop (s := []) (fun (done : List α) => f done.reverse) fun done d => ?_
  refine accept rfl (fun e => pure (.refl _)) fun _ => ?_
  exact (each _ _).bind fun a e => pure (by simp)

/- Behind the trees read before, each item lays one more. -/
theorem treeList {close : String} {item : Parse Tree} (each : ∀ k d, Lays source d .none k (fun t => k.add [t]) item) :
    Lays source c .none k (fun ts => k.add ts) (Parse.commaList close item) := by
  simpa using commaList (c := c) (fun ts => k.add ts) fun done d => by simpa using each (k.add done) d

theorem treesUntil {close : String} {item : Parse Tree} (each : ∀ k d, Lays source d .none k (fun t => k.add [t]) item) :
    Lays source c .none k (fun ts => k.add ts) (Parse.itemsUntil close item) := by
  simpa using itemsUntil (c := c) (fun ts => k.add ts) fun done d => by simpa using each (k.add done) d

section
variable (inner : All source g)
include inner

/-- A key that is not computed has a name, and nothing in it begins anywhere. -/
theorem propertyKey : Lays source c room k (fun r => k.add [r.1]) (propertyKey g) := by
  refine get ?_
  dsimp only
  split
  case h_5 =>
    exact expectMark fun d => (withReader (inner _ _ _).weaken).bind fun key e => expectMark fun e => pure (by simp)
  all_goals
    rename_i token
    exact advance (by simp [token]) fun d => pure (by simp)

theorem bindingElement : Lays source c .code k (fun t => k.add [t]) (bindingElement g) :=
  (inner _ _ _).bind fun target d => accept rfl (fun d => (withReader (inner _ _ _).weaken).bind fun value e => pure (by simp))
    fun _ => pure (.refl _)

theorem arrayBinding : Lays source c .none k (fun t => k.add [t]) (arrayBinding g) := by
  refine rounds fun done d => ?_
  refine accept rfl (fun e => pure (by simp)) fun _ => accept rfl (fun e => pure (by simp)) fun _ => accept rfl (fun e => ?_) fun _ => ?_
  · exact (inner _ _ _).weaken.bind fun rest e => expectMark fun e => pure (by simp)
  · exact (bindingElement inner).weaken.bind fun element e => isMark (ite (fun _ => expectMark fun e => pure (by simp)) fun _ => pure (by simp))

theorem propertyBinding {key : Tree} {computed short : Bool} :
    Lays source c .none (k.add [key]) (fun ts => k.add ts.reverse) (propertyBinding g key computed short) := by
  refine accept rfl (fun d => ?_) fun _ => otherwise <| ite (fun _ => fail _) fun _ => accept rfl (fun d => ?_) fun _ => ?_
  · refine (bindingElement inner).weaken.bind fun element e => pure ?_
    cases computed with
    | true => simp
    | false => exact ((Places.Under.refl k).skip [key]).add [element]
  · exact (withReader (inner _ _ _).weaken).bind fun value e => pure (by simp)
  · exact pure (by simp)

theorem objectBinding : Lays source c .none k (fun t => k.add [t]) (objectBinding g) := by
  refine rounds fun done d => ?_
  refine accept rfl (fun e => pure (by simp)) fun _ => accept rfl (fun e => ?_) fun _ => read fun x => get ?_
  · exact variableName.bind fun rest e => expectMark fun e => pure (by simp)
  · refine (propertyKey inner).bind fun key d => (propertyBinding inner).bind fun parts e => isMark (ite ?_ ?_)
    · exact fun _ => expectMark fun e => pure (by simp)
    · exact fun _ => pure (by simp)

theorem binding : Lays source c .code k (fun t => k.add [t]) (binding g) :=
  accept rfl (fun d => arrayBinding inner) fun _ => accept rfl (fun d => objectBinding inner) fun _ =>
    variableName.bind fun name d => pure (by simp)

theorem parameters : Lays source c .none k (fun ts => k.add ts) (parameters g) := by
  refine rounds fun done d => accept rfl (fun e => pure (by simp)) fun _ => accept rfl (fun e => ?_) fun _ => ?_
  · exact (inner _ _ _).weaken.bind fun rest e => expectMark fun e => pure (by simp)
  · exact (bindingElement inner).weaken.bind fun element e => isMark (ite (fun _ => expectMark fun e => pure (by simp)) fun _ => pure (by simp))

theorem block : Lays source c room k (fun ts => k.add ts) (block g) :=
  expectMark fun _ => treesUntil fun _ _ => (inner _ _ _).weaken

/- A function without a name takes no place. -/
theorem functionRest {start : Nat} {name : Option String} {m : Manner} :
    Lays source c room (k.code start) (fun t => k.add [t]) (functionRest g start name m) := by
  refine withReader (expectMark fun d => ?_)
  refine (parameters inner).bind fun ts d => (block inner).bind fun us d => pure ?_
  cases name with
  | some name => simp
  | none => simpa using (((Places.Under.refl k).code start).add ts).add us

theorem functionExpression : Lays source c .code k (fun t => k.add [t]) (functionExpression g) := by
  refine get (reserve (acceptEither (t := .name "async" false) rfl fun isAsync d room => functionWord.bind fun m e => isMark (ite (fun _ => ?_) fun _ => ?_)))
  · exact given (functionRest inner)
  · exact bind (f := fun _ => k.code c.start) (map (withReader variableName)) fun name f => functionRest inner

theorem functionDeclaration {nameless : Bool} : Lays source c .code k (fun t => k.add [t]) (functionDeclaration g nameless) := by
  refine get (reserve (acceptEither (t := .name "async" false) rfl fun isAsync d room => functionWord.bind fun m e => isMark (ite (fun _ => ?_) fun _ => ?_)))
  · exact given (functionRest inner)
  · exact bind (f := fun _ => k.code c.start) (map variableName) fun name f => functionRest inner

theorem method {m : MethodMarks} : Lays source c .code k (fun t => k.add [t]) (method g m) := by
  refine get (reserve ((functionRest inner).bind fun function d => ?_))
  split
  · exact ite (fun _ => pure (by simp)) fun _ => fail _
  · exact pure (by simp)

theorem classKey : Lays source c room k (fun ts => k.add ts) (classKey g) := by
  refine get ?_
  split
  · rename_i token
    exact advance (by simp [token]) fun d => pure (by simp)
  · refine (propertyKey inner).bind fun key d => pure ?_
    cases key.2 with
    | true => exact .refl _
    | false => simpa using (Places.Under.refl k).skip [key.1]

theorem classMember : Lays source c .none k (fun t => k.add [t]) (classMember g) := by
  refine moves Moves.acceptModifier fun isStatic d room => isMark (ite (fun _ => ?_) fun _ => ?_)
  · exact withReader ((block inner).bind fun ts e => pure (by simp))
  · refine moves methodMarks fun marks d room => (classKey inner).bind fun key e => isMark (ite (fun _ => ?_) fun _ => ?_)
    · exact (method inner).weaken.bind fun function e => pure (by simp)
    · refine accept rfl (fun d => ?_) fun _ => ?_
      · refine bind (f := fun ts => (k.add key).add ts) (withReader ((inner _ _ _).weaken.bind fun value e => pure (by simp))) fun value e => ?_
        exact semicolon.bind fun _ e => pure (by simp)
      · exact given (semicolon.bind fun _ e => pure (by simp))

theorem classRest : Lays source c .none k (fun t => k.add [t]) (classRest g) := by
  refine read fun x => get ?_
  extract_lets hasName members behindName
  have membersLay (heritage : List Tree) (d : Cursor) : Lays source d .none (k.add heritage) (fun t => k.add [t]) (members heritage) := by
    refine expectMark fun e => bind (f := fun ts => (k.add heritage).add ts) ?_ fun ts f => pure (by simp)
    refine rounds fun done d => ?_
    refine accept rfl (fun e => pure (by simp)) fun _ => accept rfl (fun e => pure (by simp)) fun _ => ?_
    exact (classMember inner).bind fun t e => pure (by simp)
  have rest (d : Cursor) : Lays source d .none k (fun t => k.add [t]) (behindName ()) :=
    accept rfl (fun e => (inner _ _ _).weaken.bind fun t f => given (membersLay [t] f)) fun _ => given (by simpa using membersLay [] d)
  refine ite (fun named => advance ?_ rest) fun _ => rest c
  obtain ⟨name, named⟩ := Option.isSome_iff_exists.mp named
  exact nameMore named

theorem arrowHead : Lays source c .code k (fun r => k.add r.2) (arrowHead g) := by
  refine moves Moves.acceptModifier fun isAsync d room => withReader (accept rfl (fun e => ?_) fun _ => ?_)
  · exact (withReader (parameters inner)).bind fun ts f => get (ite (fun _ => fail _) fun _ => expectMark fun _ => pure (.refl _))
  · exact variableName.bind fun name e => given (get (ite (fun _ => fail _) fun _ => expectMark fun _ => pure (by simp)))

theorem arrowBody {isAsync : Bool} : Lays source c .none k (fun ts => k.add ts) (arrowBody g isAsync) :=
  isMark (ite (fun _ => withReader (block inner)) fun _ => withReader ((inner _ _ _).weaken.bind fun _ _ => pure (.refl _)))

theorem arrowFunction {q : Option Tree → Parse β} (some : ∀ t d, Lays source d .none (k.add [t]) h (q (.some t)))
    (none : Lays source c .code k h (q none)) : Lays source c .code k h (arrowFunction? g >>= q) := by
  rw [Parse.arrowFunction?, bind_assoc]
  refine attempt (arrowHead inner) (fun head d => ?_) none
  rw [bind_assoc]
  exact (arrowBody inner).bind fun ts e => given (by simpa using some (.arrow (head.2 ++ ts)) e)

end
end Lays
end ClassDocs.Script.Parse
