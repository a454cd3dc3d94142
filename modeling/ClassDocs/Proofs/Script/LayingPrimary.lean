import ClassDocs.Proofs.Script.LayingFunctions

/-! Expressions that stand by themselves, accesses and calls lay their trees. -/
namespace ClassDocs.Script.Parse
variable {α β : Type} {h : β → Places} {source : List Char} {c : Cursor} {room : Room} {k : Places} {g : Grammar}

theorem templateRestHeads {limit : Nat} (s : List Char) (l : Lexeme) (h : templateRest? limit s = some l) : l.Heads s := by
  unfold templateRest? at h
  split at h
  · exact templateBodyHeads h
  · contradiction

theorem regexRestHeads (s : List Char) (l : Lexeme) (h : regexRest? s = some l) : l.Heads s := by
  unfold regexRest? at h
  split at h
  · exact regexHeads h
  · contradiction

namespace Lays

theorem regexLiteral : Lays source c room k (fun t => k.add [t]) regexLiteral := by
  refine reread regexRestHeads fun d more => get (advance more fun e => ?_)
  split
  · exact pure (by simp)
  · exact fail _

theorem superRest : Lays source c .none k (fun t => k.add [t]) superRest :=
  isMark (isMark (isMark (ite (fun _ => pure (by simp)) fun _ => fail _)))

theorem accessBehindPoint {t : Tree} : Lays source c .none (k.add [t]) (fun t => k.add [t]) (accessBehindPoint t) := by
  refine get ?_
  split
  · rename_i token
    exact advance (by simp [token]) fun d => pure (by simp)
  · exact anyName.bind fun name d => pure (by simp)

/- A look whether a function follows leaves everything where it is. -/
theorem functionAhead {q : Bool → Parse β} (next : ∀ b, Lays source c room k h (q b)) : Lays source c room k h (functionAhead >>= q) := by
  unfold Parse.functionAhead
  rw [bind_assoc]
  refine isWord ?_
  split
  · exact next true
  rw [bind_assoc]
  refine isWord ?_
  split
  · rw [bind_assoc]
    refine ahead fun o => ?_
    cases o with
    | some d => exact next _
    | none => exact next false
  · exact next false

/- A property may begin at the current token. -/
theorem reserveKey {f : α → Places} {p : Parse α} (lays : Lays source c .key (k.key (c.start, true)) f p) : Lays source c .none k f p := by
  refine fun ctx here laid => lays ctx here ⟨?_, fun place member => ?_, fun place member => ?_, fun place member => ?_, laid.codesPassed⟩
  · rw [Places.key, List.map_append, List.nodup_append]
    refine ⟨laid.distinct, by simp, fun offset here offset' there same => ?_⟩
    obtain ⟨place, member, rfl⟩ := List.mem_map.mp here
    have passed : place.1 < c.start := laid.keysPassed place member
    rw [same, List.mem_singleton.mp there] at passed
    exact Nat.lt_irrefl _ passed
  all_goals
    simp only [Places.key, List.mem_append, List.mem_singleton] at member
    rcases member with member | rfl
  · exact laid.named place member
  · rfl
  · exact laid.apart place member
  · exact fun code => Nat.lt_irrefl _ (laid.codesPassed _ code)
  · exact Nat.lt_succ_of_lt (laid.keysPassed place member)
  · exact Nat.lt_succ_self _

theorem propertyKeyGives (x : Context) : Gives c (fun (r : Tree × Bool) => (r.2 || (r.1.keyName? r.2).isSome) = true ∧
    ((x.nameOf? c.token).isSome = true → ∃ name, r.1 = .identifier name)) (Parse.propertyKey g) := by
  refine .get ?_
  dsimp only
  split
  case h_1 => exact .behind fun _ d => .pure ⟨rfl, fun _ => ⟨_, rfl⟩⟩
  case h_5 noName _ _ _ =>
    refine .behind fun _ d => .behind fun key e => .behind fun _ f => .pure ⟨rfl, fun named => ?_⟩
    cases token : c.token with
    | name text escaped => exact absurd token (noName text escaped)
    | _ => simp [token, Context.nameOf?] at named
  all_goals
    rename_i token
    exact .behind fun _ d => .pure ⟨rfl, fun named => by simp [token, Context.nameOf?] at named⟩

section
variable (inner : All source g)
include inner

theorem expression : Lays source c .code k (fun t => k.add [t]) (expression g) := by
  refine (inner _ _ _).bind fun first d => isMark (ite (fun _ => ?_) fun _ => pure (.refl _))
  refine bind (f := fun ts => (k.add [first]).add ts) (rounds fun done d => ?_) fun others d => ?_
  · exact accept rfl (fun e => (inner _ _ _).weaken.bind fun t e => pure (by simp)) fun _ => pure (by simp)
  · exact pure (by cases others <;> simp)

theorem template {tagged : Bool} : Lays source c .code k (fun r => k.add r.1) (template g tagged) := by
  have all : Lays source c .code (k.add [].reverse) (fun r => k.add r.1) (Parse.template g tagged) := by
    refine loopFrom (fun (done : List Tree) => k.add done.reverse) fun done d room => get ?_
    split
    · rename_i text last token
      refine ite (fun _ _ _ _ => trivial) fun _ => advance (by simp [token]) fun e => ite (fun _ => pure (.refl _)) fun _ => ?_
      exact (withReader (expression inner).weaken).bind fun inside f => read fun x => reread templateRestHeads fun _ _ => pure (by simp)
    · exact fail _
  simpa using all

theorem spreadOr : Lays source c .none k (fun t => k.add [t]) (spreadOr g) :=
  accept rfl (fun d => (inner _ _ _).weaken.bind fun t e => pure (by simp)) fun _ => (inner _ _ _).weaken

theorem arguments : Lays source c .none k (fun ts => k.add ts) (arguments g) := withReader (treeList fun _ _ => spreadOr inner)

theorem arrayRest : Lays source c .none k (fun t => k.add [t]) (arrayRest g) := by
  refine withReader (rounds fun done d => accept rfl (fun e => pure (by simp)) fun _ => accept rfl (fun e => pure (by simp)) fun _ => ?_)
  exact (spreadOr inner).bind fun element e => isMark (ite (fun _ => expectMark fun e => pure (by simp)) fun _ => pure (by simp))

theorem objectMember : Lays source c .none k (fun t => k.add [t]) (objectMember g) := by
  refine get (reserveKey (accept rfl (fun d => ?_) fun _ => moves methodMarks fun marks d room => read fun x => get ?_))
  · exact (inner _ _ _).weaken.bind fun t e => pure (by simpa using ((Places.Under.refl k).key _).add [t])
  · extract_lets shorthand
    refine bindGiving (propertyKeyGives x) (propertyKey inner) fun key e fits => isMark (ite (fun _ => ?_) fun _ => ?_)
    · exact (method inner).weaken.bind fun value f => pure (by simp [fits.1])
    · refine accept rfl (fun f => ?_) fun _ => otherwise <| ite (fun _ => fail _) fun isShort => ?_
      · exact (inner _ _ _).weaken.bind fun value f => pure (by simp [fits.1])
      · obtain ⟨key, computed⟩ := key
        obtain ⟨name, rfl⟩ := fits.2 (by simpa [shorthand, Option.isSome_iff_ne_none] using isShort)
        have named := fits.1
        dsimp only at named
        refine accept rfl (fun f => ?_) fun _ => ?_
        · exact (inner _ _ _).weaken.bind fun value f => modify (fun _ => ⟨rfl, rfl, rfl, rfl, rfl⟩) fun d => pure (by simp [named])
        · exact pure (by simp [named])

theorem objectRest : Lays source c .none k (fun t => k.add [t]) (objectRest g) := by
  exact withReader ((treeList fun _ _ => objectMember inner).bind fun ts d => pure (by simp))

theorem newRest : Lays source c .none k (fun t => k.add [t]) (newRest g) := by
  refine accept rfl (fun d => expectWord fun e => pure (by simp)) fun _ => (inner _ _ _).weaken.bind fun callee d => isMark ?_
  refine ite (fun _ => fail _) fun _ => ?_
  exact accept rfl (fun e => (arguments inner).bind fun args f => pure (by cases args <;> simp)) fun _ => given (pure (by simp))

theorem importRest : Lays source c .none k (fun t => k.add [t]) (importRest g) := by
  refine accept rfl (fun d => expectWord fun e => pure (by simp)) fun _ => expectMark fun d => ?_
  refine bind (f := fun ts => k.add ts) (withReader (treeList fun _ _ => (inner _ _ _).weaken)) fun ts d => ?_
  exact ite (fun _ => fail _) fun _ => pure (by simp)

theorem namedPrimary {text : String} {escaped : Bool} (more : c.token ≠ .finish) :
    Lays source c .code k (fun t => k.add [t]) (namedPrimary g text escaped) := by
  refine ite (fun _ => variableName.bind fun name d => pure (by simp)) fun _ => ?_
  split
  case h_5 => exact advance more fun d => classRest inner
  case h_6 => exact advance more fun d => newRest inner
  case h_7 => exact advance more fun d => superRest
  case h_8 => exact advance more fun d => importRest inner
  case h_9 => exact functionAhead fun b => ite (fun _ => functionExpression inner) fun _ => variableName.bind fun name d => pure (by simp)
  all_goals exact advance more fun d => pure (by simp)

theorem untaggedTemplate : Lays source c .code k (fun t => k.add [t]) (untaggedTemplate g) := by
  refine (template inner).bind fun parts d => ?_
  obtain ⟨parts, text⟩ := parts
  cases text with
  | some text => exact pure (by simpa using (Places.Under.refl k).skip parts)
  | none => exact pure (by simp)

theorem primary : Lays source c .code k (fun t => k.add [t]) (primary g) := by
  refine get ?_
  dsimp only
  split
  case h_4 => exact untaggedTemplate inner
  case h_5 text escaped token => exact namedPrimary inner (by simp [token])
  case h_6 mark token =>
    have more : c.token ≠ .finish := by simp [token]
    split
    · refine advance more fun d => (withReader (expression inner).weaken).bind fun t e => expectMark fun e => pure (by simp)
    · exact advance more fun d => arrayRest inner
    · exact advance more fun d => objectRest inner
    · exact regexLiteral
    · exact regexLiteral
    · exact fail _
  case h_7 => exact fail _
  all_goals
    rename_i token
    exact advance (by simp [token]) fun d => pure (by simp)

theorem accessByKey {t : Tree} : Lays source c .none (k.add [t]) (fun t => k.add [t]) (accessByKey g t) :=
  (withReader (expression inner).weaken).bind fun key d => expectMark fun e => pure (by simp)

theorem access {t : Tree} : Lays source c .none (k.add [t]) (fun o => k.add [o.getD t]) (access? g t) := by
  refine accept rfl (fun d => map accessBehindPoint) fun _ => accept rfl (fun d => map (accessByKey inner)) fun _ => get ?_
  refine ite (fun _ => (template inner).weaken.bind fun parts d => pure ?_) fun _ => pure (.refl _)
  obtain ⟨parts, text⟩ := parts
  cases parts <;> simp

theorem optionalAccess {start : Nat} {t : Tree} :
    Lays source c .none ((k.code start).add [t]) (fun t => (k.code start).add [t]) (optionalAccess g start t) := by
  refine accept rfl (fun d => (arguments inner).bind fun ts e => pure ?_) fun _ => accept rfl (fun d => accessByKey inner) fun _ => ?_
  · simpa using (((Places.Under.again k start).add [t]).add ts)
  · exact accessBehindPoint

theorem callee : Lays source c .code k (fun t => k.add [t]) (callee g) := by
  refine (primary inner).bind fun t d => loop (s := t) (fun t => k.add [t]) fun t e => ?_
  refine (access inner).bind fun o f => ?_
  cases o with
  | some t => exact pure (.refl _)
  | none => exact pure (.refl _)

theorem leftSide : Lays source c .code k (fun t => k.add [t]) (leftSide g) := by
  refine get (reserve ?_)
  refine (primary inner).bind fun t d => loop (s := (t, false)) (fun s => (k.code c.start).add [s.1]) fun s e => ?_
  obtain ⟨t, chained⟩ := s
  refine accept rfl (fun f => (optionalAccess inner).bind fun t d => pure (.refl _)) fun _ => accept rfl (fun f => ?_) fun _ => get ?_
  · refine (arguments inner).bind fun ts d => pure ?_
    simpa using (((Places.Under.again k c.start).add [t]).add ts)
  · refine ite (fun _ => fail _) fun _ => (access inner).bind fun o d => ?_
    cases o with
    | some t => exact pure (.refl _)
    | none => exact pure (by cases chained <;> simpa using ((Places.Under.refl k).code c.start).add [t])

end
end Lays
end ClassDocs.Script.Parse
