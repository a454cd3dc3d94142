import ClassDocs.Proofs.Script.LayingPrimary

/-! Operations and assignments lay their trees. -/
namespace ClassDocs.Script.Parse.Lays
variable {α β : Type} {h : β → Places} {source : List Char} {c : Cursor} {room : Room} {k : Places} {g : Grammar}

/- The token in front of which the target was read stays. -/
theorem simpleTargetThen {t : Tree} {q : Tree → Parse β} (next : ∀ t', Lays source c .none (k.add [t']) h (q t')) :
    Lays source c .none (k.add [t]) h (Parse.asSimpleTarget t >>= q) := by
  unfold Parse.asSimpleTarget
  split
  · rename_i t' found
    exact fun ctx here laid => next t' ctx here (laid.under (Tree.simpleTargetUnder found (.refl k)))
  · exact fun _ _ _ => trivial

theorem targetThen {t : Tree} {q : Tree → Parse β} (next : ∀ t' d, d.token = c.token → Lays source d .none (k.add [t']) h (q t')) :
    Lays source c .none (k.add [t]) h (Parse.asTarget t >>= q) := by
  unfold Parse.asTarget
  split
  · rename_i t' shorts found
    intro ctx here laid
    have next := next t' { c with pending := c.pending.filter (!shorts.contains ·) } rfl
    exact next ctx ⟨here.place, here.token, here.remarks⟩ (laid.under (t.targetUnder found (.refl k)))
  · exact fun _ _ _ => trivial

section
variable (inner : All source g)
include inner

theorem steppedBehind : Lays source c .code k (fun t => k.add [t]) (steppedBehind g) := by
  refine (leftSide inner).bind fun t d => get (ite (fun step => simpleTargetThen fun t => ?_) fun _ => pure (.refl _))
  have more : d.token ≠ .finish := by
    intro finish
    simp [finish, isStep] at step
  exact advance more fun e => pure (by simp)

theorem unary : Lays source c .code k (fun t => k.add [t]) (unary g) := by
  refine get ?_
  dsimp only
  split
  · rename_i token
    have more : c.token ≠ .finish := by simp [token]
    refine ite (fun _ => advance more fun d => (inner _ _ _).weaken.bind fun t e => pure (by simp)) fun _ => ?_
    refine ite (fun _ => advance more fun d => (inner _ _ _).weaken.bind fun t e => simpleTargetThen fun t => pure (by simp)) fun _ => ?_
    exact steppedBehind inner
  · rename_i token
    have more : c.token ≠ .finish := by simp [token]
    refine ite (fun _ => advance more fun d => (inner _ _ _).weaken.bind fun t e => pure (by simp)) fun _ => read fun x => ?_
    refine ite (fun _ => advance more fun d => (inner _ _ _).weaken.bind fun t e => pure (by simp)) fun _ => ?_
    exact steppedBehind inner
  · exact steppedBehind inner

theorem privateTest {level : Nat} (more : c.token ≠ .finish) : Lays source c .code k (fun t => k.add [t]) (privateTest g level) := by
  refine advance more fun d => read fun x => ite (fun _ _ _ _ => trivial) fun _ => expectWord fun e => ?_
  exact (inner _ _ _).weaken.bind fun t f => pure (by simp)

theorem binary {level : Nat} : Lays source c .code k (fun t => k.add [t]) (binary g level) := by
  refine get ?_
  extract_lets behind
  have rest (t : Tree) (d : Cursor) : Lays source d .none (k.add [t]) (fun t => k.add [t]) (behind t) := by
    refine loop (fun t => k.add [t]) fun t e => read fun x => get ?_
    split
    · rename_i operator own found
      have more : e.token ≠ .finish := by
        intro finish
        simp [finish, operator?] at found
      refine ite (fun _ => pure (.refl _)) fun _ => ite (fun _ _ _ _ => trivial) fun _ => advance more fun d => ?_
      refine (inner _ _ _).weaken.bind fun u f => ite (fun _ => ite (fun _ _ _ _ => trivial) fun _ => ?_) fun _ => pure (by simp)
      exact pure (by simp)
    · exact pure (.refl _)
  split
  · rename_i token
    exact (privateTest inner (by simp [token])).bind rest
  · exact (unary inner).bind rest

theorem conditional : Lays source c .code k (fun t => k.add [t]) (conditional g) := by
  refine (binary inner).bind fun test d => accept rfl (fun e => ?_) fun _ => pure (.refl _)
  refine (withReader (inner _ _ _).weaken).bind fun yes f => expectMark fun f => ?_
  exact (inner _ _ _).weaken.bind fun no f => pure (by simp)

theorem yieldRest : Lays source c .none k (fun t => k.add [t]) (yieldRest g) := by
  refine get (ite (fun _ => pure (by simp)) fun _ => acceptAny rfl fun _ d => ?_)
  exact (inner _ _ _).weaken.bind fun value e => pure (by simp)

theorem assigned : Lays source c .code k (fun t => k.add [t]) (assigned g) := by
  refine get (reserve ((conditional inner).bind fun left d => get ?_))
  have left : (k.add [left]).Under ((k.code c.start).add [left]) := ((Places.Under.refl k).code _).add _
  split
  · rename_i mark token
    have more (e : Cursor) (same : e.token = d.token) : e.token ≠ .finish := by
      simp [same, token]
    refine ite (fun _ => ite (fun _ => ?_) fun _ => ?_) fun _ => pure left
    · refine targetThen fun t e same => advance (more e same) fun e => ?_
      exact (inner _ _ _).weaken.bind fun u f => pure (by simp)
    · refine simpleTargetThen fun t => advance (more d rfl) fun e => ?_
      exact (inner _ _ _).weaken.bind fun u f => pure (by simp)
  · exact pure left

theorem assignment : Lays source c .code k (fun t => k.add [t]) (assignment g) := by
  refine read fun x => isWord (ite (fun isYield => ?_) fun _ => ?_)
  · have more : c.token ≠ .finish := by
      intro finish
      simp [finish] at isYield
    exact advance more fun d => yieldRest inner
  · exact arrowFunction inner (fun t d => pure (.refl _)) (assigned inner)

end
end ClassDocs.Script.Parse.Lays
