import ClassDocs.Proofs.Script.Passing
import ClassDocs.Proofs.Script.Places
import ClassDocs.Proofs.Script.Lists

/-! Readers lay the code of a script down in the order of its offsets. What a reader comes to is given by the places it has
passed by then: whatever was passed before and the trees read since. -/
namespace ClassDocs.Script.Parse
variable {α β σ : Type}

/-- Which place may be the one of the current token: none, one of code, or one of a property. -/
inductive Room where
  | none
  | code
  | key

def Room.keys : Room → Nat
  | .key => 1
  | _ => 0

def Room.codes : Room → Nat
  | .code => 1
  | _ => 0

/-- The cursor is behind all of the places, and it came from the offset or from behind it. -/
structure Passed (source : List Char) (start : Nat) (k : Places) (d : Cursor) : Prop where
  within : d.Within source
  later : start ≤ d.start
  laid : k.Laid d.start d.start

theorem Passed.after {source : List Char} {start earlier : Nat} {k : Places} {d : Cursor} (passed : Passed source start k d)
    (before : earlier ≤ start) : Passed source earlier k d :=
  { passed with later := Nat.le_trans before passed.later }

/-- With the places `k` passed, the reader passes those of `f`, and goes behind all of them. -/
def Lays (source : List Char) (c : Cursor) (room : Room) (k : Places) (f : α → Places) (p : Parse α) : Prop :=
  ∀ ctx, c.Within source → k.Laid (c.start + room.keys) (c.start + room.codes) →
    Leads True (fun a d => Passed source c.start (f a) d) (p ctx c)

theorem Leads.bind {mayFail : Prop} {Q : α → Cursor → Prop} {R : β → Cursor → Prop} {p : Parse α} {q : α → Parse β} {ctx : Context}
    {c : Cursor} (first : Leads mayFail Q (p ctx c)) (next : ∀ a d, Q a d → Leads mayFail R (q a ctx d)) :
    Leads mayFail R ((p >>= q) ctx c) := by
  rw [runBind]
  cases h : p ctx c with
  | error e =>
    rw [h] at first
    exact first
  | ok r =>
    obtain ⟨a, d⟩ := r
    rw [h] at first
    exact next a d first

theorem acceptThen {t : Token} {q : Bool → Parse β} {ctx : Context} {c : Cursor} (same : c.token = t) :
    (accept t >>= q) ctx c = (advance >>= fun _ => q true) ctx c := by
  cases h : c.next ctx.limit <;> simp [accept, same, advance, h]

/-- The reader has no trees to lay; it stays where it was or goes on. -/
def Moves (source : List Char) (p : Parse α) : Prop :=
  ∀ ctx c, c.Within source → Leads True (fun _ d => d.Within source ∧ (d = c ∨ c.start < d.start)) (p ctx c)

/-- Whatever the reader gives has the property. -/
def Gives (c : Cursor) (P : α → Prop) (p : Parse α) : Prop := ∀ ctx, Leads True (fun a _ => P a) (p ctx c)

theorem Gives.pure {c : Cursor} {P : α → Prop} {a : α} (h : P a) : Gives c P (Pure.pure a : Parse α) := fun _ => h

theorem Gives.behind {c : Cursor} {P : β → Prop} {p : Parse α} {q : α → Parse β} (next : ∀ a d, Gives d P (q a)) : Gives c P (p >>= q) := by
  intro ctx
  rw [runBind]
  cases p ctx c with
  | error e => trivial
  | ok r => exact next r.1 r.2 ctx

theorem Gives.get {c : Cursor} {P : β → Prop} {q : Cursor → Parse β} (next : Gives c P (q c)) : Gives c P (MonadState.get >>= q) := next

theorem advanceWithin {source : List Char} {ctx : Context} {c : Cursor} (more : c.token ≠ .finish) (here : c.Within source) :
    Leads True (fun _ d => d.Within source ∧ c.start < d.start) (advance ctx c) := by
  cases h : c.next ctx.limit with
  | error e => simp [advance, h, Leads]
  | ok d =>
    obtain ⟨within, later⟩ := nextWithin here h
    have takes : 0 < byteLength c.raw := by
      rcases here.token with ⟨finish, -⟩ | ⟨-, takes⟩
      · exact absurd finish more
      · exact byteLengthPositive takes
    rw [runAdvance h]
    exact ⟨within, by omega⟩

namespace Moves
variable {source : List Char} {p : Parse α} {q : α → Parse β}

theorem pure (a : α) : Moves source (Pure.pure a : Parse α) := fun _ _ here => ⟨here, .inl rfl⟩

theorem bind (first : Moves source p) (next : ∀ a, Moves source (q a)) : Moves source (p >>= q) := by
  refine fun ctx c here => (first ctx c here).bind fun a d moved => ((next a) ctx d moved.1).imp fun b e moved' => ⟨moved'.1, ?_⟩
  rcases moved.2 with rfl | later
  · exact moved'.2
  · rcases moved'.2 with rfl | later'
    · exact .inr later
    · exact .inr (Nat.lt_trans later later')

theorem ite {b : Prop} [Decidable b] {p p' : Parse α} (yes : Moves source p) (no : Moves source p') : Moves source (if b then p else p') := by
  split
  · exact yes
  · exact no

theorem accept {t : Token} (more : (t == .finish) = false) : Moves source (accept t) := by
  intro ctx c here
  by_cases same : c.token = t
  · have moved : Leads True (fun _ d => d.Within source ∧ c.start < d.start) (advance ctx c) := advanceWithin (by simpa [same] using more) here
    cases r : advance ctx c with
    | error e => simp [Parse.accept, same, r, Leads]
    | ok r' =>
      have run : Parse.accept t ctx c = .ok (true, r'.2) := by simp [Parse.accept, same, r]
      rw [r] at moved
      rw [run]
      exact ⟨moved.1, .inr moved.2⟩
  · rw [runAcceptOther same]
    exact ⟨here, .inl rfl⟩

theorem acceptModifier {word : String} {fits : Cursor → Bool} : Moves source (acceptModifier word fits) := by
  intro ctx c here
  by_cases same : c.token = .name word false
  · cases r : c.next ctx.limit with
    | error e => simpa [Parse.acceptModifier, same, Parse.ahead, r] using pure false ctx c here
    | ok d =>
      have moved : Leads True (fun _ d => d.Within source ∧ c.start < d.start) (advance ctx c) := advanceWithin (by simp [same]) here
      rw [runAdvance r] at moved
      by_cases fit : fits d = true
      · have run : Parse.acceptModifier word fits ctx c = .ok (true, d) := by simp [Parse.acceptModifier, same, Parse.ahead, r, fit]
        rw [run]
        exact ⟨moved.1, .inr moved.2⟩
      · simpa [Parse.acceptModifier, same, Parse.ahead, r, fit] using pure false ctx c here
  · simpa [Parse.acceptModifier, same] using pure false ctx c here

end Moves

/- Behind the current token there is room for it. -/
theorem beyond {k : Places} {c d : Cursor} {room : Room} (laid : k.Laid (c.start + room.keys) (c.start + room.codes)) (later : c.start < d.start) :
    k.Laid (d.start + Room.none.keys) (d.start + Room.none.codes) := by
  have one : room.keys ≤ 1 ∧ room.codes ≤ 1 := by cases room <;> decide
  have none : Room.none.keys = 0 ∧ Room.none.codes = 0 := ⟨rfl, rfl⟩
  exact laid.later (by omega) (by omega)

namespace Lays
variable {source : List Char} {c : Cursor} {room : Room} {k : Places} {f : α → Places} {h : β → Places} {p : Parse α} {q : α → Parse β}

theorem bind (first : Lays source c room k f p) (next : ∀ a d, Lays source d .none (f a) h (q a)) : Lays source c room k h (p >>= q) := by
  intro ctx here laid
  exact (first ctx here laid).bind fun a d passed => (next a d ctx passed.within passed.laid).imp fun b e behind => behind.after passed.later

theorem pure {a : α} (under : (f a).Under k) : Lays source c .none k f (pure a) :=
  fun _ here laid => ⟨here, Nat.le_refl _, laid.under under⟩

theorem fail (message : String) : Lays source c room k f (fail message) := fun _ _ _ => trivial

theorem weaken (lays : Lays source c .code k f p) : Lays source c .none k f p :=
  fun ctx here laid => lays ctx here (laid.later (Nat.le_refl _) (Nat.le_add_right _ _))

theorem get {q : Cursor → Parse β} (next : Lays source c room k h (q c)) : Lays source c room k h (MonadState.get >>= q) := next

theorem read {q : Context → Parse β} (next : ∀ x, Lays source c room k h (q x)) : Lays source c room k h (read >>= q) :=
  fun ctx => next ctx ctx

theorem map {w : α → β} (lays : Lays source c room k (fun a => h (w a)) p) : Lays source c room k h (w <$> p) := by
  intro ctx here laid
  have leads := lays ctx here laid
  rw [runMap]
  cases r : p ctx c with
  | error e => trivial
  | ok r' =>
    rw [r] at leads
    exact leads

theorem ite {b : Prop} [Decidable b] {p p' : Parse α} (yes : b → Lays source c room k f p) (no : ¬b → Lays source c room k f p') :
    Lays source c room k f (if b then p else p') := by
  split
  · exact yes ‹_›
  · exact no ‹_›

/- What follows a mark that is not there. -/
theorem otherwise {p p' : Parse α} (no : Lays source c room k f p') : Lays source c room k f (if false = true then p else p') := no

theorem advance {q : Unit → Parse β} (more : c.token ≠ .finish) (next : ∀ d, Lays source d .none k h (q ())) :
    Lays source c room k h (advance >>= q) := by
  intro ctx here laid
  refine (advanceWithin more here).bind fun _ d moved => ?_
  exact (next d ctx moved.1 (beyond laid moved.2)).imp fun b e passed => passed.after (Nat.le_of_lt moved.2)

theorem accept {t : Token} {q : Bool → Parse β} (more : (t == .finish) = false) (yes : ∀ d, Lays source d .none k h (q true))
    (no : c.token ≠ t → Lays source c room k h (q false)) : Lays source c room k h (accept t >>= q) := by
  intro ctx here laid
  by_cases same : c.token = t
  · rw [acceptThen same]
    exact Lays.advance (by simpa [same] using more) yes ctx here laid
  · simpa [runAcceptOther same] using no same ctx here laid

theorem expect {t : Token} (more : (t == .finish) = false) {message : String} {q : Unit → Parse β} (next : ∀ d, Lays source d .none k h (q ())) :
    Lays source c room k h ((do if !(← Parse.accept t) then Parse.fail message) >>= q) := by
  rw [bind_assoc]
  exact accept more (fun d => next d) fun _ => fun _ _ _ => trivial

theorem expectMark {mark : String} {q : Unit → Parse β} (next : ∀ d, Lays source d .none k h (q ())) :
    Lays source c room k h (expectMark mark >>= q) := expect (t := .punctuator mark) rfl next

theorem expectWord {word : String} {q : Unit → Parse β} (next : ∀ d, Lays source d .none k h (q ())) :
    Lays source c room k h (expectWord word >>= q) := expect (t := .name word false) rfl next

theorem isMark {mark : String} {q : Bool → Parse β} (next : Lays source c room k h (q (c.token == .punctuator mark))) :
    Lays source c room k h (isMark mark >>= q) := next

theorem isWord {word : String} {q : Bool → Parse β} (next : Lays source c room k h (q (c.token == .name word false))) :
    Lays source c room k h (isWord word >>= q) := next

/- A look ahead changes nothing, whatever it finds. -/
theorem ahead {q : Option Cursor → Parse β} (next : ∀ o, Lays source c room k h (q o)) : Lays source c room k h (ahead >>= q) := by
  intro ctx
  cases r : c.next ctx.limit with
  | error e => simpa [Parse.ahead, r] using next none ctx
  | ok d => simpa [Parse.ahead, r] using next (some d) ctx

theorem moves {q : α → Parse β} (first : Moves source p) (next : ∀ a d room, Lays source d room k h (q a)) :
    Lays source c room k h (p >>= q) := by
  refine fun ctx here laid => (first ctx c here).bind fun a d moved => ?_
  rcases moved.2 with rfl | later
  · exact next a d room ctx moved.1 laid
  · exact (next a d .none ctx moved.1 (beyond laid later)).imp fun b e passed => passed.after (Nat.le_of_lt later)

theorem withReader {w : Context → Context} (lays : Lays source c room k f p) : Lays source c room k f (withReader w p) :=
  fun ctx => lays (w ctx)

theorem attempt {q : Option α → Parse β} (first : Lays source c room k f p) (some : ∀ a d, Lays source d .none (f a) h (q (.some a)))
    (none : Lays source c room k h (q none)) : Lays source c room k h (attempt p >>= q) := by
  intro ctx here laid
  have leads := first ctx here laid
  cases r : p ctx c with
  | error e => simpa [attemptFails r] using none ctx here laid
  | ok r' =>
    obtain ⟨a, d⟩ := r'
    rw [r] at leads
    have next : Leads True (fun b e => Passed source c.start (h b) e) (q (.some a) ctx d) :=
      (some a d ctx leads.within leads.laid).imp fun b e behind => behind.after leads.later
    simpa [runAttempt r] using next

theorem iterate {s : σ} {F : σ → Places} {step : σ → Parse (σ ⊕ α)} (round : ∀ s d, Lays source d .none (F s) (Sum.elim F f) (step s))
    (fuel : Nat) : Lays source c .none (F s) f (iterate step fuel s) := by
  induction fuel generalizing s c with
  | zero => exact fail _
  | succ fuel ih =>
    refine bind (round s c) fun r d => ?_
    cases r with
    | inl s => exact ih
    | inr a => exact pure ⟨.refl _, fun _ h => h⟩

theorem loop {s : σ} (F : σ → Places) {step : σ → Parse (σ ⊕ α)} (round : ∀ s d, Lays source d .none (F s) (Sum.elim F f) (step s)) :
    Lays source c .none (F s) f (loop s step) :=
  read fun _ => iterate round _

theorem reread {scan : List Char → Option Lexeme} {message : String} (heads : ∀ s l, scan s = some l → l.Heads s) {q : Unit → Parse β}
    (next : ∀ d, d.token ≠ .finish → Lays source d room k h (q ())) : Lays source c room k h (reread scan message >>= q) := by
  intro ctx here laid
  cases r : c.reread scan with
  | none => simp [Parse.reread, r, Leads]
  | some d =>
    obtain ⟨within, same, more⟩ := rereadWithin heads here r
    have next := next d more ctx within (same ▸ laid)
    rw [same] at next
    simpa [Parse.reread, r] using next

theorem loopFrom {s : σ} (F : σ → Places) {step : σ → Parse (σ ⊕ α)} (round : ∀ s d room, Lays source d room (F s) (Sum.elim F f) (step s)) :
    Lays source c room (F s) f (Parse.loop s step) := by
  refine read fun x => bind (round s c room) fun r d => ?_
  cases r with
  | inl s => exact iterate (fun s d => round s d .none) _
  | inr a => exact pure ⟨.refl _, fun _ h => h⟩

/- What the reader gives is known besides the places it passes. -/
theorem bindGiving {P : α → Prop} (gives : Gives c P p) (first : Lays source c room k f p)
    (next : ∀ a d, P a → Lays source d .none (f a) h (q a)) : Lays source c room k h (p >>= q) := by
  intro ctx here laid
  have given := gives ctx
  have passed := first ctx here laid
  rw [runBind]
  cases r : p ctx c with
  | error e => trivial
  | ok r' =>
    obtain ⟨a, d⟩ := r'
    rw [r] at given passed
    exact (next a d given ctx passed.within passed.laid).imp fun b e behind => behind.after passed.later

theorem modify {w : Cursor → Cursor} {q : Unit → Parse β} (keeps : ∀ c, (w c).token = c.token ∧ (w c).start = c.start ∧ (w c).raw = c.raw ∧
    (w c).rest = c.rest ∧ (w c).remarks = c.remarks) (next : ∀ d, Lays source d room k h (q ())) : Lays source c room k h (modify w >>= q) := by
  intro ctx here laid
  obtain ⟨token, start, raw, rest, remarks⟩ := keeps c
  have within : (w c).Within source :=
    ⟨by rw [start, raw, rest]; exact here.place, by rw [token, raw, rest]; exact here.token, remarks ▸ here.remarks⟩
  rw [runBind, runModify]
  exact (next (w c) ctx within (by rwa [start])).imp fun b e passed => passed.after (Nat.le_of_eq start.symm)

end Lays
end ClassDocs.Script.Parse
