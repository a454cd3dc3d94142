import ClassDocs.Proofs.Script.Standing

/-! Lists in a script: items with commas between them, up to the mark that closes the list. A loop that reads one item in
each round reads them all. -/
namespace ClassDocs.Script

/-- Items parted by commas, up to the mark that closes them. -/
def listed (close : Char) : List (List Char) → List Char
  | [] => [close]
  | [x] => x ++ [close]
  | x :: y :: more => x ++ ',' :: ' ' :: listed close (y :: more)

theorem listedLength (close : Char) (items : List (List Char)) : items.length ≤ (listed close items).length := by
  fun_induction listed close items with
  | case1 => simp
  | case2 x => simp
  | case3 x y more ih =>
    simp at ih ⊢
    omega

theorem listedJoined (close : Char) (items : List String) :
    (Text.joined ", " items).toList ++ [close] = listed close (items.map String.toList) := by
  fun_induction Text.joined ", " items with
  | case1 => rfl
  | case2 s => rfl
  | case3 s rest other ih =>
    obtain ⟨t, more, rfl⟩ := List.exists_cons_of_ne_nil other
    simpa [listed] using ih

/-- What stands behind an item, and what is left of it when the next round begins. -/
inductive Behind (limit : Nat) (close : Char) : List Char → List Char → Prop where
  | comma {after : List Char} (opens : ∃ l, Opens limit after l) : Behind limit close (',' :: ' ' :: after) after
  | close (after : List Char) : Behind limit close (close :: after) (close :: after)

theorem behindPassed {close : Char} {behind after : List Char} {c : Cursor} {limit : Nat}
    (mark : close ∈ [')', ']', '\x7d']) (parted : Behind limit close behind after) (on : c.On limit behind) :
    (c.token = .punctuator (String.singleton close) ∧ c.On limit after) ∨
      (c.token = .punctuator "," ∧ ∃ d, c.next limit = .ok d ∧ d.On limit after) := by
  cases parted with
  | comma opens =>
    obtain ⟨l, opens⟩ := opens
    have fits := on.fits
    obtain ⟨token, -, rest⟩ := on.is (markOpens (by decide) limit _)
    exact .inr ⟨token, nextOn on opens (by simp at fits; omega) (.inr rest)⟩
  | close after =>
    have single : close ∈ [',', ':', ';', '(', ')', '[', ']', '\x7b', '\x7d'] := by
      simp only [List.mem_cons] at mark ⊢
      tauto
    exact .inl ⟨(on.is (markOpens single limit _)).1, on⟩

namespace Parse

/-- The reader comes to something that satisfies `Q`, or it fails where it may. -/
def Leads {α : Type} (mayFail : Prop) (Q : α → Cursor → Prop) : Except SyntaxError (α × Cursor) → Prop
  | .ok (a, d) => Q a d
  | .error _ => mayFail

theorem Leads.ok {α : Type} {Q : α → Cursor → Prop} {r : Except SyntaxError (α × Cursor)} (h : Leads False Q r) :
    ∃ a d, r = .ok (a, d) ∧ Q a d :=
  match r, h with
  | .ok (a, d), h => ⟨a, d, rfl, h⟩

theorem Leads.imp {α : Type} {mayFail : Prop} {Q R : α → Cursor → Prop} (h : ∀ a d, Q a d → R a d) {r : Except SyntaxError (α × Cursor)}
    (leads : Leads mayFail Q r) : Leads mayFail R r :=
  match r, leads with
  | .ok (a, d), leads => h a d leads
  | .error _, leads => leads

section
variable {X σ β : Type} {limit : Nat} {close : Char} {text : X → List Char} {all : List X} {rest : List Char}
  (starts : ∀ x ∈ all, ∀ s after, Behind limit close s after → (text x ++ s).length < limit → ∃ l, Opens limit (text x ++ s) l)
  (mark : close ∈ [')', ']', '\x7d'])
include starts mark

theorem listedOpens {xs : List X} (inside : ∀ x ∈ xs, x ∈ all) (fits : (listed close (xs.map text) ++ rest).length < limit) :
    ∃ l, Opens limit (listed close (xs.map text) ++ rest) l := by
  induction xs with
  | nil => exact ⟨_, markOpens (by simp only [List.mem_cons] at mark ⊢; tauto) limit rest⟩
  | cons x xs ih =>
    have here := starts x (inside x List.mem_cons_self)
    rcases xs with _ | ⟨y, more⟩
    · simpa [listed] using here (close :: rest) _ (.close rest) (by simpa [listed] using fits)
    · have later := ih (fun x h => inside x (List.mem_cons_of_mem _ h)) (by simp [listed] at fits ⊢; omega)
      simpa [listed] using here _ _ (.comma later) (by simpa [listed] using fits)

variable {mayFail : Prop} {ctx : Context} {step : σ → Parse (σ ⊕ β)} {I : List X → σ → Prop} {R : β → Prop}
  (item : ∀ done x more, done ++ x :: more = all → ∀ s c behind after, I done s → Behind limit close behind after → c.On limit (text x ++ behind) →
    Leads mayFail (fun r d => ∃ s', r = .inl s' ∧ I (done ++ [x]) s' ∧ d.On limit after) (step s ctx c))
  (closes : ∀ s c, I all s → c.On limit (close :: rest) →
    Leads mayFail (fun r d => ∃ b, r = .inr b ∧ R b ∧ d.On limit rest) (step s ctx c))
include item closes

/- Whatever the rounds are to keep is said about the items read so far. -/
theorem listRead {done xs : List X} (whole : done ++ xs = all) {s : σ} (kept : I done s) {fuel : Nat} (enough : xs.length < fuel)
    {c : Cursor} (on : c.On limit (listed close (xs.map text) ++ rest)) :
    Leads mayFail (fun b d => R b ∧ d.On limit rest) (iterate step fuel s ctx c) := by
  induction xs generalizing done s fuel c with
  | nil =>
    obtain ⟨fuel, rfl⟩ : ∃ n, fuel = n + 1 := ⟨fuel - 1, by grind⟩
    rw [List.append_nil] at whole
    have closed := closes s c (whole ▸ kept) on
    cases h : step s ctx c with
    | error e =>
      rw [h] at closed
      rwa [iterateFails h]
    | ok r =>
      obtain ⟨r, d⟩ := r
      rw [h] at closed
      obtain ⟨b, rfl, right, on⟩ := closed
      rw [iterateDone h]
      exact ⟨right, on⟩
  | cons x xs ih =>
    obtain ⟨fuel, rfl⟩ : ∃ n, fuel = n + 1 := ⟨fuel - 1, by grind⟩
    have inside : ∀ x' ∈ x :: xs, x' ∈ all := fun x' h => whole ▸ List.mem_append_right done h
    -- behind an item stands the closing mark, or a comma and the next item
    obtain ⟨behind, same, parted⟩ : ∃ behind, listed close ((x :: xs).map text) ++ rest = text x ++ behind ∧
        Behind limit close behind (listed close (xs.map text) ++ rest) := by
      rcases xs with _ | ⟨y, more⟩
      · exact ⟨close :: rest, by simp [listed], .close rest⟩
      · refine ⟨_, by simp [listed], .comma (listedOpens starts mark (fun x h => inside x (List.mem_cons_of_mem _ h)) ?_)⟩
        have fits := on.fits
        simp [listed] at fits ⊢
        omega
    have round := item done x xs whole s c behind _ kept parted (same ▸ on)
    cases h : step s ctx c with
    | error e =>
      rw [h] at round
      rwa [iterateFails h]
    | ok r =>
      obtain ⟨r, d⟩ := r
      rw [h] at round
      obtain ⟨s', rfl, kept, on⟩ := round
      rw [iterateNext h]
      exact ih (by rw [← whole]; simp) kept (by simpa using enough) on

end
end Parse
end ClassDocs.Script
