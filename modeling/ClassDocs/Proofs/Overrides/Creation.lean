import ClassDocs.Proofs.Overrides.Exact

/-! Classes that overrides make. An override says that it creates its target while there is none; an ignored override says so
too, and makes nothing. What is said of a class is true unless an ignored override is the first that leads to it. -/
namespace ClassDocs

/- The items up to the first one that is picked, and this one. -/
def untilFirst {α : Type} (p : α → Bool) : List α → List α
  | [] => []
  | a :: rest => if p a then [a] else a :: untilFirst p rest

theorem untilFirstSome {α : Type} {p : α → Bool} {items : List α} (some : items ≠ []) : 0 < (untilFirst p items).length := by
  cases items with
  | nil => contradiction
  | cons a rest => unfold untilFirst; split <;> simp

theorem untilFirstOne {α : Type} {p : α → Bool} {items : List α} {q : Prop} [Decidable q] (any : q ↔ ∃ a ∈ items, p a = true) :
    (untilFirst p items).length = (if q then 1 else 0) ↔ ∀ a, items.head? = some a → p a = true := by
  cases items with
  | nil => simp [untilFirst, any]
  | cons a rest =>
    rw [untilFirst]
    cases picked : p a with
    | true => simp [picked, any]
    | false =>
      have more : q → 0 < (untilFirst p rest).length := fun yes => by
        obtain ⟨b, hb, pb⟩ := any.mp yes
        refine untilFirstSome (List.ne_nil_of_mem ((List.mem_cons.mp hb).resolve_left ?_))
        rintro rfl
        rw [picked] at pb
        contradiction
      refine iff_of_false (fun one => ?_) (by simp [picked])
      rw [if_neg Bool.false_ne_true, List.length_cons] at one
      split at one
      · have := more ‹q›
        omega
      · omega

namespace Registry
variable {r : Registry} {name className last : String} {names before after : List String} {made : List (String × String)}

instance (name last : String) : Decidable (r.LeadsTo name last) := decidable_of_iff _ chainEndIff

def isShown (r : Registry) (name : String) : Bool := (r.get? name).any (!·.record.ignored)

/-- The overrides that lead to a class, in the order of the registry. -/
def leading (r : Registry) (className : String) : List String := r.overrideNames.filter (r.LeadsTo · className)

/-- What the overrides `names` say, one after another. `made` are the classes said to be created, each with the override that
says so. -/
inductive Announced (r : Registry) : List String → List (String × String) → List Diagnostic → Prop where
  | nil : Announced r [] [] []
  | loops {name e names made ds} (nowhere : ¬∃ last, r.LeadsTo name last) (known : r.get? name = some e)
      (rest : Announced r names made ds) : Announced r (name :: names) made
        (.warning .override ("Override " ++ name ++ " overrides itself") e.record.location? :: ds)
  | silent {name last names made ds} (ends : r.LeadsTo name last) (rest : Announced r names made ds) :
      Announced r (name :: names) made ds
  | creates {name last e names made ds} (ends : r.LeadsTo name last) (known : r.get? name = some e)
      (rest : Announced r names made ds) : Announced r (name :: names) ((last, name) :: made)
        (.warning .override ("Class " ++ last ++ " overridden by " ++ name ++ " not found, creating it") e.record.location? :: ds)

def creators (made : List (String × String)) (className : String) : List String :=
  (made.filter (·.1 = className)).map Prod.snd

theorem creatorsCons : creators ((last, name) :: made) className =
    if last = className then name :: creators made className else creators made className := by
  by_cases same : last = className <;> simp [creators, same]

/- Those of `names` that find no such class among the `present` ones, nor one that another of them has made. -/
def due (r : Registry) (present names : List String) (className : String) : List String :=
  if className ∈ present then [] else untilFirst r.isShown (names.filter (r.LeadsTo · className))

theorem dueNone (unled : ∀ name ∈ names, ¬r.LeadsTo name className) : r.due before names className = [] := by
  have nothing : names.filter (r.LeadsTo · className) = [] :=
    List.filter_eq_nil_iff.mpr fun name hn leads => unled name hn (of_decide_eq_true leads)
  rw [due, nothing, untilFirst, ite_self]

/- `before` and `after` the override `name` is folded. -/
theorem dueNext (isOverride : (r.overrideTarget? name).isSome)
    (kept : ∀ k, k ≠ name → (k ∈ after ↔ k ∈ before ∨ (r.LeadsTo name k ∧ r.isShown name = true))) :
    r.due before (name :: names) className =
      if r.LeadsTo name className ∧ className ∉ before then name :: r.due after names className else r.due after names className := by
  by_cases mine : className = name
  · subst mine
    have unled (other : String) : ¬r.LeadsTo other className := fun leads => by
      rw [leadsToNothing leads] at isOverride
      contradiction
    rw [dueNone fun other _ => unled other, dueNone fun other _ => unled other, if_neg fun both => unled className both.1]
  · rw [due, due, List.filter_cons]
    by_cases leads : r.LeadsTo name className
    · rw [if_pos (decide_eq_true leads), untilFirst]
      cases shown : r.isShown name <;> by_cases there : className ∈ before <;> simp [kept className mine, leads, shown, there]
    · simp [kept className mine, leads]

end Registry

namespace Draft
open Registry

section Run
variable {r : Registry} {d : Draft} {names : List String}

theorem presentNext {name : String} {e : ClassEntry} (isOverride : (r.overrideTarget? name).isSome) (known : r.get? name = some e)
    (found : d.registry.get? name = some e) {k : String} (apart : k ≠ name) :
    k ∈ (d.foldOverride (name, r.overrideEnd? name)).value.registry.keys ↔
      k ∈ d.registry.keys ∨ (r.LeadsTo name k ∧ r.isShown name = true) := by
  have makes : r.LeadsTo name k ∧ r.isShown name = true ↔ r.overrideEnd? name = some k ∧ e.record.ignored = false := by
    rw [overrideEndIff, and_iff_right isOverride]
    simp [isShown, known]
  rw [makes, OrderedMap.memKeys, OrderedMap.memKeys, getFoldOverride found (noOverrideEnd isOverride), if_neg apart]
  split
  · rename_i makes
    simp [makes]
  · rename_i leaves
    rw [or_iff_left leaves]

/- An override is heard of while its class is not there, and the first one that is shown makes it. -/
theorem announcedAmong (pending : Pending r d names) :
    ∃ made, r.Announced names made ((names.map fun name => (name, r.overrideEnd? name)).foldlM foldOverride d).findings ∧
      ∀ className, creators made className = r.due d.registry.keys names className := by
  induction names generalizing d with
  | nil => exact ⟨[], .nil, fun _ => (ite_self _).symm⟩
  | cons name rest ih =>
    obtain ⟨here, -, e, known, found, next⟩ := pendingNext pending
    obtain ⟨made, announced, told⟩ := ih next
    have due (className : String) := @dueNext r name className rest _ _ here fun _ apart => presentNext here known found apart
    rw [List.map_cons, List.foldlM_cons, Reported.findingsBind, findingsFoldOverride found]
    cases leads : r.overrideEnd? name with
    | none =>
      -- overrides that override each other in a circle make no class
      have nowhere : ¬∃ last, r.LeadsTo name last := fun ⟨last, ends⟩ => by
        rw [overrideEndIff.mpr ⟨here, ends⟩] at leads
        contradiction
      rw [leads] at announced
      refine ⟨made, .loops nowhere known announced, fun className => ?_⟩
      rw [told, due, if_neg fun both => nowhere ⟨className, both.1⟩]
    | some last =>
      have ends := (overrideEndIff.mp leads).2
      have apart : last ≠ name := fun same => noOverrideEnd here (same ▸ leads)
      -- the override itself is gone when its class is looked for
      have contains : (d.registry.erase name).contains last = true ↔ last ∈ d.registry.keys := by
        rw [OrderedMap.containsIff, OrderedMap.keysErase]
        simp [apart]
      rw [leads] at announced
      by_cases there : last ∈ d.registry.keys
      · refine ⟨made, ?_, fun className => ?_⟩
        · simp only [if_pos (contains.mpr there)]
          exact .silent ends announced
        · rw [told, due, if_neg]
          rintro ⟨ends', absent⟩
          exact absent (leadsToUnique ends ends' ▸ there)
      · refine ⟨(last, name) :: made, ?_, fun className => ?_⟩
        · simp only [if_neg (mt contains.mp there)]
          exact .creates ends known announced
        · have same : r.LeadsTo name className ∧ className ∉ d.registry.keys ↔ last = className := by
            constructor
            · exact fun both => (leadsToUnique ends both.1).symm
            · rintro rfl
              exact ⟨ends, there⟩
          rw [creatorsCons, told, due, if_congr same rfl rfl]

end Run

/-- The class was not there, and folding has made it. -/
def Makes (d : Draft) (className : String) : Prop :=
  className ∉ d.registry.keys ∧ className ∈ d.foldOverrides.value.registry.keys

instance (d : Draft) (className : String) : Decidable (d.Makes className) := inferInstanceAs (Decidable (_ ∧ _))

section Creation
variable {d : Draft} (named : d.registry.Named)
include named

theorem makesIff {className : String} : d.Makes className ↔
    className ∉ d.registry.keys ∧ ∃ name ∈ d.registry.leading className, d.registry.isShown name = true := by
  refine and_congr_right fun absent => ?_
  have unknown := OrderedMap.getNone.mpr absent
  have last : d.registry.overrideTarget? className = none := by rw [overrideTarget?, unknown, Option.bind_none]
  rw [OrderedMap.memKeys, ← Option.isSome_iff_exists, (foldedOverrides named).kept className last, unknown]
  have sources (source : ClassEntry) := @memSourcesOf d.registry className source
  simp only [Option.isSome_none, Bool.false_eq_true, false_or, leading, List.mem_filter, memOverrideNames, decide_eq_true_eq,
    isShown, Option.any_eq_true, Bool.not_eq_true']
  constructor
  · intro taken
    obtain ⟨source, hs⟩ := List.exists_mem_of_ne_nil _ taken
    obtain ⟨name, known, shown, isOverride, leads⟩ := (sources source).mp hs
    exact ⟨name, ⟨isOverride, leads⟩, source, known, shown⟩
  · rintro ⟨name, ⟨isOverride, leads⟩, source, known, shown⟩
    exact List.ne_nil_of_mem ((sources source).mpr ⟨name, known, shown, isOverride, leads⟩)

/-- Of the overrides that lead to a class that is not there, each says that it creates the class, until one has said so that is
not ignored. This one makes it. So each class that is made is announced once, and no other, exactly where the first of these
overrides is not ignored. -/
theorem creationsTold : ∃ made, d.registry.Announced d.registry.overrideNames made d.foldOverrides.findings ∧ ∀ className,
    (creators made className = if className ∈ d.registry.keys then [] else
      untilFirst d.registry.isShown (d.registry.leading className)) ∧
    (d.Makes className ↔ className ∉ d.registry.keys ∧ ∃ name ∈ d.registry.leading className, d.registry.isShown name = true) ∧
    ((creators made className).length = (if d.Makes className then 1 else 0) ↔ className ∈ d.registry.keys ∨
      ∀ name, (d.registry.leading className).head? = some name → d.registry.isShown name = true) := by
  obtain ⟨made, announced, told⟩ := announcedAmong (pendingStart d)
  rw [← overridesByName named] at announced
  refine ⟨made, announced, fun className => ⟨told className, makesIff named, ?_⟩⟩
  rw [told, due]
  by_cases there : className ∈ d.registry.keys
  · simp [there, Makes]
  · rw [if_neg there, or_iff_right there]
    refine untilFirstOne ?_
    rw [makesIff named, and_iff_right there]
    rfl

end Creation

def ignoredOverride (name target : String) : ClassEntry :=
  { overrideEntry name target [] with record := { (overrideEntry name target []).record with ignored := true } }

/- `Button` is nowhere declared. `Late` overrides it through `Fix`, and `Touch` is ignored. -/
def fixedDraft : Draft where
  registry := Registry.insertEntry (Registry.insertEntry (Registry.insertEntry .empty (overrideEntry "Fix" "Button" []))
    (overrideEntry "Late" "Fix" [])) (ignoredOverride "Touch" "Button")
  externals := .empty

theorem buttonCreated : fixedDraft.registry.Named ∧
    ∃ made, fixedDraft.registry.Announced ["Fix", "Late", "Touch"] made fixedDraft.foldOverrides.findings ∧
      fixedDraft.Makes "Button" ∧ creators made "Button" = ["Fix"] := by
  have named : fixedDraft.registry.Named :=
    OrderedMap.allInsert (OrderedMap.allInsert (OrderedMap.allInsert OrderedMap.allEmpty rfl) rfl) rfl
  obtain ⟨made, announced, told⟩ := creationsTold named
  obtain ⟨creators, makes, -⟩ := told "Button"
  have leading : fixedDraft.registry.leading "Button" = ["Fix", "Late", "Touch"] := by cbv
  rw [leading] at creators makes
  exact ⟨named, made, announced, makes.mpr ⟨by decide, "Fix", List.mem_cons_self, rfl⟩, creators⟩

/- Two ignored overrides, and one behind them that is not ignored. -/
def patchesDraft : Draft where
  registry := Registry.insertEntry (Registry.insertEntry (Registry.insertEntry .empty (ignoredOverride "Patch" "Panel"))
    (ignoredOverride "Touch" "Button")) (overrideEntry "Fix" "Button" [])
  externals := .empty

theorem panelNotCreated : patchesDraft.registry.Named ∧ patchesDraft.foldOverrides.findings.map Diagnostic.message =
      ["Class Panel overridden by Patch not found, creating it", "Class Button overridden by Touch not found, creating it",
        "Class Button overridden by Fix not found, creating it"] ∧
    patchesDraft.foldOverrides.value.registry.keys = ["Button"] ∧ "Button" ∉ patchesDraft.registry.keys := by
  have named : patchesDraft.registry.Named :=
    OrderedMap.allInsert (OrderedMap.allInsert (OrderedMap.allInsert OrderedMap.allEmpty rfl) rfl) rfl
  exact ⟨named, by cbv, by cbv, by decide⟩

end Draft
end ClassDocs
