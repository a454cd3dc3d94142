import Mathlib.Data.List.Permutation
import ClassDocs.Graph.Cycles
import ClassDocs.Proofs.Graph.Documented

/-! The searches for a member, step by step and without a bound. A search remembers which names it has entered, a search
for documentation also from which classes it has started. Every run of either ends, on cycles and on names that are
documented elsewhere too, and it ends as the definitions say that keep a list of the names left. -/
namespace ClassDocs

/-- A run that has ended: the names that it has entered, in that order, and what it has found. -/
structure Trail where
  names : List String
  found : Option Found

namespace ClassGraph

/-- The search goes through some names one by one. A name that is new to it is entered; unless its class has a fitting
member, the search goes through the bases of the class before it goes on. -/
inductive Searches (g : ClassGraph) (fits : Declaration → Bool) : List String → List String → Trail → Prop where
  | done {visited} : Searches g fits visited [] ⟨[], none⟩
  | again {visited name waiting trail} (known : name ∈ visited) (rest : Searches g fits visited waiting trail) :
      Searches g fits visited (name :: waiting) trail
  | elsewhere {visited name waiting trail} (fresh : name ∉ visited) (undocumented : g.get? name = none)
      (rest : Searches g fits (name :: visited) waiting trail) :
      Searches g fits visited (name :: waiting) ⟨name :: trail.names, trail.found⟩
  | here {visited name waiting c m} (fresh : name ∉ visited) (documented : g.get? name = some c)
      (first : c.members.find? fits = some m) : Searches g fits visited (name :: waiting) ⟨[name], some ⟨c.name, m⟩⟩
  | above {visited name waiting c names found} (fresh : name ∉ visited) (documented : g.get? name = some c)
      (without : c.members.find? fits = none) (bases : Searches g fits (name :: visited) c.bases ⟨names, some found⟩) :
      Searches g fits visited (name :: waiting) ⟨name :: names, some found⟩
  | further {visited name waiting c names trail} (fresh : name ∉ visited) (documented : g.get? name = some c)
      (without : c.members.find? fits = none) (bases : Searches g fits (name :: visited) c.bases ⟨names, none⟩)
      (rest : Searches g fits (names ++ name :: visited) waiting trail) :
      Searches g fits visited (name :: waiting) ⟨name :: (names ++ trail.names), trail.found⟩

/-- The search for documentation above a class. It starts again from the class of a member that has none. -/
inductive Climbs (g : ClassGraph) (kind : Kind) (name : String) : List String → String → Trail → Prop where
  | again {searched className} (known : className ∈ searched) : Climbs g kind name searched className ⟨[], none⟩
  | elsewhere {searched className} (fresh : className ∉ searched) (undocumented : g.get? className = none) :
      Climbs g kind name searched className ⟨[className], none⟩
  | nowhere {searched className c names} (fresh : className ∉ searched) (documented : g.get? className = some c)
      (search : g.Searches (·.isFor kind name) [className] c.bases ⟨names, none⟩) :
      Climbs g kind name searched className ⟨[className], none⟩
  | here {searched className c names found} (fresh : className ∉ searched) (documented : g.get? className = some c)
      (search : g.Searches (·.isFor kind name) [className] c.bases ⟨names, some found⟩)
      (given : found.member.hasDoc = true) : Climbs g kind name searched className ⟨[className], some found⟩
  | further {searched className c names passed trail} (fresh : className ∉ searched)
      (documented : g.get? className = some c)
      (search : g.Searches (·.isFor kind name) [className] c.bases ⟨names, some passed⟩)
      (missing : passed.member.hasDoc = false) (rest : Climbs g kind name (className :: searched) passed.className trail) :
      Climbs g kind name searched className ⟨className :: trail.names, trail.found⟩

/-- The first member that a reference can mean. -/
inductive Refers (g : ClassGraph) (r : MemberRef) : Option Found → Prop where
  | byKind {names found} (search : g.Searches (·.isFor r.kind r.name) [] [r.className] ⟨names, some found⟩) :
      Refers g r (some found)
  | byName {names others found} (search : g.Searches (·.isFor r.kind r.name) [] [r.className] ⟨names, none⟩)
      (any : g.Searches (·.name == r.name) [] [r.className] ⟨others, found⟩) : Refers g r found

inductive Resolves (g : ClassGraph) (r : MemberRef) : Option Found → Prop where
  | nowhere (first : g.Refers r none) : Resolves g r none
  | here {found} (first : g.Refers r (some found)) (given : found.member.hasDoc = true) : Resolves g r (some found)
  | above {passed trail} (first : g.Refers r (some passed)) (missing : passed.member.hasDoc = false)
      (climb : g.Climbs passed.member.kind passed.member.name [] passed.className trail) : Resolves g r trail.found

def left (g : ClassGraph) (visited : List String) : List String := g.names.filter (· ∉ visited)

section Left
variable {g : ClassGraph} {visited : List String} {name : String}

theorem memLeft : name ∈ g.left visited ↔ name ∈ g.names ∧ name ∉ visited := by simp [left]

theorem memLeftFresh {c : ClassRecord} (documented : g.get? name = some c) (fresh : name ∉ visited) : name ∈ g.left visited :=
  memLeft.mpr ⟨OrderedMap.memKeysOfGet documented, fresh⟩

theorem notLeft (undocumented : g.get? name = none) : name ∉ g.left visited :=
  fun left => OrderedMap.getNone.mp undocumented (memLeft.mp left).1

theorem leftAll (g : ClassGraph) : g.left [] = g.names := by simp [left]

theorem leftSame {others : List String} (same : ∀ n, n ∈ visited ↔ n ∈ others) : g.left visited = g.left others :=
  List.filter_congr fun n _ => by simp only [same]

theorem leftAppend (names visited : List String) : g.left (names ++ visited) = (g.left visited).filter (· ∉ names) := by
  rw [left, left, List.filter_filter]
  refine List.filter_congr fun n _ => ?_
  simp only [List.mem_append, not_or, Bool.decide_and]

theorem leftEntered (g : ClassGraph) (name : String) (visited : List String) :
    (g.left visited).erase name = g.left (name :: visited) := by
  have distinct : (g.left visited).Nodup := g.classes.distinct.filter _
  rw [distinct.erase_eq_filter]
  refine Eq.trans ?_ (leftAppend [name] visited).symm
  exact List.filter_congr fun n _ => by simp [bne, beq_eq_decide]

theorem leftUndocumented (undocumented : g.get? name = none) : g.left (name :: visited) = g.left visited := by
  rw [← leftEntered]
  exact List.erase_of_not_mem (notLeft undocumented)

theorem leftShorter {c : ClassRecord} (documented : g.get? name = some c) (fresh : name ∉ visited) (names : List String) :
    (g.left (names ++ name :: visited)).length < (g.left visited).length := by
  have shorter := Names.eraseShorter (memLeftFresh documented fresh)
  rw [leftEntered] at shorter
  rw [leftAppend]
  exact Nat.lt_of_le_of_lt (List.length_filter_le ..) shorter

end Left

def New (visited names : List String) : Prop := names.Nodup ∧ ∀ n ∈ names, n ∉ visited

theorem newNone (visited : List String) : New visited [] := ⟨.nil, by simp⟩

theorem newFirst {visited names : List String} {name : String} (fresh : name ∉ visited) (later : New (name :: visited) names) :
    New visited (name :: names) := by
  obtain ⟨distinct, unmet⟩ := later
  refine ⟨List.nodup_cons.mpr ⟨fun again => unmet name again List.mem_cons_self, distinct⟩, fun n hn => ?_⟩
  rcases List.mem_cons.mp hn with rfl | hn
  · exact fresh
  · exact fun met => unmet n hn (List.mem_cons_of_mem _ met)

theorem newAppend {visited names others : List String} (first : New visited names) (later : New (names ++ visited) others) :
    New visited (names ++ others) := by
  obtain ⟨distinct, unmet⟩ := first
  obtain ⟨distinct', unmet'⟩ := later
  refine ⟨List.nodup_append.mpr ⟨distinct, distinct', ?_⟩, fun n hn => ?_⟩
  · rintro n hn other ho rfl
    exact unmet' n ho (List.mem_append_left _ hn)
  · rcases List.mem_append.mp hn with hn | hn
    · exact unmet n hn
    · exact fun met => unmet' n hn (List.mem_append_right _ met)

section Search
variable {g : ClassGraph} {fits : Declaration → Bool} {visited waiting : List String} {name : String} {trail : Trail}

theorem searchesNew (h : g.Searches fits visited waiting trail) : New visited trail.names := by
  induction h with
  | done => exact newNone _
  | again known rest ih => exact ih
  | elsewhere fresh undocumented rest ih => exact newFirst fresh ih
  | here fresh => exact newFirst fresh (newNone _)
  | above fresh documented without bases ih => exact newFirst fresh ih
  | further fresh documented without bases rest inner outer => exact newFirst fresh (newAppend inner outer)

theorem searchesKnown (known : name ∈ visited) (h : g.Searches fits visited (name :: waiting) trail) :
    g.Searches fits visited waiting trail := by
  cases h with
  | again _ rest => exact rest
  | elsewhere fresh => exact absurd known fresh
  | here fresh => exact absurd known fresh
  | above fresh => exact absurd known fresh
  | further fresh => exact absurd known fresh

theorem searchesElsewhere (fresh : name ∉ visited) (undocumented : g.get? name = none)
    (h : g.Searches fits visited (name :: waiting) trail) :
    ∃ rest, g.Searches fits (name :: visited) waiting rest ∧ trail = ⟨name :: rest.names, rest.found⟩ := by
  cases h with
  | again known => exact absurd known fresh
  | elsewhere _ _ rest => exact ⟨_, rest, rfl⟩
  | here _ documented => cases undocumented.symm.trans documented
  | above _ documented => cases undocumented.symm.trans documented
  | further _ documented => cases undocumented.symm.trans documented

theorem searchesDocumented {c : ClassRecord} (fresh : name ∉ visited) (documented : g.get? name = some c)
    (h : g.Searches fits visited (name :: waiting) trail) :
    (∃ m, c.members.find? fits = some m ∧ trail = ⟨[name], some ⟨c.name, m⟩⟩) ∨
      c.members.find? fits = none ∧ ∃ names found, g.Searches fits (name :: visited) c.bases ⟨names, found⟩ ∧
        ((∃ m, found = some m ∧ trail = ⟨name :: names, some m⟩) ∨
          found = none ∧ ∃ rest, g.Searches fits (names ++ name :: visited) waiting rest ∧
            trail = ⟨name :: (names ++ rest.names), rest.found⟩) := by
  cases h with
  | again known => exact absurd known fresh
  | elsewhere _ undocumented => cases undocumented.symm.trans documented
  | here _ documented' first =>
    cases documented.symm.trans documented'
    exact .inl ⟨_, first, rfl⟩
  | above _ documented' without bases =>
    cases documented.symm.trans documented'
    exact .inr ⟨without, _, _, bases, .inl ⟨_, rfl, rfl⟩⟩
  | further _ documented' without bases rest =>
    cases documented.symm.trans documented'
    exact .inr ⟨without, _, _, bases, .inr ⟨rfl, _, rest, rfl⟩⟩

theorem searchesUnique {other : Trail} (h : g.Searches fits visited waiting trail)
    (h' : g.Searches fits visited waiting other) : other = trail := by
  induction h generalizing other with
  | done =>
    cases h'
    rfl
  | again known rest ih => exact ih (searchesKnown known h')
  | elsewhere fresh undocumented rest ih =>
    obtain ⟨rest', run, rfl⟩ := searchesElsewhere fresh undocumented h'
    rw [ih run]
  | here fresh documented first =>
    obtain ⟨m, first', rfl⟩ | ⟨without, -⟩ := searchesDocumented fresh documented h'
    · cases first.symm.trans first'
      rfl
    · cases first.symm.trans without
  | above fresh documented without bases ih =>
    obtain ⟨m, first, -⟩ | ⟨-, names, found, bases', results⟩ := searchesDocumented fresh documented h'
    · cases first.symm.trans without
    · cases ih bases'
      obtain ⟨m, same, rfl⟩ | ⟨nothing, -⟩ := results
      · cases same
        rfl
      · contradiction
  | further fresh documented without bases rest inner outer =>
    obtain ⟨m, first, -⟩ | ⟨-, names, found, bases', results⟩ := searchesDocumented fresh documented h'
    · cases first.symm.trans without
    · cases inner bases'
      obtain ⟨m, same, -⟩ | ⟨-, rest', run, rfl⟩ := results
      · contradiction
      · rw [outer run]

/- Entering a documented class leaves fewer of them, and any other step leaves fewer names to go through. -/
theorem searchEnds (g : ClassGraph) (fits : Declaration → Bool) (visited waiting : List String) :
    ∃ trail, g.Searches fits visited waiting trail := by
  cases waiting with
  | nil => exact ⟨_, .done⟩
  | cons name waiting =>
    by_cases known : name ∈ visited
    · obtain ⟨trail, rest⟩ := searchEnds g fits visited waiting
      exact ⟨trail, .again known rest⟩
    · cases documented : g.get? name with
      | none =>
        obtain ⟨trail, rest⟩ := searchEnds g fits (name :: visited) waiting
        exact ⟨_, .elsewhere known documented rest⟩
      | some c =>
        cases first : c.members.find? fits with
        | some m => exact ⟨_, .here known documented first⟩
        | none =>
          obtain ⟨⟨names, found⟩, bases⟩ := searchEnds g fits (name :: visited) c.bases
          cases found with
          | some found => exact ⟨_, .above known documented first bases⟩
          | none =>
            obtain ⟨trail, rest⟩ := searchEnds g fits (names ++ name :: visited) waiting
            exact ⟨_, .further known documented first bases rest⟩
termination_by ((g.left visited).length, waiting.length)
decreasing_by
  · exact Prod.Lex.right _ (by simp)
  · rw [leftUndocumented documented]
    exact Prod.Lex.right _ (by simp)
  · exact Prod.Lex.left _ _ (leftShorter documented known [])
  · exact Prod.Lex.left _ _ (leftShorter documented known names)

/- A search in vain has been everywhere: what it has entered leads to nothing else. -/
theorem searchesAll (h : g.Searches fits visited waiting trail) (nothing : trail.found = none) :
    (∀ n ∈ waiting, n ∈ trail.names ∨ n ∈ visited) ∧ ∀ n ∈ trail.names, ∀ c, g.get? n = some c →
      c.members.find? fits = none ∧ ∀ base ∈ c.bases, base ∈ trail.names ∨ base ∈ visited := by
  induction h with
  | done => simp
  | again known rest ih =>
    obtain ⟨met, closed⟩ := ih nothing
    refine ⟨fun n hn => ?_, closed⟩
    rcases List.mem_cons.mp hn with rfl | hn
    · exact Or.inr known
    · exact met n hn
  | @elsewhere visited name waiting trail fresh undocumented rest ih =>
    obtain ⟨met, closed⟩ := ih nothing
    have shifted : ∀ n, n ∈ trail.names ∨ n ∈ name :: visited → n ∈ name :: trail.names ∨ n ∈ visited := by
      simp only [List.mem_cons]
      tauto
    refine ⟨fun n hn => ?_, fun n hn c documented => ?_⟩
    · rcases List.mem_cons.mp hn with rfl | hn
      · exact Or.inl List.mem_cons_self
      · exact shifted n (met n hn)
    · rcases List.mem_cons.mp hn with rfl | hn
      · cases undocumented.symm.trans documented
      · obtain ⟨without, bases⟩ := closed n hn c documented
        exact ⟨without, fun base hb => shifted base (bases base hb)⟩
  | here => contradiction
  | above => contradiction
  | @further visited name waiting c names trail fresh documented without bases rest inner outer =>
    obtain ⟨met, closed⟩ := inner rfl
    obtain ⟨met', closed'⟩ := outer nothing
    -- what either half meets is entered by it, by the half before or with the class itself
    have first : ∀ n, n ∈ names ∨ n ∈ name :: visited → n ∈ name :: (names ++ trail.names) ∨ n ∈ visited := by
      simp only [List.mem_cons, List.mem_append]
      tauto
    have second : ∀ n, n ∈ trail.names ∨ n ∈ names ++ name :: visited →
        n ∈ name :: (names ++ trail.names) ∨ n ∈ visited := by
      simp only [List.mem_cons, List.mem_append]
      tauto
    refine ⟨fun n hn => ?_, fun n hn d known => ?_⟩
    · rcases List.mem_cons.mp hn with rfl | hn
      · exact Or.inl List.mem_cons_self
      · exact second n (met' n hn)
    · rcases List.mem_cons.mp hn with rfl | hn
      · cases documented.symm.trans known
        exact ⟨without, fun base hb => first base (met base hb)⟩
      · rcases List.mem_append.mp hn with hn | hn
        · obtain ⟨without, bases⟩ := closed n hn d known
          exact ⟨without, fun base hb => first base (bases base hb)⟩
        · obtain ⟨without, bases⟩ := closed' n hn d known
          exact ⟨without, fun base hb => second base (bases base hb)⟩

/- The search with a list of what is waiting does the bases of a class and what comes after them as one. -/
theorem searchesFind (h : g.Searches fits visited waiting trail) (later : List String) :
    g.findInHierarchy fits (g.left visited) (waiting ++ later) =
      trail.found.or (g.findInHierarchy fits (g.left (trail.names ++ visited)) later) := by
  induction h generalizing later with
  | done => rfl
  | again known rest ih =>
    rw [List.cons_append, findInHierarchy, if_neg fun left => (memLeft.mp left).2 known]
    exact ih later
  | @elsewhere visited name waiting trail fresh undocumented rest ih =>
    have entered : g.left (name :: trail.names ++ visited) = g.left (trail.names ++ name :: visited) :=
      leftSame fun n => by simp only [List.cons_append, List.mem_cons, List.mem_append]; tauto
    rw [List.cons_append, findInHierarchy, if_neg (notLeft undocumented), entered,
      ← ih later, leftUndocumented undocumented]
  | here fresh documented first =>
    rw [List.cons_append, findInHierarchy, if_pos (memLeftFresh documented fresh), documented]
    simp only [first, Option.some_or]
  | above fresh documented without bases ih =>
    rw [List.cons_append, findInHierarchy, if_pos (memLeftFresh documented fresh), documented]
    simp only [without, leftEntered, ih, Option.some_or]
  | @further visited name waiting c names trail fresh documented without bases rest inner outer =>
    have entered : g.left (name :: (names ++ trail.names) ++ visited) = g.left (trail.names ++ (names ++ name :: visited)) :=
      leftSame fun n => by simp only [List.cons_append, List.mem_cons, List.mem_append]; tauto
    rw [List.cons_append, findInHierarchy, if_pos (memLeftFresh documented fresh), documented]
    simp only [without, leftEntered, inner, Option.none_or, outer, entered]

theorem searchFound (h : g.Searches fits visited waiting trail) :
    g.findInHierarchy fits (g.left visited) waiting = trail.found := by
  have found := searchesFind h []
  rwa [List.append_nil, findInHierarchy, Option.or_none] at found

theorem searchesIff (g : ClassGraph) (fits : Declaration → Bool) (visited waiting : List String) :
    ∃ names, New visited names ∧ ∀ trail, g.Searches fits visited waiting trail ↔
      trail = ⟨names, g.findInHierarchy fits (g.left visited) waiting⟩ := by
  obtain ⟨⟨names, found⟩, run⟩ := searchEnds g fits visited waiting
  refine ⟨names, searchesNew run, fun other => ⟨fun run' => ?_, fun same => ?_⟩⟩
  · rw [searchFound run]
    exact searchesUnique run run'
  · rwa [same, searchFound run]

end Search

section Climb
variable {g : ClassGraph} {kind : Kind} {name : String} {searched : List String} {className : String} {trail : Trail}

theorem overriddenSearch {c : ClassRecord} {names : List String} {found : Option Found} (documented : g.get? className = some c)
    (search : g.Searches (·.isFor kind name) [className] c.bases ⟨names, found⟩) :
    g.overridden? className kind name = found := by
  have above := searchFound search
  rw [← leftEntered, leftAll] at above
  rw [overridden?, documented, Option.bind_some]
  exact above

theorem climbsNew (h : g.Climbs kind name searched className trail) : New searched trail.names := by
  induction h with
  | again => exact newNone _
  | elsewhere fresh => exact newFirst fresh (newNone _)
  | nowhere fresh => exact newFirst fresh (newNone _)
  | here fresh => exact newFirst fresh (newNone _)
  | further fresh documented search missing rest ih => exact newFirst fresh ih

theorem climbsKnown (known : className ∈ searched) (h : g.Climbs kind name searched className trail) : trail = ⟨[], none⟩ := by
  cases h with
  | again => rfl
  | elsewhere fresh => exact absurd known fresh
  | nowhere fresh => exact absurd known fresh
  | here fresh => exact absurd known fresh
  | further fresh => exact absurd known fresh

/- What the search above a class finds is all that decides how a climb goes on from it. -/
theorem climbsFresh (fresh : className ∉ searched) (h : g.Climbs kind name searched className trail) :
    match g.overridden? className kind name with
    | none => trail = ⟨[className], none⟩
    | some found =>
      if found.member.hasDoc then trail = ⟨[className], some found⟩
      else ∃ rest, g.Climbs kind name (className :: searched) found.className rest ∧
        trail = ⟨className :: rest.names, rest.found⟩ := by
  cases h with
  | again known => exact absurd known fresh
  | elsewhere _ undocumented => simp [overridden?, undocumented]
  | nowhere _ documented search => simp [overriddenSearch documented search]
  | here _ documented search given => simp [overriddenSearch documented search, given]
  | further _ documented search missing rest =>
    simp only [overriddenSearch documented search, missing, Bool.false_eq_true, if_false]
    exact ⟨_, rest, rfl⟩

theorem climbsUnique {other : Trail} (h : g.Climbs kind name searched className trail)
    (h' : g.Climbs kind name searched className other) : other = trail := by
  induction h generalizing other with
  | again known => exact climbsKnown known h'
  | elsewhere fresh undocumented => simpa [overridden?, undocumented] using climbsFresh fresh h'
  | nowhere fresh documented search => simpa [overriddenSearch documented search] using climbsFresh fresh h'
  | here fresh documented search given => simpa [overriddenSearch documented search, given] using climbsFresh fresh h'
  | further fresh documented search missing rest ih =>
    have climbs := climbsFresh fresh h'
    simp only [overriddenSearch documented search, missing, Bool.false_eq_true, if_false] at climbs
    obtain ⟨rest', run, rfl⟩ := climbs
    rw [ih run]

theorem climbEnds (g : ClassGraph) (kind : Kind) (name : String) (searched : List String) (className : String) :
    ∃ trail, g.Climbs kind name searched className trail := by
  by_cases known : className ∈ searched
  · exact ⟨_, .again known⟩
  · cases documented : g.get? className with
    | none => exact ⟨_, .elsewhere known documented⟩
    | some c =>
      obtain ⟨⟨names, found⟩, search⟩ := searchEnds g (·.isFor kind name) [className] c.bases
      cases found with
      | none => exact ⟨_, .nowhere known documented search⟩
      | some found =>
        cases given : found.member.hasDoc with
        | true => exact ⟨_, .here known documented search given⟩
        | false =>
          obtain ⟨trail, rest⟩ := climbEnds g kind name (className :: searched) found.className
          exact ⟨_, .further known documented search given rest⟩
termination_by (g.left searched).length
decreasing_by exact leftShorter documented known []

theorem climbFound (h : g.Climbs kind name searched className trail) :
    g.findDocumentedFrom kind name (g.left searched) className = trail.found := by
  induction h with
  | again known =>
    rw [findDocumentedStep, if_neg fun left => (memLeft.mp left).2 known]
  | elsewhere fresh undocumented =>
    rw [findDocumentedStep, if_neg (notLeft undocumented)]
  | nowhere fresh documented search =>
    rw [findDocumentedStep, overriddenSearch documented search]
    exact ite_self _
  | here fresh documented search given =>
    rw [findDocumentedStep, if_pos (memLeftFresh documented fresh), overriddenSearch documented search]
    exact if_pos given
  | further fresh documented search missing rest ih =>
    rw [findDocumentedStep, if_pos (memLeftFresh documented fresh), overriddenSearch documented search,
      leftEntered]
    exact (if_neg (Bool.eq_false_iff.mp missing)).trans ih

theorem climbStart (h : g.Climbs kind name searched className trail) :
    ∀ n ∈ trail.names, n = className ∨ n ∈ trail.names.tail := by
  cases h with
  | again => simp
  | elsewhere => simp
  | nowhere => simp
  | here => simp
  | further => exact fun n hn => List.mem_cons.mp hn

theorem climbRestarts (h : g.Climbs kind name searched className trail) :
    ∀ n ∈ trail.names.tail, ∃ c ∈ g.records, c.name = n := by
  induction h with
  | again => simp
  | elsewhere => simp
  | nowhere => simp
  | here => simp
  | further fresh documented search missing rest ih =>
    intro n hn
    rcases climbStart rest n hn with rfl | later
    · obtain ⟨c, hc, named, -⟩ := overriddenFound (overriddenSearch documented search)
      exact ⟨c, hc, named⟩
    · exact ih n later

theorem climbsIff (g : ClassGraph) (kind : Kind) (name className : String) :
    ∃ names, names.Nodup ∧ (∀ n ∈ names.tail, ∃ c ∈ g.records, c.name = n) ∧ names.tail.length ≤ g.records.length ∧
      ∀ trail, g.Climbs kind name [] className trail ↔ trail = ⟨names, g.findDocumented className kind name⟩ := by
  obtain ⟨⟨names, found⟩, run⟩ := climbEnds g kind name [] className
  have distinct : names.Nodup := (climbsNew run).1
  have restarts : names.tail ⊆ g.records.map ClassRecord.name := fun n hn => List.mem_map.mpr (climbRestarts run n hn)
  have bound := (List.subperm_of_subset distinct.tail restarts).length_le
  have result : g.findDocumented className kind name = found := by
    rw [findDocumented, ← leftAll]
    exact climbFound run
  rw [List.length_map] at bound
  refine ⟨names, distinct, climbRestarts run, bound, fun other => ⟨fun run' => ?_, fun same => ?_⟩⟩
  · rw [result]
    exact climbsUnique run run'
  · rwa [same, result]

end Climb

section Resolve
variable {g : ClassGraph} {r : MemberRef} {found : Option Found}

theorem searchesFirst {fits : Declaration → Bool} {waiting names : List String}
    (search : g.Searches fits [] waiting ⟨names, found⟩) : g.findInHierarchy fits g.names waiting = found := by
  rw [← leftAll]
  exact searchFound search

theorem refersFound (h : g.Refers r found) : (g.findInHierarchy (·.isFor r.kind r.name) g.names [r.className]).or
    (g.findInHierarchy (·.name == r.name) g.names [r.className]) = found := by
  cases h with
  | byKind search => rw [searchesFirst search, Option.some_or]
  | byName search any => rw [searchesFirst search, searchesFirst any, Option.none_or]

theorem referEnds (g : ClassGraph) (r : MemberRef) : ∃ found, g.Refers r found := by
  obtain ⟨⟨names, found⟩, search⟩ := searchEnds g (·.isFor r.kind r.name) [] [r.className]
  cases found with
  | some found => exact ⟨_, .byKind search⟩
  | none =>
    obtain ⟨⟨others, found⟩, any⟩ := searchEnds g (·.name == r.name) [] [r.className]
    exact ⟨_, .byName search any⟩

theorem resolvesFound (h : g.Resolves r found) : g.resolve r = found := by
  cases h with
  | nowhere first =>
    simp only [resolve, refersFound first, bind, Option.bind_none]
  | here first given =>
    simp only [resolve, refersFound first, bind, Option.bind_some, given, if_true]
  | above first missing climb =>
    simp only [resolve, refersFound first, bind, Option.bind_some, missing, Bool.false_eq_true, if_false]
    rw [findDocumented, ← leftAll]
    exact climbFound climb

theorem resolveEnds (g : ClassGraph) (r : MemberRef) : ∃ found, g.Resolves r found := by
  obtain ⟨found, first⟩ := referEnds g r
  cases found with
  | none => exact ⟨_, .nowhere first⟩
  | some found =>
    cases given : found.member.hasDoc with
    | true => exact ⟨_, .here first given⟩
    | false =>
      obtain ⟨trail, climb⟩ := climbEnds g found.member.kind found.member.name [] found.className
      exact ⟨_, .above first given climb⟩

theorem resolvesIff (g : ClassGraph) (r : MemberRef) (found : Option Found) : g.Resolves r found ↔ found = g.resolve r := by
  refine ⟨fun run => (resolvesFound run).symm, ?_⟩
  rintro rfl
  obtain ⟨found, run⟩ := resolveEnds g r
  rwa [resolvesFound run]

end Resolve

/-- Each search has one run, and that run ends: one call enters no name twice, and a search for documentation starts again
at most once from each class. -/
theorem searchesEnd (g : ClassGraph) :
    (∀ fits visited className, ∃ names, New visited names ∧ ∀ trail, g.Searches fits visited [className] trail ↔
      trail = ⟨names, g.findInHierarchy fits (g.left visited) [className]⟩) ∧
    (∀ kind name className, ∃ names, names.Nodup ∧ (∀ n ∈ names.tail, ∃ c ∈ g.records, c.name = n) ∧
      names.tail.length ≤ g.records.length ∧
      ∀ trail, g.Climbs kind name [] className trail ↔ trail = ⟨names, g.findDocumented className kind name⟩) ∧
    ∀ r found, g.Resolves r found ↔ found = g.resolve r :=
  ⟨fun fits visited className => searchesIff g fits visited [className], climbsIff g, resolvesIff g⟩

/- The panel and what it mixes in lead to each other; only the parents are free of cycles. -/
def loopGraph : ClassGraph := .ofClasses [
  { name := "Panel", info := { classInfo := { mixins := ["Floating", "Ext.Dock"] } } },
  { name := "Floating", info := { classInfo := { parent := some "Panel" } } }] []

theorem loopSearched : (loopGraph.checkCycles false).value = .ok () ∧ (loopGraph.checkCycles true).value ≠ .ok () ∧
    New [] ["Panel", "Floating", "Ext.Dock"] ∧ loopGraph.findInHierarchy (·.name == "show") loopGraph.names ["Panel"] = none := by
  have accepted : (loopGraph.checkCycles false).value = .ok () := by cbv
  have refused : loopGraph.firstCycle? true [] loopGraph.names = some ("Panel", ["Panel", "Floating", "Panel"]) := by cbv
  obtain ⟨names, unmet, runs⟩ := (searchesEnd loopGraph).1 (·.name == "show") [] "Panel"
  have fresh : "Floating" ∉ ["Panel"] := by decide
  have again : loopGraph.Searches (·.name == "show") ["Floating", "Panel"] ["Panel"] ⟨[], none⟩ := .again (by simp) .done
  have dock : loopGraph.Searches (·.name == "show") ["Floating", "Panel"] ["Ext.Dock"] ⟨["Ext.Dock"], none⟩ :=
    .elsewhere (by simp) rfl .done
  have bases : loopGraph.Searches (·.name == "show") ["Panel"] ["Floating", "Ext.Dock"] ⟨["Floating", "Ext.Dock"], none⟩ :=
    @Searches.further _ _ _ _ _ _ [] ⟨["Ext.Dock"], none⟩ fresh rfl rfl again dock
  have run : loopGraph.Searches (·.name == "show") [] ["Panel"] ⟨["Panel", "Floating", "Ext.Dock"], none⟩ :=
    @Searches.further _ _ _ _ _ _ ["Floating", "Ext.Dock"] ⟨[], none⟩ List.not_mem_nil rfl rfl bases .done
  obtain ⟨rfl, found⟩ := Trail.mk.inj ((runs _).mp run)
  rw [leftAll] at found
  exact ⟨accepted, by simp [checkCycles, refused], unmet, found.symm⟩

end ClassGraph
end ClassDocs
