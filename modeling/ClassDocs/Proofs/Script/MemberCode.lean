import Mathlib.Data.List.Pairwise
import Mathlib.Data.List.Nodup
import ClassDocs.Script.Code
import ClassDocs.Proofs.Script.Places

/-! Where properties begin at offsets of their own, the code at a member of a block is the member as the block has it. -/
namespace ClassDocs.Script
namespace Tree
variable {t u q q' : Tree} {ts : List Tree} {s n : Nat} {code : Code} {block : Code.Block}

/-- The tree is the other one or part of it. -/
inductive Inside (u : Tree) : Tree → Prop
  | here : Inside u u
  | part {t q : Tree} (part : q ∈ t.parts) (deeper : Inside u q) : Inside u t

theorem insideOfSubtree (t : Tree) (h : u ∈ t.subtrees fun _ => true) : Inside u t := by
  rw [subtreesNode, List.mem_cons, List.mem_flatMap] at h
  rcases h with rfl | ⟨q, part, h⟩
  · exact .here
  · exact .part part (insideOfSubtree q h)
termination_by sizeOf t
decreasing_by exact sizeOfPart part

theorem Inside.trans (inner : Inside u t) (outer : Inside t q) : Inside u q := by
  induction outer with
  | here => exact inner
  | part part _ ih => exact .part part ih

theorem Inside.gather {β : Type} (own : Tree → List β) (inside : Inside u t) : u.gather own ⊆ t.gather own := by
  induction inside with
  | here => exact fun _ h => h
  | @part t q part _ ih =>
    intro n here
    rw [gatherNode own t]
    exact List.mem_append_right _ (List.mem_flatMap.mpr ⟨q, part, ih here⟩)

/-- The offsets of properties in a tree. -/
def keyStarts (t : Tree) : List Nat := (t.gather keyPlace).map Prod.fst

def codeStarts (t : Tree) : List Nat := t.gather codePlace

theorem keyStartsNode (t : Tree) : t.keyStarts = t.keyPlace.map Prod.fst ++ t.parts.flatMap keyStarts := by
  rw [keyStarts, gatherNode, List.map_append, List.map_flatMap]
  rfl

theorem codeStartsNode (t : Tree) : t.codeStarts = t.codePlace ++ t.parts.flatMap codeStarts := gatherNode codePlace t

theorem Inside.keyStarts (inside : Inside u t) : u.keyStarts ⊆ t.keyStarts := List.map_subset _ (inside.gather _)

/-- Properties begin at offsets of their own, where no other code begins. -/
structure Apart (ts : List Tree) : Prop where
  distinct : (ts.flatMap keyStarts).Nodup
  apart : ∀ n ∈ ts.flatMap keyStarts, n ∉ ts.flatMap codeStarts

namespace Apart

theorem one (apart : Apart ts) (part : t ∈ ts) : Apart [t] where
  distinct := by simpa using (List.nodup_flatMap.mp apart.distinct).1 t part
  apart n key code := by
    have within (f : Tree → List Nat) (h : n ∈ [t].flatMap f) : n ∈ ts.flatMap f :=
      List.mem_flatMap.mpr ⟨t, part, by simpa using h⟩
    exact apart.apart n (within _ key) (within _ code)

theorem parts (apart : Apart [t]) : Apart t.parts where
  distinct := by
    have distinct := apart.distinct
    rw [List.flatMap_singleton, keyStartsNode] at distinct
    exact (List.nodup_append.mp distinct).2.1
  apart n key code := by
    refine apart.apart n ?_ ?_
    · rw [List.flatMap_singleton, keyStartsNode]
      exact List.mem_append_right _ key
    · rw [List.flatMap_singleton, codeStartsNode]
      exact List.mem_append_right _ code

theorem same (apart : Apart ts) (first : q ∈ ts) (second : q' ∈ ts) (here : s ∈ q.keyStarts) (there : s ∈ q'.keyStarts) : q = q' := by
  by_contra other
  have disjoint := (List.nodup_flatMap.mp apart.distinct).2
  have : Std.Symm (Function.onFun List.Disjoint keyStarts) := ⟨fun _ _ h _ here there => h there here⟩
  exact disjoint.forall first second other here there

theorem behind (apart : Apart (t :: ts)) : Apart ts where
  distinct := (List.nodup_append.mp apart.distinct).2.1
  apart n key code := apart.apart n (List.mem_append_right _ key) (List.mem_append_right _ code)

/- Nothing inside a property begins where the property does. -/
theorem ownStart (apart : Apart [t]) (own : s ∈ t.keyPlace.map Prod.fst) (part : q ∈ t.parts) : s ∉ q.keyStarts := by
  intro deeper
  have distinct := apart.distinct
  rw [List.flatMap_singleton, keyStartsNode, List.nodup_append] at distinct
  exact distinct.2.2 s own s (List.mem_flatMap.mpr ⟨q, part, deeper⟩) rfl

theorem narrow (apart : Apart [t]) (inside : Inside u t) (here : s ∈ u.keyStarts) (part : q ∈ t.parts) (there : s ∈ q.keyStarts) :
    u = t ∨ Inside u q := by
  cases inside with
  | here => exact .inl rfl
  | @part _ q' part' deeper => exact .inr (apart.parts.same part' part (deeper.keyStarts here) there ▸ deeper)

end Apart

/-- The call defines a class, and the property is a member of a block in its body. -/
inductive BlockMember : Tree → Code.Block → Tree → Prop
  | member {start place : Nat} {callee className blockKey p : Tree} {members inside more : List Tree} {computed : Bool} {block : Code.Block}
      (defines : callee.path? = some "Ext.define") (named : className.string?.isSome)
      (entry : .property place blockKey computed (.object inside) ∈ members)
      (key : (keyName? computed blockKey).bind Code.Block.ofKey? = some block) (member : p ∈ inside) :
      BlockMember (.call start callee (className :: .object members :: more)) block p

theorem namedMember {name : String} {value : Tree} (h : (name, s, value) ∈ t.namedMembers) :
    ∃ members key computed, t = .object members ∧ .property s key computed value ∈ members ∧ keyName? computed key = some name := by
  unfold namedMembers at h
  split at h
  · rename_i members
    obtain ⟨member, mem, found⟩ := List.mem_filterMap.mp h
    split at found
    · rename_i start key computed value'
      simp only [Option.map_eq_some_iff, Prod.mk.injEq] at found
      obtain ⟨name', known, rfl, rfl, rfl⟩ := found
      exact ⟨members, key, computed, rfl, mem, known⟩
    · contradiction
  · contradiction

theorem memNamed {members : List Tree} {key value : Tree} {computed : Bool} {name : String} (mem : .property s key computed value ∈ members)
    (known : keyName? computed key = some name) : (name, s, value) ∈ (Tree.object members).namedMembers :=
  List.mem_filterMap.mpr ⟨_, mem, by simp [known]⟩

theorem defineCodeMember {start : Nat} {callee : Tree} {args : List Tree} (h : (n, code) ∈ defineCode start callee args) :
    n = start ∨ ∃ block key computed value name, BlockMember (.call start callee args) block (.property n key computed value) ∧
      keyName? computed key = some name ∧ code = (valueCode name none (some value)).within block := by
  unfold defineCode at h
  split at h
  · rename_i defines
    split at h
    · rename_i className named
      rcases List.mem_append.mp h with member | own
      · obtain ⟨⟨key, place, value⟩, entry, member⟩ := List.mem_flatMap.mp member
        refine .inr ?_
        cases block : Code.Block.ofKey? key with
        | none => simp [block] at member
        | some block' =>
          simp only [block, Option.map_some, Option.getD_some, blockCode, List.mem_map, Prod.mk.injEq] at member
          obtain ⟨⟨name, n, inner⟩, mem, rfl, rfl⟩ := member
          cases args with
          | nil => simp at entry
          | cons first more =>
            cases more with
            | nil => simp at entry
            | cons second more =>
              simp only [List.getElem?_cons_succ, List.getElem?_cons_zero, Option.map_some, Option.getD_some] at entry
              obtain ⟨members, blockKey, blockComputed, rfl, entry, blockKnown⟩ := namedMember entry
              obtain ⟨inside, key', computed, rfl, mem, known⟩ := namedMember mem
              refine ⟨block', key', computed, inner, name, .member (by simpa using defines) ?_ entry ?_ mem, known, rfl⟩
              · simpa [Option.isSome_iff_exists] using ⟨_, named⟩
              · simp [blockKnown, block]
      · simp at own
        exact .inl own.1
    · contradiction
  · contradiction

theorem defineCodeAt {key value : Tree} {computed : Bool} {name : String} (member : BlockMember u block (.property s key computed value))
    (known : keyName? computed key = some name) : (s, (valueCode name none (some value)).within block) ∈ u.codeAt := by
  obtain ⟨defines, named, entry, blockName, mem⟩ := member
  obtain ⟨text, named⟩ := Option.isSome_iff_exists.mp named
  obtain ⟨blockText, blockKnown, blockFound⟩ := Option.bind_eq_some_iff.mp blockName
  simp only [codeAt, defineCode, defines, BEq.rfl, if_true, List.head?_cons, Option.bind_some, named]
  refine List.mem_append_left _ (List.mem_flatMap.mpr ⟨_, memNamed entry blockKnown, ?_⟩)
  simpa [blockFound, blockCode] using ⟨name, value, memNamed mem known, rfl⟩

/- The trees between the call and the property are no calls. -/
theorem blockMemberPath {p : Tree} (member : BlockMember u block p) :
    ∃ o ∈ u.parts, ∃ e ∈ o.parts, ∃ v ∈ e.parts, p ∈ v.parts ∧ o.codePlace = [] ∧ e.codePlace = [] ∧ v.codePlace = [] := by
  obtain ⟨defines, named, entry, blockName, mem⟩ := member
  refine ⟨.object _, ?_, .property .., entry, .object _, ?_, mem, rfl, rfl, rfl⟩ <;> simp

theorem partKeyStarts (part : q ∈ t.parts) : q.keyStarts ⊆ t.keyStarts := (Inside.part part .here).keyStarts

theorem propertyStarts {key value : Tree} {computed : Bool} : s ∈ (Tree.property s key computed value).keyStarts := by
  rw [keyStartsNode]
  simp

theorem blockMemberInside {p : Tree} (member : BlockMember u block p) : Inside p u := by
  obtain ⟨o, ho, e, he, v, hv, hp, -⟩ := blockMemberPath member
  exact .part ho (.part he (.part hv (.part hp .here)))

theorem blockMemberStarts {key value : Tree} {computed : Bool} (member : BlockMember u block (.property s key computed value)) :
    s ∈ u.keyStarts :=
  (blockMemberInside member).keyStarts propertyStarts

/- Of the calls that begin no property themselves, one has the member. -/
theorem onlyCall {key value : Tree} {computed : Bool} (apart : Apart [t]) (member : BlockMember t block (.property s key computed value))
    (inside : Inside u t) (isCall : u.codePlace ≠ []) (noKey : u.keyPlace = []) (here : s ∈ u.keyStarts) : u = t := by
  obtain ⟨o, ho, e, he, v, hv, hp, noCall, noCall', noCall''⟩ := blockMemberPath member
  have inP : s ∈ (Tree.property s key computed value).keyStarts := propertyStarts
  have inV := partKeyStarts hp inP
  have inE := partKeyStarts hv inV
  have inO := partKeyStarts he inE
  have oApart := apart.parts.one ho
  have eApart := oApart.parts.one he
  have vApart := eApart.parts.one hv
  have pApart := vApart.parts.one hp
  rcases apart.narrow inside here ho inO with same | inside
  · exact same
  rcases oApart.narrow inside here he inE with rfl | inside
  · exact absurd noCall isCall
  rcases eApart.narrow inside here hv inV with rfl | inside
  · exact absurd noCall' isCall
  rcases vApart.narrow inside here hp inP with rfl | inside
  · exact absurd noCall'' isCall
  cases inside with
  | here => simp at noKey
  | part part deeper => exact absurd (deeper.keyStarts here) (pApart.ownStart (by simp) part)

/-- Code begins with the tree itself, or with a member of its blocks. -/
theorem codeAtCases (h : (n, code) ∈ t.codeAt) : n ∈ t.keyPlace.map Prod.fst ∨ n ∈ t.codePlace ∨
    ∃ block key computed value, BlockMember t block (.property n key computed value) := by
  unfold codeAt at h
  split at h
  · rcases defineCodeMember h with rfl | ⟨block, key, computed, value, name, member, -⟩
    · exact .inr (.inl (by simp))
    · exact .inr (.inr ⟨block, key, computed, value, member⟩)
  · simp at h
    obtain ⟨-, -, rfl, -⟩ := h
    exact .inl (by simp)
  · simp at h
    obtain ⟨-, -, rfl, -⟩ := h
    exact .inr (.inl (by simp))
  · simp at h
    exact .inr (.inl (by simp [h.1]))
  · simp at h
    exact .inr (.inl (by simp [h.1]))
  · contradiction

theorem codeAtPlaces (h : (n, code) ∈ t.codeAt) : n ∈ t.keyStarts ∨ n ∈ t.codePlace := by
  rcases codeAtCases h with own | place | ⟨block, key, computed, value, member⟩
  · rw [keyStartsNode]
    exact .inl (List.mem_append_left _ own)
  · exact .inr place
  · exact .inl (blockMemberStarts member)

theorem gatherPlaces (t : Tree) (h : (n, code) ∈ t.gather codeAt) : n ∈ t.keyStarts ∨ n ∈ t.codeStarts := by
  rw [gatherNode, List.mem_append, List.mem_flatMap] at h
  rw [codeStartsNode, List.mem_append]
  rcases h with own | ⟨q, part, h⟩
  · exact (codeAtPlaces own).imp_right .inl
  · exact (gatherPlaces q h).imp (fun here => partKeyStarts part here) fun here => .inr (List.mem_flatMap.mpr ⟨q, part, here⟩)
termination_by sizeOf t
decreasing_by exact sizeOfPart part

/- A property is a member of one block of the call at most. -/
theorem oneBlock {p p' : Tree} {block' : Code.Block} (apart : Apart [u]) (member : BlockMember u block p) (member' : BlockMember u block' p')
    (here : s ∈ p.keyStarts) (there : s ∈ p'.keyStarts) : p = p' ∧ block = block' := by
  cases member with
  | @member start place callee className blockKey _ members inside more computed _ _ _ entry known mem =>
    cases member' with
    | @member _ _ _ _ _ _ _ inside' _ _ _ _ _ entry' known' mem' =>
      have body : Apart members := (apart.parts.one (t := .object members) (by simp)).parts
      have toEntry {place : Nat} {k p : Tree} {inside : List Tree} {c : Bool} (mem : p ∈ inside) (h : s ∈ p.keyStarts) :
          s ∈ (Tree.property place k c (.object inside)).keyStarts :=
        partKeyStarts (q := .object inside) (by simp) (partKeyStarts (t := .object inside) mem h)
      have same := body.same entry entry' (toEntry mem here) (toEntry mem' there)
      cases same
      have inner : Apart inside := ((body.one entry).parts.one (t := .object inside) (by simp)).parts
      exact ⟨inner.same mem mem' here there, Option.some.inj (known.symm.trans known')⟩

/- A call begins where no property does. -/
theorem codeAtOwn {key value : Tree} {computed : Bool} {name : String} {code' : Code} (apart : Apart [u])
    (member : BlockMember u block (.property s key computed value)) (known : keyName? computed key = some name) (h : (s, code') ∈ u.codeAt) :
    code' = (valueCode name none (some value)).within block := by
  have here := blockMemberStarts member
  cases u with
  | call start callee args =>
    rcases defineCodeMember h with rfl | ⟨block', key', computed', value', name', member', known', rfl⟩
    · refine absurd ?_ (apart.apart s (by simpa using here))
      rw [List.flatMap_singleton, codeStartsNode]
      exact List.mem_append_left _ (by simp)
    · obtain ⟨same, rfl⟩ := oneBlock apart member member' propertyStarts propertyStarts
      cases same
      rw [Option.some.inj (known.symm.trans known')]
  | _ => cases member

end Tree

open Tree
variable {ts : List Tree} {t u q : Tree} {s : Nat} {code : Code} {block : Code.Block}

theorem codeAtAppend (l l' : List (Nat × Code)) (s : Nat) : codeAt? (l ++ l') s = (codeAt? l s).or (codeAt? l' s) := by
  rw [codeAt?, List.find?_append]
  cases h : l.find? (·.1 == s) <;> simp [codeAt?, h]

theorem codeAtSome {l : List (Nat × Code)} (mem : (s, code) ∈ l) (only : ∀ code', (s, code') ∈ l → code' = code) : codeAt? l s = some code := by
  cases found : l.find? (·.1 == s) with
  | none => exact absurd (List.find?_eq_none.mp found _ mem) (by simp)
  | some entry =>
    have same : entry.1 = s := by simpa using List.find?_some found
    rw [codeAt?, found, Option.map_some, only entry.2 (by rw [← same]; exact List.mem_of_find?_eq_some found)]

theorem codeAtNone {l : List (Nat × Code)} (nowhere : ∀ code, (s, code) ∉ l) : codeAt? l s = none := by
  rw [codeAt?, Option.map_eq_none_iff, List.find?_eq_none]
  rintro ⟨n, code⟩ mem here
  rw [show n = s from beq_iff_eq.mp here] at mem
  exact nowhere code mem

/- What other trees have is elsewhere. -/
theorem codeAtPart (apart : Apart ts) (part : q ∈ ts) (here : s ∈ q.keyStarts) (found : codeAt? (q.gather codeAt) s = some code) :
    codeAt? (ts.flatMap (gather codeAt)) s = some code := by
  induction ts with
  | nil => contradiction
  | cons t ts ih =>
    rw [List.flatMap_cons, codeAtAppend]
    by_cases same : q = t
    · rw [← same, found, Option.some_or]
    have behind : q ∈ ts := (List.mem_cons.mp part).resolve_left same
    have nowhere (code : Code) : (s, code) ∉ t.gather codeAt := by
      intro first
      rcases gatherPlaces t first with key | code
      · exact same (apart.same part (List.mem_cons_self ..) here key)
      · exact apart.apart s (List.mem_flatMap.mpr ⟨q, part, here⟩) (List.mem_flatMap.mpr ⟨t, List.mem_cons_self .., code⟩)
    rw [codeAtNone nowhere, Option.none_or]
    exact ih apart.behind behind

theorem codeAtMember {key value : Tree} {computed : Bool} {name : String} (apart : Apart [t])
    (member : BlockMember u block (.property s key computed value)) (known : keyName? computed key = some name) (inside : Inside u t) :
    codeAt? (t.gather codeAt) s = some ((valueCode name none (some value)).within block) := by
  have own (apart : Apart [u]) : codeAt? (u.gather codeAt) s = some ((valueCode name none (some value)).within block) := by
    have first := codeAtSome (defineCodeAt member known) fun code' h => codeAtOwn apart member known h
    rw [gatherNode, codeAtAppend, first, Option.some_or]
  induction inside with
  | here => exact own apart
  | @part t q part deeper ih =>
    have here := blockMemberStarts member
    have below := codeAtPart apart.parts part (deeper.keyStarts here) (ih (apart.parts.one part))
    by_cases same : u = t
    · exact same ▸ own (same ▸ apart)
    have nowhere (code : Code) : (s, code) ∉ t.codeAt := by
      intro first
      rcases codeAtCases first with key | code | ⟨block', key', computed', value', member'⟩
      · exact apart.ownStart key part (deeper.keyStarts here)
      · refine apart.apart s (by simpa using (Inside.part part deeper).keyStarts here) ?_
        rw [List.flatMap_singleton, codeStartsNode]
        exact List.mem_append_left _ code
      · obtain ⟨isCall, noKey⟩ : u.codePlace ≠ [] ∧ u.keyPlace = [] := by
          cases member
          exact ⟨by simp, rfl⟩
        exact same (onlyCall apart member' (.part part deeper) isCall noKey here)
    rw [gatherNode, codeAtAppend, codeAtNone nowhere, below, Option.none_or]

/-- The code at a member of a block is the member as the block has it. -/
theorem codeOfMember {key value : Tree} {computed : Bool} {name : String} (apart : Apart ts) (part : t ∈ ts) (inside : Inside u t)
    (member : BlockMember u block (.property s key computed value)) (known : keyName? computed key = some name) :
    codeAt? (codeOf ts) s = some ((valueCode name none (some value)).within block) :=
  codeAtPart apart part (inside.keyStarts (blockMemberStarts member)) (codeAtMember (apart.one part) member known inside)

end ClassDocs.Script
