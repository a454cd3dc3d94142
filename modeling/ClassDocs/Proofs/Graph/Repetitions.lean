import Mathlib.Data.Finset.Card
import Mathlib.Data.List.Infix
import ClassDocs.Proofs.Registry.Related
import ClassDocs.Proofs.Run.Findings

/-! Names that come again, and required parameters behind optional ones. What has been seen on the way is just what
stands before, so every problem is told where it is, once. -/
namespace ClassDocs

section Preceded
variable {α β γ : Type}

/-- Each item with those before it. -/
def preceded (items : List α) : List (List α × α) := items.inits.zip items

theorem precededCons (a : α) (rest : List α) : preceded (a :: rest) = ([], a) :: (preceded rest).map fun e => (a :: e.1, e.2) := by
  rw [preceded, List.inits_cons, List.zip_cons_cons, preceded, List.zip_map_left]
  rfl

theorem precededLast (items : List α) (a : α) : preceded (items ++ [a]) = preceded items ++ [(items, a)] := by
  induction items with
  | nil => rfl
  | cons first rest ih =>
    rw [List.cons_append, precededCons, ih, List.map_append, precededCons, List.cons_append, List.map_singleton]

theorem precededItems (items : List α) : (preceded items).map Prod.snd = items :=
  List.map_snd_zip (by simp)

theorem flatMapIf {p : α → Bool} (f : α → γ) (items : List α) :
    (items.flatMap fun a => if p a then [f a] else []) = (items.filter p).map f := by
  induction items with
  | nil => rfl
  | cons a rest ih => by_cases h : p a <;> simp [h, ih]

variable [DecidableEq β]

/-- The items with a key that has come before. -/
def repeated (key : α → β) (items : List α) : List α :=
  ((preceded items).filter fun e => key e.2 ∈ e.1.map key).map Prod.snd

theorem repeatedLast (key : α → β) (items : List α) (a : α) :
    repeated key (items ++ [a]) = repeated key items ++ if key a ∈ items.map key then [a] else [] := by
  rw [repeated, precededLast, List.filter_append, List.map_append]
  refine congrArg (repeated key items ++ ·) ?_
  simp only [List.filter_cons, List.filter_nil, decide_eq_true_eq]
  split <;> rfl

theorem repeatedCount (key : α → β) (items : List α) :
    (repeated key items).length + (items.map key).toFinset.card = items.length := by
  induction items using List.reverseRecOn with
  | nil => rfl
  | append_singleton items a ih =>
    have keys : ((items ++ [a]).map key).toFinset = insert (key a) (items.map key).toFinset := by
      rw [List.map_append, List.toFinset_append, Finset.union_comm]
      rfl
    rw [repeatedLast, keys, List.length_append, List.length_append, List.length_singleton]
    by_cases seen : key a ∈ items.map key
    · rw [if_pos seen, Finset.insert_eq_of_mem (List.mem_toFinset.mpr seen), List.length_singleton]
      omega
    · rw [if_neg seen, Finset.card_insert_of_notMem (mt List.mem_toFinset.mp seen), List.length_nil]
      omega

end Preceded

/-- The required parameters behind an optional one, each after the first optional one. -/
def afterOptional (ps : List Param) : List (Param × Param) :=
  (preceded ps).filterMap fun e => if e.2.optional then none else (e.1.find? Param.optional).map (·, e.2)

def Declaration.key (m : Declaration) : Kind × String := (m.kind, m.name)

/-- Parameters are looked at in methods and events alone. -/
def Declaration.listedParams (m : Declaration) : List Param := if m.kind = .method ∨ m.kind = .event then m.info.params else []

namespace Lint

section Params
variable (m : Declaration) (fullName : String)

def dupParam (p : Param) : Diagnostic :=
  .warning .dupParam ("Duplicate parameter name " ++ p.name ++ " in " ++ fullName) m.location?

def bareParam (p : Param) : Diagnostic :=
  .warning .noDocParam ("No documentation for parameter " ++ p.name ++ " of " ++ fullName) m.location?

def lateParam (previous : String) (p : Param) : Diagnostic :=
  .warning .reqAfterOpt ("Optional parameter " ++ previous ++ " followed by required parameter " ++ p.name ++ " in " ++ fullName)
    m.location?

/- What a parameter is told for, by category. -/
structure ParamTold (names : List String) (optional : Option String) (p : Param) (ds : List Diagnostic) : Prop where
  dup : ds.filter (·.category == .dupParam) = if p.name ∈ names then [dupParam m fullName p] else []
  bare : ds.filter (·.category == .noDocParam) = if m.wantsDoc && !documented p.doc then [bareParam m fullName p] else []
  late : ds.filter (·.category == .reqAfterOpt) =
    ((if p.optional then none else optional).map fun previous => lateParam m fullName previous p).toList

theorem paramTold (names : List String) (optional : Option String) (p : Param) :
    ParamTold m fullName names optional p (paramFindings m fullName names optional p) := by
  have dups : Warns [.dupParam] (if p.name ∈ names then [dupParam m fullName p] else []) :=
    warnsIf (warnsOne (List.mem_singleton_self _)) warnsNil
  have bares : Warns [.noDocParam] (if m.wantsDoc && !documented p.doc then [bareParam m fullName p] else []) :=
    warnsIf (warnsOne (List.mem_singleton_self _)) warnsNil
  have lates : Warns [.reqAfterOpt]
      ((if p.optional then none else optional).map fun previous => lateParam m fullName previous p).toList := by
    cases if p.optional then none else optional with
    | none => exact warnsNil
    | some previous => exact warnsOne (List.mem_singleton_self _)
  have parts : paramFindings m fullName names optional p =
      (if p.name ∈ names then [dupParam m fullName p] else []) ++
      (if m.wantsDoc && !documented p.doc then [bareParam m fullName p] else []) ++
      ((if p.optional then none else optional).map fun previous => lateParam m fullName previous p).toList := by
    unfold paramFindings
    refine congrArg₂ (· ++ ·) rfl ?_
    cases optional <;> cases p.optional <;> rfl
  constructor <;> rw [parts, List.filter_append, List.filter_append]
  · rw [warnsOwn dups, warnsOther bares (by decide), warnsOther lates (by decide), List.append_nil, List.append_nil]
  · rw [warnsOther dups (by decide), warnsOwn bares, warnsOther lates (by decide), List.nil_append, List.append_nil]
  · rw [warnsOther dups (by decide), warnsOther bares (by decide), warnsOwn lates, List.nil_append, List.nil_append]

theorem paramsInOrder (names : List String) (optional : Option String) (ps : List Param) :
    paramsFindings m fullName names optional ps = (preceded ps).flatMap fun e =>
      paramFindings m fullName (e.1.reverse.map Param.name ++ names) (optional.or ((e.1.find? Param.optional).map Param.name)) e.2 := by
  -- what has been seen is what was seen before the list and what stands in it so far, last one first
  induction ps generalizing names optional with
  | nil => rfl
  | cons p rest ih =>
    rw [paramsFindings, ih, precededCons, List.flatMap_cons, List.flatMap_map]
    refine congrArg₂ (· ++ ·) (by simp) (List.flatMap_congr fun e _ => ?_)
    cases required : p.optional <;> simp [required]

structure ParamsTold (ps : List Param) (ds : List Diagnostic) : Prop where
  dup : ds.filter (·.category == .dupParam) = (repeated Param.name ps).map (dupParam m fullName)
  bare : ds.filter (·.category == .noDocParam) = (ps.filter fun p => m.wantsDoc && !documented p.doc).map (bareParam m fullName)
  late : ds.filter (·.category == .reqAfterOpt) = (afterOptional ps).map fun late => lateParam m fullName late.1.name late.2

theorem paramsTold (ps : List Param) : ParamsTold m fullName ps (paramsFindings m fullName [] none ps) := by
  have told (e : List Param × Param) := paramTold m fullName (e.1.reverse.map Param.name ++ [])
    (none.or ((e.1.find? Param.optional).map Param.name)) e.2
  constructor <;> rw [paramsInOrder, List.filter_flatMap]
  · rw [repeated, List.map_map, ← flatMapIf]
    refine List.flatMap_congr fun e _ => (told e).dup.trans (if_congr ?_ rfl rfl)
    simp
  · rw [← flatMapIf, ← precededItems ps, List.flatMap_map, precededItems]
    exact List.flatMap_congr fun e _ => (told e).bare
  · rw [afterOptional, List.map_filterMap, List.filterMap_eq_flatMap_toList]
    refine List.flatMap_congr fun e _ => (told e).late.trans ?_
    rw [Option.none_or]
    cases e.1.find? Param.optional <;> cases e.2.optional <;> rfl

end Params

def dupMember (c : ClassRecord) (m : Declaration) : Diagnostic :=
  .warning .dupMember ("Duplicate " ++ m.kind.name ++ " name " ++ c.name ++ "#" ++ m.name) m.location?

theorem membersInOrder (g : ClassGraph) (c : ClassRecord) (seen : List (Kind × String)) (ms : List Declaration) :
    membersFindings g c seen ms = (preceded ms).flatMap fun e =>
      (if e.2.key ∈ e.1.reverse.map Declaration.key ++ seen then [dupMember c e.2] else []) ++ memberFindings g c e.2 := by
  induction ms generalizing seen with
  | nil => rfl
  | cons m rest ih =>
    rw [membersFindings, ih, precededCons, List.flatMap_cons, List.flatMap_map]
    refine congrArg₂ (· ++ ·) rfl (List.flatMap_congr fun e _ => ?_)
    rw [List.reverse_cons, List.map_append, List.append_assoc]
    rfl

theorem paramsApart {category : Category} (own : category ∈ [.dupParam, .noDocParam, .reqAfterOpt]) :
    category ∉ [.noDoc, .dupMember, .typeName] := by
  revert own
  cases category <;> decide

/- Nothing else of a member is of these categories. -/
theorem paramsOfMember {category : Category} (own : category ∈ [.dupParam, .noDocParam, .reqAfterOpt]) (g : ClassGraph)
    (c : ClassRecord) (m : Declaration) : (memberFindings g c m).filter (·.category == category) =
      (paramsFindings m (c.name ++ "#" ++ m.name) [] none m.listedParams).filter (·.category == category) := by
  have apart := paramsApart own
  have listed : paramsFindings m (c.name ++ "#" ++ m.name) [] none m.listedParams =
      if m.kind = .method ∨ m.kind = .event then paramsFindings m (c.name ++ "#" ++ m.name) [] none m.info.params else [] := by
    unfold Declaration.listedParams
    split <;> rfl
  have types : Warns [.noDoc, .dupMember, .typeName] (typeFindings g m (c.name ++ "#" ++ m.name)) := warnsMap _ (by decide)
  rw [memberFindings, List.filter_append, List.filter_append, warnsOther (warnsIf (warnsOne (by decide)) warnsNil) apart,
    warnsOther types apart, List.nil_append, List.append_nil, listed]

/-- What the members of a class are told for, by category. -/
structure ClassTold (c : ClassRecord) (ds : List Diagnostic) : Prop where
  dupMember : ds.filter (·.category == .dupMember) = (repeated Declaration.key c.members).map (dupMember c)
  count : (ds.filter (·.category == .dupMember)).length = c.members.length - (c.members.map Declaration.key).toFinset.card
  dupParam : ds.filter (·.category == .dupParam) = c.members.flatMap fun m =>
    (repeated Param.name m.listedParams).map (dupParam m (c.name ++ "#" ++ m.name))
  lateParam : ds.filter (·.category == .reqAfterOpt) = c.members.flatMap fun m =>
    (afterOptional m.listedParams).map fun late => lateParam m (c.name ++ "#" ++ m.name) late.1.name late.2
  bareParam : ds.filter (·.category == .noDocParam) = c.members.flatMap fun m =>
    (m.listedParams.filter fun p => m.wantsDoc && !documented p.doc).map (bareParam m (c.name ++ "#" ++ m.name))

theorem paramsOfClass {category : Category} (own : category ∈ [.dupParam, .noDocParam, .reqAfterOpt]) (g : ClassGraph)
    (c : ClassRecord) : (classFindings g c).filter (·.category == category) = c.members.flatMap fun m =>
      (paramsFindings m (c.name ++ "#" ++ m.name) [] none m.listedParams).filter (·.category == category) := by
  have apart := paramsApart own
  rw [classFindings, List.filter_append, warnsOther (warnsIf (warnsOne (by decide)) warnsNil) apart, List.nil_append,
    membersInOrder, List.filter_flatMap, ← precededItems c.members, List.flatMap_map, precededItems]
  refine List.flatMap_congr fun e _ => ?_
  have again : Warns [.noDoc, .dupMember, .typeName] (if e.2.key ∈ e.1.reverse.map Declaration.key ++ [] then [dupMember c e.2] else []) :=
    warnsIf (warnsOne (by decide)) warnsNil
  rw [List.filter_append, warnsOther again apart, List.nil_append]
  exact paramsOfMember own g c e.2

theorem dupsOfClass (g : ClassGraph) (c : ClassRecord) :
    (classFindings g c).filter (·.category == .dupMember) = (repeated Declaration.key c.members).map (dupMember c) := by
  have missing : Warns [.noDoc] (if c.info.visibility ≠ .privateAccess ∧ !c.info.hasDoc then
      [.warning .noDoc ("No documentation for " ++ c.name) c.location?] else []) := warnsIf (warnsOne (by decide)) warnsNil
  rw [classFindings, List.filter_append, warnsOther missing (by decide), List.nil_append, membersInOrder, List.filter_flatMap,
    repeated, List.map_map, ← flatMapIf]
  refine List.flatMap_congr fun e _ => ?_
  have again : Warns [.dupMember] (if e.2.key ∈ e.1.reverse.map Declaration.key ++ [] then [dupMember c e.2] else []) :=
    warnsIf (warnsOne (by decide)) warnsNil
  rw [List.filter_append, warnsOwn again, warnsOther (warnsMember g c e.2) (by decide), List.append_nil]
  exact if_congr (by simp) rfl rfl

theorem classTold (g : ClassGraph) (c : ClassRecord) : ClassTold c (classFindings g c) := by
  have told (m : Declaration) := paramsTold m (c.name ++ "#" ++ m.name) m.listedParams
  refine ⟨dupsOfClass g c, ?_, ?_, ?_, ?_⟩
  · rw [dupsOfClass, List.length_map]
    exact Nat.eq_sub_of_add_eq (repeatedCount Declaration.key c.members)
  · rw [paramsOfClass (by decide)]
    exact List.flatMap_congr fun m _ => (told m).dup
  · rw [paramsOfClass (by decide)]
    exact List.flatMap_congr fun m _ => (told m).late
  · rw [paramsOfClass (by decide)]
    exact List.flatMap_congr fun m _ => (told m).bare

end Lint

/-- With nothing muted every class gets its part of the report, and in it there is one finding for each member and each parameter
whose name has come before, and for each required parameter behind an optional one, of which the first is named. -/
theorem ClassGraph.repetitionsTold (g : ClassGraph) (before : List Diagnostic) :
    ∃ parts, (Sink.reportAll ⟨[], before⟩ g.lint).entries = before ++ parts.flatten ∧
      List.Forall₂ Lint.ClassTold g.records parts := by
  refine ⟨g.records.map (Lint.classFindings g), ?_, relatedImage (Lint.classTold g) g.records⟩
  have kept : g.lint.filter (Sink.accepts ⟨[], before⟩) = g.lint := List.filter_eq_self.mpr fun d _ => Bool.or_true _
  rw [Sink.reportAllEntries, kept]
  rfl

end ClassDocs
