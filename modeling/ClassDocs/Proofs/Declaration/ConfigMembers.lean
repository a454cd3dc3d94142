import ClassDocs.SourceFile
import ClassDocs.Proofs.Script.LayingProgram
import ClassDocs.Proofs.Script.MemberCode
import ClassDocs.Proofs.Script.Equality

/-! Members of the `config` block of a class are options with accessors, unless their values are functions: those are methods. -/
namespace ClassDocs

namespace Script

theorem Tree.Apart.ofLaid {ts : List Tree} {n : Nat} (laid : (Places.add ⟨[], []⟩ ts).Laid n n) : Apart ts := by
  have keys : ts.flatMap keyStarts = (Places.add ⟨[], []⟩ ts).keys.map Prod.fst := by
    rw [Places.add, List.nil_append, List.map_flatMap]
    rfl
  refine ⟨keys ▸ laid.distinct, fun n key code => ?_⟩
  rw [keys, List.mem_map] at key
  obtain ⟨place, member, rfl⟩ := key
  refine laid.apart place member ?_
  rw [Places.add, List.nil_append]
  exact code

end Script

namespace SourceFile
open Script
variable {path : String} {b : DocBlock} {location : Location} {name : String} {value : Tree}

/-- Whether the value is a function, a method among them. -/
def isFunction : Tree → Bool
  | .function .. => true
  | _ => false

theorem withCodeLast {code : List (Nat × Code)} {before behind : List (DocComment × Nat)} {comment : DocComment} {offset : Nat}
    (last : ∀ remark ∈ behind, remark.2 ≠ offset) :
    (comment, codeAt? code offset) ∈ withCode code (before ++ (comment, offset) :: behind) := by
  induction before with
  | nil =>
    have none : behind.any (·.2 == offset) = false := by simpa using last
    simp [withCode, none]
  | cons remark before ih => exact List.mem_cons_of_mem _ ih

theorem withValueAccessor (m : Metadata) (e : Expression) : (withValue m e).accessor = m.accessor := by
  unfold withValue
  split <;> rfl

/-- The declaration of a member of a `config` block: an option with accessors, or a method if the value is a function. -/
structure DeclaresMember (value : Tree) (b : DocBlock) (name : String) (location : Location) (d : Declaration) : Prop where
  name : d.name = name
  files : d.files = [location]
  option : isFunction value = false → d.kind = .cfg ∧ d.info.accessor = true
  method : isFunction value = true → d.kind = .method ∧ d.info.accessor = b.has "accessor"

theorem memberDeclared (noKind : b.tags.findSome? kindTag? = none) (noClass : isClassBlock b = false) :
    ∃ d, declaration? b (some ((Tree.valueCode name none (some value)).within .config)) location = some d ∧
      DeclaresMember value b name location d := by
  have ofValue (code : ValueCode) (inConfig : code.inConfig = true) : kind? b (some (.value code)) = some (.cfg, none) := by
    simp [kind?, noKind, noClass, kindOfCode, inConfig]
  have ofFunction (code : FunctionCode) : kind? b (some (.function code)) = some (.method, none) := by
    simp [kind?, noKind, noClass, kindOfCode]
  cases function : isFunction value with
  | false =>
    have code : (Tree.valueCode name none (some value)).within .config =
        .value { name, owner := none, value := some value.lower, inConfig := true } := by
      cases value with
      | function => contradiction
      | _ => rfl
    rw [code, declaration?, ofValue _ rfl]
    refine ⟨_, rfl, rfl, rfl, fun _ => ⟨rfl, ?_⟩, by simp [function]⟩
    simp [withCommonTags, withFieldCode, withValueAccessor]
  | true =>
    cases value with
    | function start own params body =>
      rw [Tree.valueCode, Tree.functionCode, Code.within, declaration?, ofFunction]
      refine ⟨_, rfl, rfl, rfl, by simp [isFunction], fun _ => ⟨rfl, ?_⟩⟩
      simp [withCommonTags, withMethodCode]
    | _ => contradiction

/-- A doc comment in front of a member of a `config` block that has neither a tag for a kind nor one of a class declares an option
with accessors, unless the value of the member is a function. -/
theorem configMembersDeclared {source : String} {program : Program} {t call key value : Tree} {start : Nat} {comment : DocComment}
    {before behind : List (DocComment × Nat)} (read : Program.read source = .ok program) (statement : t ∈ program.statements)
    (within : call ∈ t.subtrees fun _ => true) (member : Tree.BlockMember call .config (.property start key false value))
    (commented : program.remarks = before ++ (comment, start) :: behind) (last : ∀ remark ∈ behind, remark.2 ≠ start)
    (noKind : (Comment.parse comment.content).tags.findSome? kindTag? = none) (noClass : isClassBlock (Comment.parse comment.content) = false) :
    ∃ result name, parse path source = .ok result ∧ Tree.keyName? false key = some name ∧ ∃ d ∈ result.records,
      DeclaresMember value (Comment.parse comment.content) name ⟨path, (Text.LineTable.ofSource source).line comment.start⟩ d := by
  obtain ⟨n, laid⟩ := programLaid read
  have inside := Tree.insideOfSubtree t within
  obtain ⟨name, known⟩ : ∃ name, Tree.keyName? false key = some name := by
    have own : (start, (Tree.keyName? false key).isSome) ∈ (Tree.property start key false value).gather Tree.keyPlace := by
      simp [Tree.gatherNode Tree.keyPlace (.property ..)]
    have passed := ((Tree.blockMemberInside member).trans inside).gather _ own
    exact Option.isSome_iff_exists.mp (laid.named _ (List.mem_append_right _ (List.mem_flatMap.mpr ⟨t, statement, passed⟩)))
  have code := codeOfMember (.ofLaid laid) statement inside member known
  obtain ⟨d, declared, result⟩ := memberDeclared noKind noClass
  refine ⟨_, name, by rw [parse, read], known, d, List.mem_filterMap.mpr ⟨(comment, codeAt? (codeOf program.statements) start), ?_, ?_⟩, result⟩
  · rw [commented]
    exact withCodeLast last
  · rw [code]
    exact declared

def panelSource : String := "Ext.define('Panel', \x7bconfig: \x7b/** Size. */ size: 1, /** Renders. */ render: function() \x7b\x7d\x7d\x7d);"

def sizeMember : Tree := .property 43 (.identifier "size") false (.literal "1" (.number 1.0))

def renderMember : Tree := .property 68 (.identifier "render") false (.function 76 none [] [])

def panelDefinition : Tree :=
  .call 0 (.dot (.identifier "Ext") "define") [.literal "'Panel'" (.string "Panel"),
    .object [.property 21 (.identifier "config") false (.object [sizeMember, renderMember])]]

def panel : Program := ⟨[.effect panelDefinition], [(⟨30, "* Size. "⟩, 43), (⟨52, "* Renders. "⟩, 68)]⟩

theorem panelRead : Program.read panelSource = .ok panel := by decide +kernel

theorem panelMember {p : Tree} (member : p ∈ [sizeMember, renderMember]) : Tree.BlockMember panelDefinition .config p :=
  .member rfl rfl (List.mem_singleton.mpr rfl) (by decide) member

theorem sizeDeclared : Program.read panelSource = .ok panel ∧
    ∃ result d, parse "Panel.js" panelSource = .ok result ∧ d ∈ result.records ∧ d.name = "size" ∧ d.kind = .cfg ∧ d.info.accessor = true := by
  have within : panelDefinition ∈ (Tree.effect panelDefinition).subtrees fun _ => true := by
    rw [Tree.subtreesNode, Tree.parts, List.flatMap_singleton, Tree.subtreesNode panelDefinition]
    simp
  have commented : panel.remarks = [] ++ (⟨30, "* Size. "⟩, 43) :: [(⟨52, "* Renders. "⟩, 68)] := rfl
  obtain ⟨result, name, parsed, known, d, record, declares⟩ := configMembersDeclared panelRead (List.mem_singleton.mpr rfl) within
    (panelMember (p := sizeMember) (by simp)) commented (by decide) (by decide +kernel) (by decide +kernel)
  obtain ⟨kind, accessor⟩ := declares.option rfl
  have named : d.name = "size" := declares.name.trans (Option.some.inj known.symm)
  exact ⟨panelRead, result, d, parsed, record, named, kind, accessor⟩

/-- A function in a `config` block is a method. -/
theorem renderIsMethod : Tree.BlockMember panelDefinition .config renderMember ∧ (⟨52, "* Renders. "⟩, 68) ∈ panel.remarks ∧
    ∃ result, parse "Panel.js" panelSource = .ok result ∧ result.records.map (fun d => (d.name, d.kind, d.info.accessor)) =
      [("size", .cfg, true), ("render", .method, false)] := by
  refine ⟨panelMember (by simp), by simp [panel], _, by rw [parse, panelRead], ?_⟩
  decide +kernel

end SourceFile
end ClassDocs
