import ClassDocs.SourceFile
import ClassDocs.Proofs.Comment.Respelling

/-! Tags with two spellings. Which of the two a comment uses makes no difference to the declaration, except for the mixins: where
nothing else tells a class from a member, only one of their spellings makes it a class. -/
namespace ClassDocs
variable {old new : String} {b b' : DocBlock}

namespace Tag

@[simp] theorem renamedBody (t : Tag) : (t.renamed old new).body = t.body := by
  unfold renamed
  split <;> rfl

@[simp] theorem renamedTypeHint (t : Tag) : (t.renamed old new).typeHint = t.typeHint := by
  unfold renamed
  split <;> rfl

theorem renamedOther {t : Tag} (other : t.name ≠ old) : t.renamed old new = t := if_neg other

theorem renamedCalled (t : Tag) : (t.renamed old new).name = if t.name = old then new else t.name := by
  unfold renamed
  split <;> rfl

end Tag

namespace DocBlock

theorem tagFirst (b : DocBlock) (n : String) : b.tag? n = (b.tagsNamed n).head? := (List.head?_filter).symm

theorem absentTagged {n : String} (absent : b.has n = false) : b.tagsNamed n = [] := by
  rwa [has, tagFirst, Option.isSome_eq_false_iff, Option.isNone_iff_eq_none, List.head?_eq_none_iff] at absent

theorem taggedOther {n : String} (notOld : n ≠ old) (notNew : n ≠ new) : (b.renamed old new).tagsNamed n = b.tagsNamed n := by
  have called (t : Tag) : ((t.renamed old new).name == n) = (t.name == n) := by
    rw [Tag.renamedCalled]
    split
    · rename_i same
      simp [same, Ne.symm notOld, Ne.symm notNew]
    · rfl
  have kept : ∀ t ∈ b.tags.filter (·.name == n), t.renamed old new = t := fun t ht =>
    Tag.renamedOther (by simpa [beq_iff_eq.mp (List.mem_filter.mp ht).2] using notOld)
  rw [tagsNamed, renamed, List.filter_map, tagsNamed]
  simp only [Function.comp_def, called]
  exact (List.map_congr_left kept).trans (List.map_id _)

theorem taggedOld (differ : old ≠ new) : (b.renamed old new).tagsNamed old = [] := by
  rw [tagsNamed, renamed, List.filter_eq_nil_iff]
  simp only [List.mem_map, beq_iff_eq, forall_exists_index, and_imp]
  rintro _ t - rfl
  rw [Tag.renamedCalled]
  split
  · exact Ne.symm differ
  · assumption

theorem taggedNew (absent : b.has new = false) :
    (b.renamed old new).tagsNamed new = (b.tagsNamed old).map (Tag.renamed old new) := by
  have missing := List.filter_eq_nil_iff.mp (absentTagged absent)
  rw [tagsNamed, renamed, List.filter_map, tagsNamed]
  congr 1
  refine List.filter_congr fun t listed => ?_
  rw [Function.comp_apply, Tag.renamedCalled]
  split
  · rename_i same
    simp [same]
  · rename_i other
    simpa [other] using missing t listed

theorem renamedAbsent (absent : b.has old = false) : b.renamed old new = b := by
  have missing := List.filter_eq_nil_iff.mp (absentTagged absent)
  have kept : b.tags.map (Tag.renamed old new) = b.tags.map id :=
    List.map_congr_left fun t listed => Tag.renamedOther (by simpa using missing t listed)
  rw [renamed, kept, List.map_id]

end DocBlock

namespace SourceFile
open Script

/-- The tags that may be spelled in two ways. -/
def aliases : List (String × String) :=
  [("extends", "extend"), ("mixins", "mixin"), ("return", "returns"), ("inheritdoc", "inheritDoc")]

/-- A spelling, and the other one of the same tag. -/
def spellings : List (String × String) := aliases ++ aliases.map Prod.swap

/- Either the one name becomes the other, or neither is concerned. -/
def Respells (old new x y : String) : Prop :=
  (x = old ∧ y = new) ∨ (x = new ∧ y = old) ∨ (∀ n ∈ [x, y], n ≠ old ∧ n ≠ new)

instance (old new x y : String) : Decidable (Respells old new x y) :=
  inferInstanceAs (Decidable (_ ∨ _ ∨ _))

theorem respellings : ∀ spelling ∈ spellings, spelling.1 ≠ spelling.2 ∧
    ∀ pair ∈ aliases, Respells spelling.1 spelling.2 pair.1 pair.2 := by decide +kernel

section Renamed
variable {x y : String} (differ : old ≠ new) (pair : Respells old new x y) (absent : b.has new = false)
include differ pair absent

/-- The tags of a pair change place with one another, or stay where they are. -/
theorem pairTagged :
    ((b.renamed old new).tagsNamed x = [] ∧ b.tagsNamed y = [] ∧
      (b.renamed old new).tagsNamed y = (b.tagsNamed x).map (Tag.renamed old new)) ∨
    ((b.renamed old new).tagsNamed y = [] ∧ b.tagsNamed x = [] ∧
      (b.renamed old new).tagsNamed x = (b.tagsNamed y).map (Tag.renamed old new)) ∨
    ((b.renamed old new).tagsNamed x = b.tagsNamed x ∧ (b.renamed old new).tagsNamed y = b.tagsNamed y) := by
  rcases pair with ⟨rfl, rfl⟩ | ⟨rfl, rfl⟩ | others
  · exact .inl ⟨DocBlock.taggedOld differ, DocBlock.absentTagged absent, DocBlock.taggedNew absent⟩
  · exact .inr (.inl ⟨DocBlock.taggedOld differ, DocBlock.absentTagged absent, DocBlock.taggedNew absent⟩)
  · rw [List.forall_mem_cons, List.forall_mem_singleton] at others
    obtain ⟨⟨xOld, xNew⟩, yOld, yNew⟩ := others
    exact .inr (.inr ⟨DocBlock.taggedOther xOld xNew, DocBlock.taggedOther yOld yNew⟩)

theorem firstWordRenamed : firstWordOf? (b.renamed old new) [x, y] = firstWordOf? b [x, y] := by
  have read (tags : List Tag) : (tags.map (Tag.renamed old new)).head?.bind (fun tag => Text.firstWord? tag.body) =
      tags.head?.bind fun tag => Text.firstWord? tag.body := by cases tags <;> simp
  rcases pairTagged differ pair absent with ⟨gone, none, moved⟩ | ⟨gone, none, moved⟩ | ⟨first, second⟩
  · simp only [firstWordOf?, DocBlock.tagFirst, List.findSome?_cons, gone, none, moved, read]
    simp
  · simp only [firstWordOf?, DocBlock.tagFirst, List.findSome?_cons, gone, none, moved, read]
    simp
  · simp only [firstWordOf?, DocBlock.tagFirst, List.findSome?_cons, first, second, List.findSome?_nil]

theorem wordsRenamed : wordsOf (b.renamed old new) [x, y] = wordsOf b [x, y] := by
  rcases pairTagged differ pair absent with ⟨gone, none, moved⟩ | ⟨gone, none, moved⟩ | ⟨first, second⟩
  · simp [wordsOf, gone, none, moved, List.flatMap_map]
  · simp [wordsOf, gone, none, moved, List.flatMap_map]
  · simp [wordsOf, first, second]

theorem eitherRenamed {α : Type} {f : Tag → α} (blind : ∀ t : Tag, f (t.renamed old new) = f t) :
    (((b.renamed old new).tag? x).or ((b.renamed old new).tag? y)).map f = ((b.tag? x).or (b.tag? y)).map f := by
  rcases pairTagged differ pair absent with ⟨gone, none, moved⟩ | ⟨gone, none, moved⟩ | ⟨first, second⟩
  · simp [DocBlock.tagFirst, gone, none, moved, Function.comp_def, blind]
  · simp [DocBlock.tagFirst, gone, none, moved, Function.comp_def, blind]
  · simp [DocBlock.tagFirst, first, second]

theorem hasRenamed : ((b.renamed old new).has x || (b.renamed old new).has y) = (b.has x || b.has y) := by
  simpa [DocBlock.has] using congrArg Option.isSome (eitherRenamed differ pair absent (f := fun _ => ()) fun _ => rfl)

end Renamed

/-- What a declaration takes from a comment, apart from the kind that class-only tags give it. -/
structure Alike (b b' : DocBlock) : Prop where
  summary : b'.summary = b.summary
  kindTag : b'.tags.findSome? kindTag? = b.tags.findSome? kindTag?
  tagged : ∀ n ∉ spellings.map Prod.fst, b'.tagsNamed n = b.tagsNamed n
  extended : (b'.has "extends" || b'.has "extend") = (b.has "extends" || b.has "extend")
  parent : firstWordOf? b' ["extends", "extend"] = firstWordOf? b ["extends", "extend"]
  mixins : wordsOf b' ["mixins", "mixin"] = wordsOf b ["mixins", "mixin"]
  returns : docReturns? b' = docReturns? b
  inheritDoc : ((b'.tag? "inheritdoc").or (b'.tag? "inheritDoc")).map (fun tag => Text.firstWord? tag.body) =
    ((b.tag? "inheritdoc").or (b.tag? "inheritDoc")).map fun tag => Text.firstWord? tag.body
  extraTags : b'.tags.filter (!knownTags.contains ·.name) = b.tags.filter (!knownTags.contains ·.name)

theorem spelledNames : ∀ spelling ∈ spellings, Kind.ofName? spelling.1 = none ∧ Kind.ofName? spelling.2 = none ∧
    spelling.1 ∈ knownTags ∧ spelling.2 ∈ knownTags ∧
    spelling.2 ∈ spellings.map Prod.fst := by decide +kernel

theorem speakable (spelled : (old, new) ∈ spellings) : Comment.Speakable old ∧ Comment.Speakable new := by
  have all : spellings.all fun spelling => [spelling.1, spelling.2].all fun name =>
      !name.toList.isEmpty && name.toList.all (!Text.isBlank ·) := by decide +kernel
  have both := List.all_eq_true.mp (List.all_eq_true.mp all _ spelled)
  have each (name : String) (listed : name ∈ [old, new]) : Comment.Speakable name := by
    have told := both name listed
    simp only [Bool.and_eq_true, Bool.not_eq_true', List.all_eq_true] at told
    exact ⟨told.1, told.2⟩
  exact ⟨each old (by simp), each new (by simp)⟩

section Spelled
variable (spelled : (old, new) ∈ spellings) (absent : b.has new = false)
include spelled

theorem kindRenamed (t : Tag) : kindTag? (t.renamed old new) = kindTag? t := by
  obtain ⟨noOld, noNew, -⟩ := spelledNames _ spelled
  by_cases called : t.name = old
  · simp [kindTag?, Tag.renamedCalled, called, noOld, noNew]
  · rw [Tag.renamedOther called]

theorem knownRenamed (t : Tag) : knownTags.contains (t.renamed old new).name = knownTags.contains t.name := by
  obtain ⟨-, -, oldKnown, newKnown, -⟩ := spelledNames _ spelled
  by_cases called : t.name = old
  · simp [Tag.renamedCalled, called, oldKnown, newKnown]
  · rw [Tag.renamedOther called]

theorem extraRenamed : (b.renamed old new).tags.filter (!knownTags.contains ·.name) = b.tags.filter (!knownTags.contains ·.name) := by
  have oldKnown := (spelledNames _ spelled).2.2.1
  rw [DocBlock.renamed, List.filter_map]
  simp only [Function.comp_def, knownRenamed spelled]
  refine (List.map_congr_left fun t extra => ?_).trans (List.map_id _)
  refine Tag.renamedOther ?_
  rintro rfl
  simp [oldKnown] at extra

include absent

theorem alikeRenamed : Alike b (b.renamed old new) := by
  obtain ⟨differ, pairs⟩ := respellings _ spelled
  obtain ⟨-, -, -, -, newListed⟩ := spelledNames _ spelled
  have oldListed : old ∈ spellings.map Prod.fst := List.mem_map_of_mem spelled
  exact {
    summary := rfl
    kindTag := by simp only [DocBlock.renamed, List.findSome?_map, Function.comp_def, kindRenamed spelled]
    tagged := fun n other => DocBlock.taggedOther (ne_of_mem_of_not_mem oldListed other).symm
      (ne_of_mem_of_not_mem newListed other).symm
    extended := hasRenamed differ (pairs ("extends", "extend") (by decide)) absent
    parent := firstWordRenamed differ (pairs ("extends", "extend") (by decide)) absent
    mixins := wordsRenamed differ (pairs ("mixins", "mixin") (by decide)) absent
    returns := eitherRenamed differ (pairs ("return", "returns") (by decide)) absent fun t => by simp
    inheritDoc := eitherRenamed differ (pairs ("inheritdoc", "inheritDoc") (by decide)) absent fun t => by simp
    extraTags := extraRenamed spelled }

end Spelled

namespace Alike
variable (alike : Alike b b')
include alike

theorem tag (n : String) (other : n ∉ spellings.map Prod.fst) : b'.tag? n = b.tag? n := by
  rw [DocBlock.tagFirst, DocBlock.tagFirst, alike.tagged n other]

theorem has (n : String) (other : n ∉ spellings.map Prod.fst) : b'.has n = b.has n := by
  rw [DocBlock.has, DocBlock.has, alike.tag n other]

theorem classDeclaration (primary : Option Tag) (code : Option Code) (location : Location) :
    classDeclaration? b' primary code location = classDeclaration? b primary code location := by
  have enumTag := alike.tag "enum" (by decide)
  have requires : wordsOf b' ["requires"] = wordsOf b ["requires"] := by
    simp only [wordsOf, List.flatMap_cons, List.flatMap_nil, alike.tagged "requires" (by decide)]
  have override : firstWordOf? b' ["override"] = firstWordOf? b ["override"] := by
    simp only [firstWordOf?, List.findSome?_cons, alike.tag "override" (by decide)]
    rfl
  have info : classInfo b' code = classInfo b code := by
    simp only [classInfo, alike.parent, alike.mixins, requires, override, alike.has "singleton" (by decide), enumTag]
  simp only [classDeclaration?, composed, alike.summary, enumDescription?, enumTag, info]

theorem memberDeclaration (kind : Kind) (primary : Option Tag) (code : Option Code) (location : Location) :
    memberDeclaration? kind b' primary code location = memberDeclaration? kind b primary code location := by
  have params : docParams b' = docParams b := by rw [docParams, docParams, alike.tagged "param" (by decide)]
  simp only [memberDeclaration?, composed, alike.summary, alike.tag "member" (by decide),
    alike.tag "type" (by decide), params, alike.returns]

theorem commonTags (m : Metadata) : withCommonTags b' m = withCommonTags b m := by
  have inherited : ((b'.tag? "inheritdoc").or (b'.tag? "inheritDoc")).map (fun tag => InheritDoc.mk (Text.firstWord? tag.body)) =
      ((b.tag? "inheritdoc").or (b.tag? "inheritDoc")).map fun tag => InheritDoc.mk (Text.firstWord? tag.body) := by
    simpa only [Option.map_map, Function.comp_def] using congrArg (Option.map InheritDoc.mk) alike.inheritDoc
  have has := alike.has
  simp only [withCommonTags, inherited, alike.extraTags, has "private" (by decide), has "protected" (by decide),
    has "static" (by decide), has "accessor" (by decide), has "evented" (by decide), has "chainable" (by decide),
    has "template" (by decide), has "ignore" (by decide), alike.tag "deprecated" (by decide), alike.tag "since" (by decide)]

theorem declaration {code : Option Code} (same : kind? b' code = kind? b code) (location : Location) :
    declaration? b' code location = declaration? b code location := by
  simp only [declaration?, same, alike.classDeclaration, alike.memberDeclaration, alike.commonTags]

theorem kind (same : isClassBlock b' = isClassBlock b) (code : Option Code) : kind? b' code = kind? b code := by
  rw [kind?, kind?, alike.kindTag, same]

end Alike

/-- Tags other than mixins that only classes have. -/
def otherClassTag (b : DocBlock) : Bool :=
  ["enum", "extends", "extend", "singleton"].any b.has || (b.tag? "override").any (·.body != "")

/-- Nothing but the mixins tells that the comment is one of a class: no tag names a kind, and the code is no class. -/
structure OnlyMixins (b : DocBlock) (code : Option Code) : Prop where
  unnamed : ∀ tag ∈ b.tags, kindTag? tag = none
  others : otherClassTag b = false
  member : ∃ c, code = some c ∧ kindOfCode c ≠ .classKind

theorem classBlockParts (b : DocBlock) : isClassBlock b = (otherClassTag b || b.has "mixins") := by
  simp only [isClassBlock, otherClassTag, List.any_cons, List.any_nil]
  cases b.has "mixins" <;> simp

theorem Alike.otherClassTag (alike : Alike b b') : SourceFile.otherClassTag b' = SourceFile.otherClassTag b := by
  have extended := alike.extended
  simp only [SourceFile.otherClassTag, List.any_cons, List.any_nil, alike.has "enum" (by decide),
    alike.has "singleton" (by decide), alike.tag "override" (by decide)]
  grind

theorem kindDeclared {c : Code} {kind : Kind} (decided : kind? b (some c) = some (kind, none)) (location : Location) :
    (declaration? b (some c) location).map Declaration.kind = some kind := by
  by_cases isClass : kind = .classKind
  · subst isClass
    simp [declaration?, decided, classDeclaration?, nameSpec]
  · simp [declaration?, decided, isClass, memberDeclaration?, nameSpec]

theorem undeclared (unnamed : b.tags.findSome? kindTag? = none) (location : Location) : declaration? b none location = none := by
  unfold declaration? kind?
  rw [unnamed]
  cases isClassBlock b <;> simp [classDeclaration?, nameSpec]

theorem classBlockDecides (alike : Alike b b') (differ : isClassBlock b' ≠ isClassBlock b) (code : Option Code) (location : Location) :
    declaration? b' code location = declaration? b code location ↔
      ¬((∀ tag ∈ b.tags, kindTag? tag = none) ∧ ∃ c, code = some c ∧ kindOfCode c ≠ .classKind) := by
  by_cases unnamed : b.tags.findSome? kindTag? = none
  · have unnamed' := alike.kindTag.trans unnamed
    cases code with
    | none => simp [undeclared unnamed, undeclared unnamed']
    | some c =>
      have decided (d : DocBlock) (none : d.tags.findSome? kindTag? = none) :
          kind? d (some c) = some (if isClassBlock d then .classKind else kindOfCode c, Option.none) := by
        rw [kind?, none]
        cases isClassBlock d <;> rfl
      by_cases isClass : kindOfCode c = .classKind
      · have same : kind? b' (some c) = kind? b (some c) := by
          rw [decided b unnamed, decided b' unnamed', isClass, ite_self, ite_self]
        simp [alike.declaration same, isClass]
      · have kinds := kindDeclared (decided b unnamed) location
        have kinds' := kindDeclared (decided b' unnamed') location
        have apart : declaration? b' (some c) location ≠ declaration? b (some c) location := by
          intro same
          rw [same, kinds] at kinds'
          cases first : isClassBlock b <;> cases second : isClassBlock b' <;> simp [first, second] at differ kinds' <;> grind
        simpa [apart, isClass] using unnamed
  · have same : kind? b' code = kind? b code := by
      obtain ⟨kind, found⟩ := Option.ne_none_iff_exists'.mp unnamed
      rw [kind?, kind?, alike.kindTag, found]
      rfl
    simp only [alike.declaration same, true_iff, not_and]
    exact fun none => absurd (List.findSome?_eq_none_iff.mpr none) unnamed

/-- The mixins under their other name. -/
theorem mixinsRenamed (spelled : (old, new) ∈ spellings) (mixes : old = "mixins" ∨ old = "mixin") (given : b.has old = true)
    (absent : b.has new = false) : (b.renamed old new).has "mixins" = !b.has "mixins" := by
  have others : ∀ spelling ∈ spellings, (spelling.1 = "mixins" → spelling.2 = "mixin") ∧
      (spelling.1 = "mixin" → spelling.2 = "mixins") := by decide +kernel
  obtain ⟨fromMixins, fromMixin⟩ := others _ spelled
  rcases mixes with rfl | rfl
  · obtain rfl := fromMixins rfl
    rw [given, DocBlock.has, DocBlock.tagFirst, DocBlock.taggedOld (by decide)]
    rfl
  · obtain rfl := fromMixin rfl
    rw [absent, DocBlock.has, DocBlock.tagFirst, DocBlock.taggedNew absent, List.head?_map, Option.isSome_map,
      ← DocBlock.tagFirst, ← DocBlock.has, given]
    rfl

/-- Where a comment uses one spelling of a tag, the other spelling makes the same declaration, or none as before, unless the tag
is the one of mixins and only its spelling makes the comment one of a class. -/
theorem spellingsAlike (spelled : (old, new) ∈ spellings) {raw : String}
    (single : ¬((Comment.parse raw).has old = true ∧ (Comment.parse raw).has new = true)) (code : Option Code) (location : Location) :
    declaration? (Comment.parse (Comment.respell old new raw)) code location =
        declaration? (Comment.parse raw) code location ↔
      ¬((old = "mixins" ∨ old = "mixin") ∧ (Comment.parse raw).has old = true ∧ OnlyMixins (Comment.parse raw) code) := by
  rw [Comment.parseRespelled (speakable spelled).1 (speakable spelled).2]
  generalize Comment.parse raw = b at single
  cases given : b.has old with
  | false => simp [DocBlock.renamedAbsent given]
  | true =>
    have absent : b.has new = false := by simpa [given] using single
    have alike := alikeRenamed spelled absent
    have parts := classBlockParts (b.renamed old new)
    rw [alike.otherClassTag] at parts
    by_cases mixes : old = "mixins" ∨ old = "mixin"
    · cases others : otherClassTag b with
      -- another tag makes it a comment of a class under either spelling
      | true =>
        have same : isClassBlock (b.renamed old new) = isClassBlock b := by rw [parts, classBlockParts, others]; rfl
        have decided : ¬OnlyMixins b code := fun only => by simp [only.others] at others
        simp [alike.declaration (alike.kind same code), decided]
      | false =>
        have differ : isClassBlock (b.renamed old new) ≠ isClassBlock b := by
          rw [parts, classBlockParts b, others, mixinsRenamed spelled mixes given absent]
          simp
        rw [classBlockDecides alike differ]
        refine not_congr ⟨fun ⟨unnamed, member⟩ => ⟨mixes, rfl, unnamed, others, member⟩, ?_⟩
        rintro ⟨-, -, only⟩
        exact ⟨only.unnamed, only.member⟩
    · rw [not_or] at mixes
      have partner : ∀ spelling ∈ spellings, spelling.2 = "mixins" → spelling.1 = "mixin" := by decide +kernel
      have other : new ≠ "mixins" := fun same => mixes.2 (partner _ spelled same)
      have stays : (b.renamed old new).has "mixins" = b.has "mixins" := by
        rw [DocBlock.has, DocBlock.has, DocBlock.tagFirst, DocBlock.tagFirst, DocBlock.taggedOther (Ne.symm mixes.1) (Ne.symm other)]
      have same : isClassBlock (b.renamed old new) = isClassBlock b := by rw [parts, classBlockParts, stays]
      simp [alike.declaration (alike.kind same code), mixes]

def panelComment : String := "*\n * A panel.\n * @mixin Observable\n "

def definedPanel : Code := .classDefinition { name := "Panel" }

def functionPanel : Code := .function ⟨"Panel", none, [], [], false⟩

theorem definedPanelAlike :
    ("mixin", "mixins") ∈ spellings ∧
      ¬((Comment.parse panelComment).has "mixin" = true ∧ (Comment.parse panelComment).has "mixins" = true) ∧
      declaration? (Comment.parse (Comment.respell "mixin" "mixins" panelComment)) (some definedPanel) ⟨"panel.js", 1⟩ =
        declaration? (Comment.parse panelComment) (some definedPanel) ⟨"panel.js", 1⟩ := by
  have spelled : ("mixin", "mixins") ∈ spellings := by decide
  have single : ¬((Comment.parse panelComment).has "mixin" = true ∧ (Comment.parse panelComment).has "mixins" = true) := by
    decide +kernel
  refine ⟨spelled, single, (spellingsAlike spelled single _ _).mpr ?_⟩
  rintro ⟨-, -, -, -, _, ⟨⟩, member⟩
  exact member rfl

/-- In front of a function, `@mixin` makes a method of what `@mixins` makes a class of. -/
theorem mixinMakesMethod :
    ("mixin", "mixins") ∈ spellings ∧
      ¬((Comment.parse panelComment).has "mixin" = true ∧ (Comment.parse panelComment).has "mixins" = true) ∧
      declaration? (Comment.parse (Comment.respell "mixin" "mixins" panelComment)) (some functionPanel) ⟨"panel.js", 1⟩ ≠
        declaration? (Comment.parse panelComment) (some functionPanel) ⟨"panel.js", 1⟩ := by
  have asClass : (declaration? (Comment.parse (Comment.respell "mixin" "mixins" panelComment)) (some functionPanel)
      ⟨"panel.js", 1⟩).map Declaration.kind = some .classKind := by decide +kernel
  have asMethod : (declaration? (Comment.parse panelComment) (some functionPanel) ⟨"panel.js", 1⟩).map Declaration.kind =
      some .method := by decide +kernel
  refine ⟨by decide, by decide +kernel, fun same => ?_⟩
  rw [same, asMethod] at asClass
  contradiction

end SourceFile
end ClassDocs
