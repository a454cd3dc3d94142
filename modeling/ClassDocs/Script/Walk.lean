import ClassDocs.Script.Tree

/-! The trees inside a tree. -/
namespace ClassDocs.Script

namespace Tree

def parts : Tree → List Tree
  | .paren inner => [inner]
  | .array elements => elements
  | .spread argument => [argument]
  | .object members => members
  | .property _ key _ value => [key, value]
  | .function _ _ params body => params ++ body
  | .arrow inside => inside
  | .call _ callee arguments => callee :: arguments
  | .dot target _ => [target]
  | .index target key => [target, key]
  | .unary _ argument => [argument]
  | .binary _ left right => [left, right]
  | .logical _ left right => [left, right]
  | .conditional test consequent alternate => [test, consequent, alternate]
  | .assign _ _ target value => [target, value]
  | .declare _ declarators => declarators
  | .declarator target value => target :: value.toList
  | .pattern inside => inside
  | .ret argument => argument.toList
  | .effect inside => [inside]
  | .group _ inside => inside
  | _ => []

theorem sizeOfElement {t : Tree} {ts : List Tree} (h : t ∈ ts) : sizeOf t < sizeOf ts :=
  List.sizeOf_lt_of_mem h

theorem sizeOfPart {t part : Tree} (h : part ∈ t.parts) : sizeOf part < sizeOf t := by
  cases t <;> simp [parts] at h <;> simp <;> grind [→ sizeOfElement]

/-- A tree and everything inside it, outer trees first, without the inside of trees that are not
to be entered. -/
def subtrees (enter : Tree → Bool) (t : Tree) : List Tree :=
  t :: if enter t then t.parts.attach.flatMap fun ⟨part, _⟩ => subtrees enter part else []
termination_by sizeOf t
decreasing_by exact sizeOfPart ‹_›

end Tree
end ClassDocs.Script
