import ClassDocs.Script.Parse.Program

/-! Equality of what is read. Trees are compared part by part, so that the reading of a given script can be computed. -/
namespace ClassDocs.Script

namespace Tree

mutual
def same : Tree → Tree → Bool
  | .literal raw value, .literal raw' value' => raw == raw' && value == value'
  | .identifier name, .identifier name' => name == name'
  | .this, .this => true
  | .paren inner, .paren inner' => same inner inner'
  | .array elements, .array elements' => sameAll elements elements'
  | .hole, .hole => true
  | .spread argument, .spread argument' => same argument argument'
  | .object members, .object members' => sameAll members members'
  | .property start key computed value, .property start' key' computed' value' =>
    start == start' && same key key' && computed == computed' && same value value'
  | .function start name params body, .function start' name' params' body' =>
    start == start' && name == name' && sameAll params params' && sameAll body body'
  | .arrow parts, .arrow parts' => sameAll parts parts'
  | .call start callee arguments, .call start' callee' arguments' =>
    start == start' && same callee callee' && sameAll arguments arguments'
  | .dot owner name, .dot owner' name' => same owner owner' && name == name'
  | .index owner key, .index owner' key' => same owner owner' && same key key'
  | .unary operator argument, .unary operator' argument' => operator == operator' && same argument argument'
  | .binary operator left right, .binary operator' left' right' =>
    operator == operator' && same left left' && same right right'
  | .logical operator left right, .logical operator' left' right' =>
    operator == operator' && same left left' && same right right'
  | .conditional test yes no, .conditional test' yes' no' => same test test' && same yes yes' && same no no'
  | .assign start operator target value, .assign start' operator' target' value' =>
    start == start' && operator == operator' && same target target' && same value value'
  | .declare start declarators, .declare start' declarators' => start == start' && sameAll declarators declarators'
  | .declarator target value, .declarator target' value' => same target target' && sameOption value value'
  | .pattern parts, .pattern parts' => sameAll parts parts'
  | .ret argument, .ret argument' => sameOption argument argument'
  | .effect expression, .effect expression' => same expression expression'
  | .constant nodeType text, .constant nodeType' text' => nodeType == nodeType' && text == text'
  | .group nodeType parts, .group nodeType' parts' => nodeType == nodeType' && sameAll parts parts'
  | _, _ => false

def sameAll : List Tree → List Tree → Bool
  | [], [] => true
  | t :: ts, u :: us => same t u && sameAll ts us
  | _, _ => false

def sameOption : Option Tree → Option Tree → Bool
  | none, none => true
  | some t, some u => same t u
  | _, _ => false
end

theorem sameParts : (∀ t u : Tree, same t u = true → t = u) ∧ (∀ t u : Option Tree, sameOption t u = true → t = u) ∧
    ∀ ts us : List Tree, sameAll ts us = true → ts = us := by
  apply same.mutual_induct
  all_goals intros
  all_goals simp_all [same, sameAll, sameOption]

mutual
theorem sameSelf : ∀ t : Tree, same t t = true
  | .literal .. | .identifier _ | .this | .hole | .constant .. => by simp [same]
  | .paren t | .spread t | .effect t | .dot t _ | .unary _ t => by simp [same, sameSelf t]
  | .array ts | .object ts | .arrow ts | .declare _ ts | .pattern ts | .group _ ts => by simp [same, sameAllSelf ts]
  | .property _ t _ u | .index t u | .binary _ t u | .logical _ t u | .assign _ _ t u => by simp [same, sameSelf t, sameSelf u]
  | .function _ _ ts us => by simp [same, sameAllSelf ts, sameAllSelf us]
  | .call _ t ts => by simp [same, sameSelf t, sameAllSelf ts]
  | .conditional t u v => by simp [same, sameSelf t, sameSelf u, sameSelf v]
  | .declarator t none => by simp [same, sameOption, sameSelf t]
  | .declarator t (some u) => by simp [same, sameOption, sameSelf t, sameSelf u]
  | .ret none => by simp [same, sameOption]
  | .ret (some t) => by simp [same, sameOption, sameSelf t]

theorem sameAllSelf : ∀ ts : List Tree, sameAll ts ts = true
  | [] => by simp [sameAll]
  | t :: ts => by simp [sameAll, sameSelf t, sameAllSelf ts]
end

instance : DecidableEq Tree := fun t u =>
  decidable_of_iff (same t u = true) ⟨sameParts.1 t u, fun h => h ▸ sameSelf t⟩

end Tree

deriving instance DecidableEq for Program

instance exceptDecidable {ε α : Type} [DecidableEq ε] [DecidableEq α] : DecidableEq (Except ε α)
  | .ok a, .ok b => decidable_of_iff (a = b) ⟨congrArg Except.ok, Except.ok.inj⟩
  | .error e, .error f => decidable_of_iff (e = f) ⟨congrArg Except.error, Except.error.inj⟩
  | .ok _, .error _ => isFalse (by simp)
  | .error _, .ok _ => isFalse (by simp)

end ClassDocs.Script
