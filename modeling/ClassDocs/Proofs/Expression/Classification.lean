import ClassDocs.Expression.Classify

/-! Classes against values. An expression that has a value is classified as that value is, except for texts
in which no string literal takes part: only their evaluation tells that they are texts. -/
namespace ClassDocs

def Literal.isRegex : Literal → Bool
  | .regex _ => true
  | _ => false

namespace Value

def isText : Value → Bool
  | .string _ => true
  | _ => false

/-- The class of the expressions that have this value. -/
def resultClass : Value → ResultClass
  | .string _ => .string
  | .boolean _ => .boolean
  | .regex _ => .regexp
  | .number _ | .unclassified _ | .array _ | .object _ => .other

theorem concatText {left right v : Value} (h : left.concat right = .ok v) :
    v.isText = (left.isText || right.isText) ∧ v.resultClass = if v.isText then .string else .other := by
  unfold concat at h
  split at h <;> first | contradiction | (cases h; exact ⟨rfl, rfl⟩)

end Value

namespace Expression

/- What `+` puts together; an expression without `+` stands alone. -/
def operands : Expression → List Expression
  | .binary operator left right =>
    if operator = "+" then operands left ++ operands right else [.binary operator left right]
  | e => [e]

def isStringLiteral : Expression → Bool
  | .literal _ (.string _) => true
  | _ => false

/- The source text of a literal tells whether it is a regular expression. No other literal of the
expression counts: arrays and objects are classified without a look at what is in them. -/
def RawsFit (e : Expression) : Prop :=
  ∀ raw value, .literal raw value ∈ e.operands → (startsWithSlash raw = true ↔ value.isRegex = true)

theorem evaluatePlus {operator : String} {left right : Expression} {v : Value}
    (h : (binary operator left right).evaluate = .ok v) :
    operator = "+" ∧ ∃ l r, left.evaluate = .ok l ∧ right.evaluate = .ok r ∧ l.concat r = .ok v := by
  rw [evaluate] at h
  split at h
  · rename_i plus
    cases hl : left.evaluate with
    | error => rw [hl] at h; contradiction
    | ok l =>
      cases hr : right.evaluate with
      | error => rw [hl, hr] at h; contradiction
      | ok r =>
        rw [hl, hr] at h
        exact ⟨plus, l, r, rfl, rfl, h⟩
  · contradiction

theorem valueOfLiteral {raw : String} {value : Literal} {v : Value} (fits : startsWithSlash raw = true ↔ value.isRegex = true)
    (h : (literal raw value).evaluate = .ok v) :
    (literal raw value).classify = v.resultClass ∧ v.isText = isStringLiteral (literal raw value) := by
  rw [evaluate] at h
  cases h
  cases value <;> simp_all [Literal.evaluate, Literal.isRegex, classify, isUndefined, isThis, isBoolean, isString, isRegexp,
    Value.resultClass, Value.isText, isStringLiteral]

/- A string literal makes a text of whatever it is put together with. -/
theorem textOfOperands {e : Expression} {v : Value} (fits : e.RawsFit) (h : e.evaluate = .ok v) :
    e.isString = e.operands.any isStringLiteral ∧ (e.operands.any isStringLiteral = true → v.isText = true) := by
  unfold RawsFit at fits
  fun_induction operands e generalizing v with
  | case1 left right ihLeft ihRight =>
    obtain ⟨-, l, r, hl, hr, both⟩ := evaluatePlus h
    obtain ⟨leftString, leftText⟩ := ihLeft (fun raw value hm => fits raw value (List.mem_append_left _ hm)) hl
    obtain ⟨rightString, rightText⟩ := ihRight (fun raw value hm => fits raw value (List.mem_append_right _ hm)) hr
    rw [List.any_append]
    refine ⟨by simp [isString, leftString, rightString], fun literal => ?_⟩
    rw [(Value.concatText both).1, Bool.or_eq_true]
    exact (Bool.or_eq_true_iff.mp literal).imp leftText rightText
  | case2 operator left right other => exact absurd (evaluatePlus h).1 other
  | case3 e alone =>
    cases e with
    | literal raw value =>
      obtain ⟨-, text⟩ := valueOfLiteral (fits raw value List.mem_cons_self) h
      cases value <;> simp_all [isString, isStringLiteral]
    | binary operator left right => exact absurd rfl (alone operator left right)
    | array | object | member => exact ⟨rfl, nofun⟩
    | _ => contradiction

/-- An expression has the class of its value, except that a text without a string literal in it is told from nothing. -/
theorem classifiedByValue {e : Expression} {v : Value} (fits : e.RawsFit) (h : e.evaluate = .ok v) :
    e.classify = if v.isText && !e.operands.any isStringLiteral then .other else v.resultClass := by
  cases e with
  | literal raw value =>
    obtain ⟨same, text⟩ := valueOfLiteral (fits raw value List.mem_cons_self) h
    simp [operands, text, same]
  | array elements =>
    rw [evaluate] at h
    cases items : evaluateAll elements with
    | error => rw [items] at h; contradiction
    | ok => rw [items] at h; cases h; rfl
  | object entries =>
    rw [evaluate] at h
    cases values : evaluateEntries [] entries with
    | error => rw [values] at h; contradiction
    | ok => rw [values] at h; cases h; rfl
  -- of the operators only + gives a value, and then that of a text
  | binary operator left right =>
    obtain ⟨string, text⟩ := textOfOperands fits h
    obtain ⟨rfl, l, r, -, -, both⟩ := evaluatePlus h
    have kind := (Value.concatText both).2
    have unlike : booleanOperators.contains "+" = false := by decide
    rw [classify, isBoolean, string, kind, unlike]
    cases literal : (binary "+" left right).operands.any isStringLiteral with
    | true => rw [text literal]; rfl
    | false => cases v.isText <;> rfl
  | member owner property computed =>
    rw [evaluate] at h
    split at h
    · cases h
      rfl
    · contradiction
  | _ => contradiction

/- The framework's prefix of style classes, and the name of a style class that begins with it. -/
def prefixConstant : Expression := .dot (.identifier "Ext") "baseCSSPrefix"

theorem panelStyleClassified : RawsFit (.binary "+" prefixConstant (.ofString "panel")) ∧
    evaluate (.binary "+" prefixConstant (.ofString "panel")) = .ok (.string "x-panel") ∧
    classify (.binary "+" prefixConstant (.ofString "panel")) = .string := by
  have fits : RawsFit (.binary "+" prefixConstant (.ofString "panel")) := by
    intro raw value operand
    simp only [operands, prefixConstant, dot, ofString, if_true, List.cons_append, List.nil_append, List.mem_cons,
      List.not_mem_nil, or_false, reduceCtorEq, false_or, literal.injEq] at operand
    obtain ⟨rfl, rfl⟩ := operand
    decide
  have value : evaluate (.binary "+" prefixConstant (.ofString "panel")) = .ok (.string "x-panel") := by rfl
  exact ⟨fits, value, classifiedByValue fits value⟩

theorem prefixUnclassified : (∀ raw value, .literal raw value ∉ prefixConstant.operands) ∧
    prefixConstant.evaluate = .ok (.string "x-") ∧ Value.resultClass (.string "x-") = .string ∧
    prefixConstant.classify = .other := by
  refine ⟨fun raw value operand => ?_, by rfl, rfl, rfl⟩
  cases List.mem_singleton.mp operand

end Expression
end ClassDocs
