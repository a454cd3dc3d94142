import ClassDocs.SourceFile
import ClassDocs.Proofs.Script.Lists
import ClassDocs.Proofs.Script.Operands

/-! Literals of values, read back. The quotes inside a string are escaped and nothing else, and keys stand as they are:
values without backslashes and line ends, whose keys are names or numbers, come back as they were. -/
namespace ClassDocs
open Script Parse

namespace Value

def chars (v : Value) : List Char := v.literal.toList

theorem charsString (s : String) : chars (.string s) = '\'' :: (quotesEscaped s.toList ++ ['\'']) := by
  simp [chars, literal, quoted, quotesEscaped]

theorem charsBoolean (b : Bool) : chars (.boolean b) = (booleanText b).toList := rfl

theorem itemLiteralsMap (items : List Value) : itemLiterals items = items.map literal := by
  induction items with
  | nil => rfl
  | cons v items ih => rw [itemLiterals, ih, List.map_cons]

theorem entryLiteralsMap (entries : List (String × Value)) :
    entryLiterals entries = entries.map fun entry => entry.1 ++ ": " ++ entry.2.literal := by
  induction entries with
  | nil => rfl
  | cons entry entries ih => rw [entryLiterals, ih, List.map_cons]

theorem charsArray (items : List Value) : chars (.array items) = '[' :: listed ']' (items.map chars) := by
  have text : (literal (.array items)).toList = '[' :: ((Text.joined ", " (itemLiterals items)).toList ++ [']']) := by
    simp [literal]
  rw [chars, text, listedJoined, itemLiteralsMap, List.map_map]
  rfl

def entryChars (entry : String × Value) : List Char := entry.1.toList ++ ':' :: ' ' :: entry.2.chars

theorem charsObject (entries : List (String × Value)) : chars (.object entries) = '\x7b' :: listed '\x7d' (entries.map entryChars) := by
  have text : (literal (.object entries)).toList = '\x7b' :: ((Text.joined ", " (entryLiterals entries)).toList ++ ['\x7d']) := by
    simp [literal]
  rw [chars, text, listedJoined, entryLiteralsMap, List.map_map]
  congr 2
  refine List.map_congr_left fun entry _ => ?_
  simp [entryChars, chars]

/-- Whether a key without quotes stands for itself: as a name, or as a numeral in the spelling in which its number is
written. -/
def bareKey (key : String) : Bool :=
  match key.toList with
  | [] => false
  | c :: rest =>
    if isNameStart c then rest.all isNamePart
    else c.isDigit && match numeral? (c :: rest) with
      | some ⟨.number x, raw, []⟩ => raw == c :: rest && Number.text x == key
      | _ => false

/-- Values of strings, booleans, arrays and objects whose literals say what they are: no string has a backslash or a line
end, and keys stand for themselves. -/
inductive Plain : Value → Prop where
  | string {s : String} (spelled : spelledOut s.toList = true) : Plain (.string s)
  | boolean (b : Bool) : Plain (.boolean b)
  | array {items : List Value} (each : ∀ v ∈ items, Plain v) : Plain (.array items)
  | object {entries : List (String × Value)} (each : ∀ entry ∈ entries, Plain entry.2)
      (bare : ∀ entry ∈ entries, bareKey entry.1 = true) (distinct : (entries.map Prod.fst).Nodup) : Plain (.object entries)

section
variable {limit : Nat} {m : Char} {rest : List Char} (mark : m ∈ [',', ')', ']', '\x7d'])
include mark

theorem markEndsName : EndsName (m :: rest) := by
  intro c here
  cases here
  simp only [List.mem_cons, List.not_mem_nil, or_false] at mark
  rcases mark with rfl | rfl | rfl | rfl <;> exact ⟨by decide +kernel, by decide⟩

theorem booleanOpens (b : Bool) (fits : (Value.chars (.boolean b) ++ m :: rest).length < limit) :
    Opens limit (Value.chars (.boolean b) ++ m :: rest) ⟨.name (booleanText b) false, (booleanText b).toList, m :: rest⟩ := by
  have fits : (booleanText b).toList.length ≤ limit := by
    rw [charsBoolean, List.length_append] at fits
    omega
  cases b with
  | true => exact nameOpens ⟨'t', ['r', 'u', 'e'], by decide +kernel, List.all_eq_true.mp (by decide +kernel)⟩ (markEndsName mark) fits
  | false => exact nameOpens ⟨'f', ['a', 'l', 's', 'e'], by decide +kernel, List.all_eq_true.mp (by decide +kernel)⟩ (markEndsName mark) fits

theorem valueOpens {v : Value} (plain : v.Plain) (fits : (v.chars ++ m :: rest).length < limit) :
    ∃ l, Opens limit (v.chars ++ m :: rest) l ∧ opensOperand l.token = true ∧ l.token ≠ .punctuator "(" := by
  cases plain with
  | @string s spelled =>
    rw [charsString] at fits ⊢
    simp only [List.cons_append, List.append_assoc] at fits ⊢
    refine ⟨_, stringOpens spelled ?_ (m :: rest), rfl, nofun⟩
    simp at fits
    omega
  | boolean b => exact ⟨_, booleanOpens mark b fits, by cases b <;> rfl, nofun⟩
  | array each =>
    rw [charsArray]
    exact ⟨_, markOpens (by decide) limit _, rfl, fun same => absurd (Token.punctuator.inj same) (by decide)⟩
  | object each bare distinct =>
    rw [charsObject]
    exact ⟨_, markOpens (by decide) limit _, rfl, fun same => absurd (Token.punctuator.inj same) (by decide)⟩

end
/-- The tokens that keys without quotes are. -/
def IsKey (key : String) (token : Token) : Prop :=
  token = .name key false ∨ ∃ x, token = .number x ∧ Number.text x = key ∧ startsWithSlash key = false

theorem keyOpens {key : String} (bare : bareKey key = true) {limit : Nat} {rest : List Char}
    (fits : (key.toList ++ ':' :: rest).length < limit) :
    ∃ token, Opens limit (key.toList ++ ':' :: rest) ⟨token, key.toList, ':' :: rest⟩ ∧ IsKey key token := by
  have named : String.ofList key.toList = key := String.ofList_toList
  unfold bareKey at bare
  split at bare
  · contradiction
  · rename_i c more text
    rw [text] at fits named ⊢
    split at bare
    · rename_i starts
      have colon : EndsName (':' :: rest) := by
        intro c here
        cases here
        exact ⟨by decide +kernel, by decide⟩
      have enough : (c :: more).length ≤ limit := by
        rw [List.length_append] at fits
        omega
      have opens := nameOpens ⟨c, more, starts, List.all_eq_true.mp bare⟩ colon enough
      simp only [Identifier.text, named] at opens
      exact ⟨_, opens, .inl rfl⟩
    · simp only [Bool.and_eq_true] at bare
      obtain ⟨digit, bare⟩ := bare
      split at bare
      · rename_i x raw read
        simp only [Bool.and_eq_true, beq_iff_eq] at bare
        obtain ⟨rfl, number⟩ := bare
        -- a literal that begins with a slash would be taken for a pattern
        have noSlash : startsWithSlash key = false := by
          simp only [startsWithSlash, text, List.head?_cons, beq_eq_false_iff_ne]
          rintro same
          cases same
          exact absurd digit (by decide)
        exact ⟨_, numeralOpens (s := c :: more) digit read limit rest, .inr ⟨x, rfl, number, noSlash⟩⟩
      · contradiction

/-- Whatever mark may follow, the reader gives a tree whose value is `v`, and stops in front of the mark. -/
def Reads (g : Grammar) (v : Value) : Prop :=
  ∀ ctx c m rest, m ∈ [',', ')', ']', '\x7d'] → c.On ctx.limit (v.chars ++ m :: rest) →
    ∃ t d, g .assignment ctx c = .ok (t, d) ∧ t.lower.evaluate = .ok v ∧ d.On ctx.limit (m :: rest)

theorem markOn {limit : Nat} {m : Char} {rest : List Char} {d : Cursor} (mark : m ∈ [',', ')', ']', '\x7d']) (on : d.On limit (m :: rest)) :
    EndsAt d (String.singleton m) := by
  simp only [List.mem_cons, List.not_mem_nil, or_false] at mark
  rcases mark with rfl | rfl | rfl | rfl
  all_goals exact ⟨(on.is (markOpens (by decide) limit rest)).1, by decide⟩

theorem opensBehind {v : Value} (plain : v.Plain) {limit : Nat} {close : Char} (mark : close ∈ [')', ']', '\x7d']) {s after : List Char}
    (parted : Behind limit close s after) (fits : (v.chars ++ s).length < limit) :
    ∃ l, Opens limit (v.chars ++ s) l ∧ opensOperand l.token = true ∧ l.token ≠ .punctuator "(" := by
  cases parted with
  | comma => exact valueOpens (by decide) plain fits
  | close => exact valueOpens (by simp only [List.mem_cons] at mark ⊢; tauto) plain fits

theorem valuesOpen {items : List Value} (plain : ∀ v ∈ items, v.Plain) {limit : Nat} : ∀ v ∈ items, ∀ s after,
    Behind limit ']' s after → (v.chars ++ s).length < limit → ∃ l, Opens limit (v.chars ++ s) l :=
  fun v member _ _ parted fits => (opensBehind (plain v member) (by decide) parted fits).imp fun _ h => h.1

theorem Reads.item {g : Grammar} {v : Value} (reads : Reads g v) {ctx : Context} {close : Char} (mark : close ∈ [')', ']', '\x7d'])
    {behind after : List Char} (parted : Behind ctx.limit close behind after) {c : Cursor} (on : c.On ctx.limit (v.chars ++ behind)) :
    ∃ t d, g .assignment ctx c = .ok (t, d) ∧ t.lower.evaluate = .ok v ∧ d.On ctx.limit behind := by
  cases parted with
  | comma => exact reads ctx c _ _ (by decide) on
  | close => exact reads ctx c _ _ (by simp only [List.mem_cons] at mark ⊢; tauto) on

theorem readsOfPrimary {g : Grammar} {v : Value} (plain : v.Plain)
    (first : ∀ ctx c m rest, m ∈ [',', ')', ']', '\x7d'] → c.On ctx.limit (v.chars ++ m :: rest) →
      ∃ t d, primary g ctx c = .ok (t, d) ∧ t.lower.evaluate = .ok v ∧ d.On ctx.limit (m :: rest)) {ctx : Context} {c : Cursor}
    {m : Char} {rest : List Char} (mark : m ∈ [',', ')', ']', '\x7d']) (on : c.On ctx.limit (v.chars ++ m :: rest)) :
    ∃ t d, assignment g ctx c = .ok (t, d) ∧ t.lower.evaluate = .ok v ∧ d.On ctx.limit (m :: rest) := by
  obtain ⟨l, opens, operand, inner⟩ := valueOpens mark plain on.fits
  rw [← (on.is opens).1] at operand inner
  obtain ⟨t, d, read, value, on⟩ := first ctx c m rest mark on
  exact ⟨t, d, assignmentAlone operand (noArrow operand inner) read (markOn mark on), value, on⟩

theorem lowerAllAppend (ts : List Tree) (t : Tree) : Tree.lowerAll (ts ++ [t]) = Tree.lowerAll ts ++ [t.lower] := by
  induction ts with
  | nil => rfl
  | cons first ts ih => simp [Tree.lowerAll, ih]

theorem evaluateAllAppend {es : List Expression} {vs : List Value} (all : Expression.evaluateAll es = .ok vs) {e : Expression} {v : Value}
    (last : e.evaluate = .ok v) : Expression.evaluateAll (es ++ [e]) = .ok (vs ++ [v]) := by
  induction es generalizing vs with
  | nil =>
    cases all
    simp [Expression.evaluateAll, last, bind, Except.bind]
  | cons first es ih =>
    simp only [Expression.evaluateAll, bind] at all
    cases hv : first.evaluate with
    | error error => simp [hv, Except.bind] at all
    | ok v =>
      cases hvs : Expression.evaluateAll es with
      | error error => simp [hv, hvs, Except.bind] at all
      | ok vs =>
        simp only [hv, hvs, Except.bind] at all
        cases all
        simp [Expression.evaluateAll, hv, ih hvs, bind, Except.bind]

theorem lowerMembersAppend (ts : List Tree) (start : Nat) (key value : Tree) (computed : Bool) :
    Tree.lowerMembers (ts ++ [.property start key computed value]) = Tree.lowerMembers ts ++ [(key.lower, value.lower)] := by
  induction ts with
  | nil => simp [Tree.lowerMembers]
  | cons first ts ih => cases first <;> simp [Tree.lowerMembers, ih]

theorem evaluateEntriesAppend {es : List (Expression × Expression)} {before entries : List (String × Value)}
    (all : Expression.evaluateEntries before es = .ok entries) {key e : Expression} {k : String} {v : Value} (named : key.keyText = .ok k)
    (last : e.evaluate = .ok v) : Expression.evaluateEntries before (es ++ [(key, e)]) = .ok (setEntry entries k v) := by
  induction es generalizing before with
  | nil =>
    cases all
    simp [Expression.evaluateEntries, named, last, bind, Except.bind]
  | cons first es ih =>
    obtain ⟨key', e'⟩ := first
    simp only [Expression.evaluateEntries, bind] at all
    cases hk : key'.keyText with
    | error error => simp [hk, Except.bind] at all
    | ok k' =>
      cases hv : e'.evaluate with
      | error error => simp [hk, hv, Except.bind] at all
      | ok v' =>
        simp only [hk, hv, Except.bind] at all
        simp [Expression.evaluateEntries, hk, hv, ih all, bind, Except.bind]

section
variable {g : Grammar} {ctx : Context} {c : Cursor}

theorem propertyKeyRead {key : String} {d : Cursor} (keyed : IsKey key c.token) (raw : c.raw = key.toList)
    (next : c.next ctx.limit = .ok d) :
    ∃ t, propertyKey g ctx c = .ok ((t, false), d) ∧ t.lower.keyText = .ok key := by
  rcases keyed with token | ⟨x, token, number, noSlash⟩
  · exact ⟨.identifier key, by simp [propertyKey, token, runAdvance next], rfl⟩
  · refine ⟨.literal key (.number x), by simp [propertyKey, token, runAdvance next, raw], ?_⟩
    simp [Tree.lower, Expression.keyText, Literal.evaluate, noSlash, scalarText?, number]

theorem keyOther {key : String} (keyed : IsKey key c.token) {mark : String} (same : c.token = .punctuator mark) : False := by
  rcases keyed with token | ⟨x, token, -⟩ <;> simp [token] at same

theorem entryOpens {entries : List (String × Value)} (bare : ∀ entry ∈ entries, bareKey entry.1 = true) (limit : Nat) :
    ∀ entry ∈ entries, ∀ s after, Behind limit '\x7d' s after → (entryChars entry ++ s).length < limit →
      ∃ l, Opens limit (entryChars entry ++ s) l := by
  intro entry member s after parted fits
  rw [entryChars, List.append_assoc] at fits ⊢
  obtain ⟨token, opens, -⟩ := keyOpens (bare entry member) fits
  exact ⟨_, opens⟩

/-- The cursors at the colon of an entry and at its value. -/
theorem entryCursors {entry : String × Value} (bare : bareKey entry.1 = true) {behind : List Char} {limit : Nat}
    (opens : (entry.2.chars ++ behind).length < limit → ∃ l, Opens limit (entry.2.chars ++ behind) l)
    (on : c.On limit (entryChars entry ++ behind)) : IsKey entry.1 c.token ∧ c.raw = entry.1.toList ∧
      ∃ colon first, c.next limit = .ok colon ∧ colon.token = .punctuator ":" ∧ colon.next limit = .ok first ∧
        first.On limit (entry.2.chars ++ behind) := by
  have fits := on.fits
  rw [entryChars, List.append_assoc, List.cons_append, List.cons_append] at on fits
  obtain ⟨token, keyHere, keyed⟩ := keyOpens bare fits
  obtain ⟨here, raw, rest⟩ := on.is keyHere
  rw [List.length_append, List.length_cons, List.length_cons] at fits
  obtain ⟨colon, next, onColon⟩ := nextOn on (markOpens (by decide) limit _) (by simp only [List.length_cons]; omega) (.inl rest)
  obtain ⟨isColon, -, rest⟩ := onColon.is (markOpens (by decide) limit _)
  obtain ⟨l, opens⟩ := opens (by omega)
  obtain ⟨first, next', onFirst⟩ := nextOn onColon opens (by omega) (.inr rest)
  exact ⟨here ▸ keyed, raw, colon, first, next, isColon, next', onFirst⟩

theorem memberRead {entry : String × Value} (bare : bareKey entry.1 = true) (plain : entry.2.Plain) (reads : Reads g entry.2)
    {behind after : List Char} (parted : Behind ctx.limit '\x7d' behind after) (on : c.On ctx.limit (entryChars entry ++ behind)) :
    (∀ mark, c.token ≠ .punctuator mark) ∧ ∃ start key value d, objectMember g ctx c = .ok (.property start key false value, d) ∧ key.lower.keyText = .ok entry.1 ∧
      value.lower.evaluate = .ok entry.2 ∧ d.On ctx.limit behind := by
  have opens (fits : (entry.2.chars ++ behind).length < ctx.limit) : ∃ l, Opens ctx.limit (entry.2.chars ++ behind) l :=
    (opensBehind plain (by decide) parted fits).imp fun _ h => h.1
  obtain ⟨keyed, raw, colon, first, next, isColon, next', on⟩ := entryCursors bare opens on
  obtain ⟨key, named, text⟩ := propertyKeyRead (g := g) keyed raw next
  obtain ⟨value, d, read, evaluated, on⟩ := reads.item (by decide) parted on
  have noSpread : accept (.punctuator "...") ctx c = .ok (false, c) := runAcceptOther (keyOther keyed)
  have plainMember := noMarks (keyed.imp (fun h => ⟨_, h⟩) fun ⟨x, h, _⟩ => ⟨x, h⟩) next isColon
  refine ⟨fun _ => keyOther keyed, c.start, key, value, d, ?_, text, evaluated, on⟩
  simp [objectMember, acceptMark, noSpread, plainMember, named, MethodMarks.isPlain, isColon, runAccept isColon next', read]

end

theorem restOpens {m : Char} (mark : m ∈ [',', ')', ']', '\x7d']) (limit : Nat) (rest : List Char) :
    ∃ l, Opens limit (m :: rest) l :=
  ⟨_, markOpens (by simp only [List.mem_cons, List.not_mem_nil, or_false] at mark ⊢; tauto) limit rest⟩

section
variable {g : Grammar} {ctx : Context} {c : Cursor} {m : Char} {rest : List Char} (mark : m ∈ [',', ')', ']', '\x7d'])
include mark

theorem stringRead {s : String} (spelled : spelledOut s.toList = true) (on : c.On ctx.limit (chars (.string s) ++ m :: rest)) :
    ∃ t d, primary g ctx c = .ok (t, d) ∧ t.lower.evaluate = .ok (.string s) ∧ d.On ctx.limit (m :: rest) := by
  have fits := on.fits
  rw [charsString] at on fits
  simp only [List.cons_append, List.append_assoc, List.nil_append] at on fits
  obtain ⟨token, raw, behind⟩ := on.is (stringOpens spelled (by simp at fits; omega) (m :: rest))
  obtain ⟨l, opens⟩ := restOpens mark ctx.limit rest
  obtain ⟨d, next, on⟩ := nextOn on opens (by simp at fits ⊢; omega) (.inl behind)
  refine ⟨.literal (String.ofList c.raw) (.string s), d, ?_, ?_, on⟩
  · simp [primary, token, runAdvance next, String.ofList_toList]
  · have noSlash : startsWithSlash (String.ofList c.raw) = false := by simp [startsWithSlash, raw]
    simp [Tree.lower, Expression.evaluate, Literal.evaluate, noSlash]

theorem booleanRead {b : Bool} (on : c.On ctx.limit (chars (.boolean b) ++ m :: rest)) :
    ∃ t d, primary g ctx c = .ok (t, d) ∧ t.lower.evaluate = .ok (.boolean b) ∧ d.On ctx.limit (m :: rest) := by
  have fits := on.fits
  obtain ⟨token, -, behind⟩ := on.is (booleanOpens mark b on.fits)
  obtain ⟨l, opens⟩ := restOpens mark ctx.limit rest
  obtain ⟨d, next, on⟩ := nextOn on opens (by simp at fits ⊢; omega) (.inl behind)
  refine ⟨.literal (booleanText b) (.boolean b), d, ?_, by cases b <;> rfl, on⟩
  cases b <;> simp [primary, namedPrimary, token, runAdvance next, booleanText]

theorem closeRead {close : Char} (closing : close ∈ [')', ']', '\x7d']) (on : c.On ctx.limit (close :: m :: rest)) :
    ∃ d, accept (.punctuator (String.singleton close)) ctx c = .ok (true, d) ∧ d.On ctx.limit (m :: rest) := by
  have single : close ∈ [',', ':', ';', '(', ')', '[', ']', '\x7b', '\x7d'] := by
    simp only [List.mem_cons] at closing ⊢
    tauto
  obtain ⟨token, -, behind⟩ := on.is (markOpens single ctx.limit _)
  obtain ⟨l, opens⟩ := restOpens mark ctx.limit rest
  have fits := on.fits
  obtain ⟨d, next, on⟩ := nextOn on opens (by simp at fits ⊢; omega) (.inl behind)
  exact ⟨d, runAccept token next, on⟩

theorem elementsRead {items : List Value} (plain : ∀ v ∈ items, v.Plain) (reads : ∀ v ∈ items, Reads g v)
    (on : c.On ctx.limit (listed ']' (items.map chars) ++ m :: rest)) :
    ∃ t d, arrayRest g ctx c = .ok (t, d) ∧ t.lower.evaluate = .ok (.array items) ∧ d.On ctx.limit (m :: rest) := by
  have enough : items.length < ctx.limit + 2 := by
    have lengths := listedLength ']' (items.map chars)
    have fits := on.fits
    simp at fits lengths
    omega
  obtain ⟨inner, same⟩ : ∃ inner : Context, inner = { ctx with inAllowed := true } := ⟨_, rfl⟩
  have limit : ctx.limit = inner.limit := by rw [same]
  rw [arrayRest, allowingIn, runWithReader, ← same, loop, runBind, runRead, okBind]
  rw [limit] at on enough ⊢
  refine (listRead (valuesOpen plain) (by decide) (I := fun done (ts : List Tree) => Expression.evaluateAll (Tree.lowerAll ts.reverse) = .ok done)
    (R := fun (t : Tree) => t.lower.evaluate = .ok (.array items)) ?_ ?_ (List.nil_append items) rfl enough on).ok
  · intro done v more whole ts c behind after kept parted on
    have member : v ∈ items := whole ▸ by simp
    obtain ⟨l, opens, operand, -⟩ := opensBehind (plain v member) (by decide) parted on.fits
    rw [← (on.is opens).1] at operand
    obtain ⟨t, d, read, value, on⟩ := (reads v member).item (by decide) parted on
    have added : Expression.evaluateAll (Tree.lowerAll (ts.reverse ++ [t])) = .ok (done ++ [v]) := by
      rw [lowerAllAppend]
      exact evaluateAllAppend kept value
    rcases behindPassed (by decide) parted on with ⟨closing, on⟩ | ⟨comma, e, next, on⟩
    · have closing : d.token = .punctuator "]" := closing
      simp [acceptMark, spreadOr, operandOther operand, read, closing, Leads, added, on]
    · simp [acceptMark, spreadOr, operandOther operand, read, comma, runExpectMark comma next, Leads, added, on]
  · intro ts c kept on
    obtain ⟨d, closed, on⟩ := closeRead mark (by decide) on
    have closed : accept (.punctuator "]") inner c = .ok (true, d) := closed
    simp [acceptMark, closed, Leads, on, Tree.lower, Expression.evaluate, kept]

theorem entriesRead {entries : List (String × Value)} (bare : ∀ entry ∈ entries, bareKey entry.1 = true)
    (plain : ∀ entry ∈ entries, entry.2.Plain) (distinct : (entries.map Prod.fst).Nodup) (reads : ∀ entry ∈ entries, Reads g entry.2)
    (on : c.On ctx.limit (listed '\x7d' (entries.map entryChars) ++ m :: rest)) :
    ∃ t d, objectRest g ctx c = .ok (t, d) ∧ t.lower.evaluate = .ok (.object entries) ∧ d.On ctx.limit (m :: rest) := by
  have starts := entryOpens bare ctx.limit
  have enough : entries.length < ctx.limit + 2 := by
    have lengths := listedLength '\x7d' (entries.map entryChars)
    have fits := on.fits
    simp at fits lengths
    omega
  obtain ⟨inner, same⟩ : ∃ inner : Context, inner = { ctx with inAllowed := true } := ⟨_, rfl⟩
  have limit : ctx.limit = inner.limit := by rw [same]
  rw [objectRest, allowingIn, runWithReader, ← same]
  rw [limit] at on starts enough ⊢
  obtain ⟨ts, d, read, value, on⟩ : ∃ ts d, commaList "\x7d" (objectMember g) inner c = .ok (ts, d) ∧
      Expression.evaluateEntries [] (Tree.lowerMembers ts) = .ok entries ∧ d.On inner.limit (m :: rest) := by
    rw [commaList, loop, runBind, runRead, okBind]
    refine (listRead starts (by decide)
      (I := fun done (ts : List Tree) => Expression.evaluateEntries [] (Tree.lowerMembers ts.reverse) = .ok done)
      (R := fun (ts : List Tree) => Expression.evaluateEntries [] (Tree.lowerMembers ts) = .ok entries)
      ?_ ?_ (List.nil_append entries) rfl enough on).ok
    · intro done entry more whole ts c behind after kept parted on
      have member : entry ∈ entries := whole ▸ by simp
      -- a key that has been read already would keep its place and change its value
      have fresh : ∀ before ∈ done, before.1 ≠ entry.1 := by
        intro before here same
        rw [← whole, List.map_append, List.map_cons, List.nodup_append] at distinct
        exact distinct.2.2 _ (List.mem_map_of_mem here) _ List.mem_cons_self same
      obtain ⟨noMark, start, key, value, d, read, text, evaluated, on⟩ := memberRead (bare entry member) (plain entry member) (reads entry member) parted on
      have added : Expression.evaluateEntries [] (Tree.lowerMembers (ts.reverse ++ [.property start key false value])) = .ok (done ++ [entry]) := by
        rw [lowerMembersAppend, evaluateEntriesAppend kept text evaluated, setEntryFresh _ fresh]
      have opened : accept (.punctuator "\x7d") inner c = .ok (false, c) := runAcceptOther (noMark _)
      rcases behindPassed (by decide) parted on with ⟨closing, on⟩ | ⟨comma, e, next, on⟩
      · have closing : d.token = .punctuator "\x7d" := closing
        simp [acceptMark, opened, read, closing, Leads, added, on]
      · simp [acceptMark, opened, read, comma, runExpectMark comma next, Leads, added, on]
    · intro ts c kept on
      obtain ⟨d, closed, on⟩ := closeRead mark (by decide) on
      have closed : accept (.punctuator "\x7d") inner c = .ok (true, d) := closed
      simp [acceptMark, closed, Leads, on, kept]
  exact ⟨.object ts, d, by rw [runBind, read]; rfl, by simp [Tree.lower, Expression.evaluate, value], on⟩

theorem arrayRead {items : List Value} (plain : ∀ v ∈ items, v.Plain) (reads : ∀ v ∈ items, Reads g v)
    (on : c.On ctx.limit (chars (.array items) ++ m :: rest)) :
    ∃ t d, primary g ctx c = .ok (t, d) ∧ t.lower.evaluate = .ok (.array items) ∧ d.On ctx.limit (m :: rest) := by
  rw [charsArray, List.cons_append] at on
  have fits := on.fits
  obtain ⟨token, -, behind⟩ := on.is (markOpens (by decide) ctx.limit _)
  obtain ⟨l, opens⟩ : ∃ l, Opens ctx.limit (listed ']' (items.map chars) ++ m :: rest) l :=
    listedOpens (valuesOpen plain) (by decide) (fun _ h => h) (by simp at fits ⊢; omega)
  obtain ⟨d, next, on⟩ := nextOn on opens (by simp at fits ⊢; omega) (.inl behind)
  have token : c.token = .punctuator "[" := token
  obtain ⟨t, e, read, value, on⟩ := elementsRead mark plain reads on
  exact ⟨t, e, by simp [primary, token, runAdvance next, read], value, on⟩

theorem objectRead {entries : List (String × Value)} (bare : ∀ entry ∈ entries, bareKey entry.1 = true)
    (plain : ∀ entry ∈ entries, entry.2.Plain) (distinct : (entries.map Prod.fst).Nodup) (reads : ∀ entry ∈ entries, Reads g entry.2)
    (on : c.On ctx.limit (chars (.object entries) ++ m :: rest)) :
    ∃ t d, primary g ctx c = .ok (t, d) ∧ t.lower.evaluate = .ok (.object entries) ∧ d.On ctx.limit (m :: rest) := by
  rw [charsObject, List.cons_append] at on
  have fits := on.fits
  obtain ⟨token, -, behind⟩ := on.is (markOpens (by decide) ctx.limit _)
  obtain ⟨l, opens⟩ : ∃ l, Opens ctx.limit (listed '\x7d' (entries.map entryChars) ++ m :: rest) l :=
    listedOpens (entryOpens bare ctx.limit) (by decide) (fun _ h => h) (by simp at fits ⊢; omega)
  obtain ⟨d, next, on⟩ := nextOn on opens (by simp at fits ⊢; omega) (.inl behind)
  have token : c.token = .punctuator "\x7b" := token
  obtain ⟨t, e, read, value, on⟩ := entriesRead mark bare plain distinct reads on
  exact ⟨t, e, by simp [primary, token, runAdvance next, read], value, on⟩

end

theorem charsPositive {v : Value} (plain : v.Plain) : 0 < v.chars.length := by
  cases plain with
  | string => simp [charsString]
  | boolean b => cases b <;> decide
  | array => simp [charsArray]
  | object => simp [charsObject]

theorem listedMember {close : Char} {item : List Char} {items : List (List Char)} (member : item ∈ items) :
    item.length < (listed close items).length := by
  fun_induction listed close items with
  | case1 => exact absurd member List.not_mem_nil
  | case2 x =>
    cases List.mem_singleton.mp member
    simp
  | case3 x y more ih =>
    rcases List.mem_cons.mp member with rfl | later
    · simp
    · have := ih later
      simp
      omega

/- By induction on the value; every list takes a character and a level of nesting. -/
theorem plainRead {v : Value} (plain : v.Plain) (depth : Nat) (enough : v.chars.length ≤ depth) : Reads (grammar depth) v := by
  induction plain generalizing depth with
  | @string s spelled =>
    obtain ⟨depth, rfl⟩ : ∃ n, depth = n + 1 := ⟨depth - 1, by have := charsPositive (.string spelled); omega⟩
    exact fun ctx c m rest mark on => readsOfPrimary (.string spelled) (fun _ _ _ _ mark on => stringRead mark spelled on) mark on
  | boolean b =>
    obtain ⟨depth, rfl⟩ : ∃ n, depth = n + 1 := ⟨depth - 1, by have := charsPositive (.boolean b); omega⟩
    exact fun ctx c m rest mark on => readsOfPrimary (.boolean b) (fun _ _ _ _ mark on => booleanRead mark on) mark on
  | @array items each ih =>
    rw [charsArray, List.length_cons] at enough
    obtain ⟨depth, rfl⟩ : ∃ n, depth = n + 1 := ⟨depth - 1, by omega⟩
    have reads : ∀ v ∈ items, Reads (grammar depth) v := fun v member => ih v member depth (by
      have shorter : v.chars.length < (listed ']' (items.map chars)).length := listedMember (List.mem_map_of_mem member)
      omega)
    exact fun ctx c m rest mark on => readsOfPrimary (.array each) (fun _ _ _ _ mark on => arrayRead mark each reads on) mark on
  | @object entries each bare distinct ih =>
    rw [charsObject, List.length_cons] at enough
    obtain ⟨depth, rfl⟩ : ∃ n, depth = n + 1 := ⟨depth - 1, by omega⟩
    have reads : ∀ entry ∈ entries, Reads (grammar depth) entry.2 := fun entry member => ih entry member depth (by
      have shorter : (entryChars entry).length < (listed '\x7d' (entries.map entryChars)).length :=
        listedMember (List.mem_map_of_mem member)
      simp [entryChars] at shorter
      omega)
    exact fun ctx c m rest mark on =>
      readsOfPrimary (.object each bare distinct) (fun _ _ _ _ mark on => objectRead mark bare each distinct reads on) mark on

end Value
end ClassDocs
