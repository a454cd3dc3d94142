import ClassDocs.Declaration
import ClassDocs.Text.Lines

/-! Doc comments: the text of a comment is stripped of its decoration, cut into a summary and
tags, and a tag into its name, its type in braces and its body. -/
namespace ClassDocs

structure DocBlock where
  summary : Option String
  tags : List Tag
  deriving DecidableEq, Inhabited

namespace DocBlock

def tag? (b : DocBlock) (name : String) : Option Tag := b.tags.find? (·.name == name)

def tagsNamed (b : DocBlock) (name : String) : List Tag := b.tags.filter (·.name == name)

def has (b : DocBlock) (name : String) : Bool := (b.tag? name).isSome

def isEmpty (b : DocBlock) : Bool := b.summary.isNone && b.tags.isEmpty

end DocBlock

namespace Comment
open Text

/-- A line without its decoration: outer blanks, one star and one blank behind it. A further
blank stays, so that indented examples keep their shape. -/
def stripLine (line : List Char) : List Char :=
  let line := trim line
  let line := match line with
    | '*' :: rest => rest
    | _ => line
  let line := match line with
    | ' ' :: rest => rest
    | _ => line
  trimEnd line

def strippedLines (raw : String) : List (List Char) := (lines raw.toList).map stripLine

def joinLines? (ls : List (List Char)) : Option String := content? (['\n'].intercalate ls)

def tagName (line : List Char) : List Char × List Char :=
  match cut? isBlank line with
  | some (name, rest) => (name, trim rest)
  | none => (line, [])

def opensTag : List Char → Bool
  | '@' :: _ => true
  | _ => false

/-- An `@` without a name behind it. Such a line says nothing. -/
def isNameless : List Char → Bool
  | '@' :: rest => (tagName rest).1.isEmpty
  | _ => false

/-- The lines in front of the first tag, and each tag line with the lines that belong to it. -/
def sections : List (List Char) → List (List Char) × List (List Char × List (List Char))
  | [] => ([], [])
  | line :: rest =>
    let (body, tags) := sections rest
    if opensTag line then ([], (line, body) :: tags) else (line :: body, tags)

theorem sectionsJoin (ls : List (List Char)) :
    (sections ls).1 ++ (sections ls).2.flatMap (fun tag => tag.1 :: tag.2) = ls := by
  induction ls with
  | nil => rfl
  | cons line rest ih =>
    simp only [sections]
    split
    · simpa using ih
    · simpa using ih

theorem sectionsOpen {ls : List (List Char)} {tag} (h : tag ∈ (sections ls).2) : opensTag tag.1 = true := by
  induction ls with
  | nil => simp [sections] at h
  | cons line rest ih =>
    simp only [sections] at h
    split at h
    · rename_i opens
      cases List.mem_cons.1 h with
      | inl ht => simpa [ht] using opens
      | inr ht => exact ih ht
    · exact ih h

/-- The text up to the brace that closes the current one, and the text behind that brace;
`inner` braces have been opened since. -/
def closingBrace (inner : Nat) : List Char → Option (List Char × List Char)
  | [] => none
  | c :: rest =>
    if c = '\x7b' then (closingBrace (inner + 1) rest).map fun (type, after) => (c :: type, after)
    else if c = '\x7d' then
      match inner with
      | 0 => some ([], rest)
      | inner + 1 => (closingBrace inner rest).map fun (type, after) => (c :: type, after)
    else (closingBrace inner rest).map fun (type, after) => (c :: type, after)

theorem closingBraceJoins {inner : Nat} {s type after : List Char}
    (h : closingBrace inner s = some (type, after)) : s = type ++ '\x7d' :: after := by
  induction s generalizing inner type with
  | nil => simp [closingBrace] at h
  | cons c rest ih =>
    simp only [closingBrace] at h
    split at h
    · simp only [Option.map_eq_some_iff] at h
      obtain ⟨⟨t, a⟩, found, same⟩ := h
      cases same
      simp [ih found]
    · split at h
      · rename_i closes
        split at h
        · cases Option.some.inj h
          simp [closes]
        · simp only [Option.map_eq_some_iff] at h
          obtain ⟨⟨t, a⟩, found, same⟩ := h
          cases same
          simp [ih found]
      · simp only [Option.map_eq_some_iff] at h
        obtain ⟨⟨t, a⟩, found, same⟩ := h
        cases same
        simp [ih found]

/-- The type in braces at the beginning of a tag's text, and what follows it. Braces that do not
close make no type. -/
def typeAndRest (payload : List Char) : Option String × Option String :=
  match trim payload with
  | '\x7b' :: inside =>
    match closingBrace 0 inside with
    | some (type, after) => (content? type, content? after)
    | none => (none, content? payload)
  | _ => (none, content? payload)

def tagOf (line : List Char) (body : List (List Char)) : Tag :=
  let (name, payload) := tagName line.tail
  let (typeHint, rest) := typeAndRest payload
  let first := match rest with
    | some text => [text.toList]
    | none => []
  ⟨String.ofList name, typeHint, (joinLines? (first ++ body)).getD ""⟩

def parse (raw : String) : DocBlock :=
  let (summary, tags) := sections ((strippedLines raw).filter (!isNameless ·))
  ⟨joinLines? summary, tags.map fun (line, body) => tagOf line body⟩

theorem parseEmpty : (parse "").isEmpty = true := by decide +kernel

end Comment

/-- The name at the beginning of a tag's body: `name`, `[name]` or `[name=default]`. -/
structure NameSpec where
  name : String
  optional : Bool
  defaultText : Option String
  deriving DecidableEq, Inhabited

namespace NameSpec
open Text

def bracketed? : List Char → Option (List Char × List Char)
  | '[' :: rest => cut? (· == ']') rest
  | _ => none

def ofBrackets? (inner : List Char) : Option NameSpec :=
  let (name, defaultText) := match cut? (· == '=') inner with
    | some (name, text) => (trim name, content? text)
    | none => (trim inner, none)
  if name.isEmpty then none else some ⟨String.ofList name, true, defaultText⟩

def split (body : String) : Option NameSpec × Option String :=
  let s := trimStart body.toList
  match bracketed? s with
  | some (inner, rest) => (ofBrackets? inner, content? rest)
  | none =>
    match cut? isBlank s with
    | some (name, rest) => (some ⟨String.ofList name, false, none⟩, content? rest)
    | none => if s.isEmpty then (none, none) else (some ⟨String.ofList s, false, none⟩, none)

end NameSpec
end ClassDocs
