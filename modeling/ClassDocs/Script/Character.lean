import ClassDocs.Text.Case
import ClassDocs.Script.NameTable

/-! Classes of characters in a script. -/
namespace ClassDocs.Script

def isLineBreak (c : Char) : Bool :=
  c == '\n' || c == '\r' || c.val == 0x2028 || c.val == 0x2029

/-- Space between tokens that ends no line. The byte order mark and the zero width space belong
to it. -/
def isSpace (c : Char) : Bool :=
  c == ' ' || c == '\t' || c.val == 0x0B || c.val == 0x0C || c.val == 0xA0 || c.val == 0xFEFF ||
  c.val == 0x85 || c.val == 0x1680 || (0x2000 ≤ c.val && c.val ≤ 0x200B) || c.val == 0x202F ||
  c.val == 0x205F || c.val == 0x3000

def isNameStart (c : Char) : Bool :=
  if c.val < 0x80 then c.isAlpha || c == '$' || c == '_' else Text.inRanges nameStartRanges c

def isNamePart (c : Char) : Bool :=
  if c.val < 0x80 then c.isAlphanum || c == '$' || c == '_'
  else c.val == 0x200C || c.val == 0x200D || Text.inRanges nameStartRanges c || Text.inRanges namePartRanges c

def reservedWords : List String :=
  ["break", "case", "catch", "class", "const", "continue", "debugger", "default", "delete", "do", "else",
    "enum", "export", "extends", "false", "finally", "for", "function", "if", "import", "in", "instanceof",
    "new", "null", "return", "super", "switch", "this", "throw", "true", "try", "typeof", "var", "void",
    "while", "with"]

def byteLength (s : List Char) : Nat := s.foldl (fun n c => n + c.utf8Size) 0

end ClassDocs.Script
