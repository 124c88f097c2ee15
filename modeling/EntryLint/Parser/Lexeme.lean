/-!
# Lexemes

What a source text is made of, as far as its imports depend on it: words, string literals and
punctuation. Comments and blanks leave nothing, and templates, regular expressions and elements
leave only a mark that they are there.
-/

namespace EntryLint

/-- A string literal: the byte of its opening quote and the one after its closing quote. -/
structure Literal where
  start : Nat
  stop : Nat
  deriving DecidableEq, Repr

/-- A piece of a source text. -/
inductive Lexeme where
  /-- A name, a keyword or a number. -/
  | word (text : String)
  | text (literal : Literal)
  /-- A character of punctuation. -/
  | mark (c : Char)
  /-- A doubled plus or minus. -/
  | twice (c : Char)
  /-- A template, a regular expression or an element. -/
  | value
  /-- Code inside a template or an element starts or ends. -/
  | hole
  | holeEnd
  deriving DecidableEq, Repr

/-- Whether a character is white space in a source text. -/
def isSourceBlank (c : Char) : Bool :=
  let n := c.toNat
  (0x9 ≤ n && n ≤ 0xd) || n = 0x20 || n = 0xa0 || n = 0x1680 || (0x2000 ≤ n && n ≤ 0x200b) ||
    n = 0x2028 || n = 0x2029 || n = 0x202f || n = 0x205f || n = 0x2060 || n = 0x3000 || n = 0xfeff

/-- Whether a character is part of a word. -/
def isWordChar (c : Char) : Bool :=
  c.isAlphanum || c = '_' || c = '$' || c = '#' || c = '\\' || (0x80 ≤ c.toNat && !isSourceBlank c)

/-- Words after which an operand comes. -/
def wordsBeforeOperand : List String :=
  ["return", "typeof", "instanceof", "in", "of", "new", "delete", "void", "throw", "case", "do",
    "else", "yield", "await", "default", "extends", "import", "export"]

/-- Words whose parentheses are followed by a statement. -/
def wordsBeforeCondition : List String :=
  ["if", "while", "for", "with"]

end EntryLint
