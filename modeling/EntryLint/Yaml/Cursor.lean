/-!
# Reading positions

A place in a text with all line ends as line feeds: what is left of the text, and the number of
characters, lines and columns before it.
-/

namespace EntryLint.Yaml

/-- A place in a text. -/
structure Cursor where
  rest : List Char
  index : Nat := 0
  line : Nat := 0
  column : Nat := 0

namespace Cursor

/-- The next character, unless the text is at its end. -/
def peek (c : Cursor) : Option Char :=
  c.rest.head?

/-- The character some places ahead. -/
def peekAt (c : Cursor) (n : Nat) : Option Char :=
  (c.rest.drop n).head?

/-- The place after the next character. A byte order mark takes no column. -/
def next (c : Cursor) : Cursor :=
  match c.rest with
  | [] => c
  | '\n' :: rest => { rest, index := c.index + 1, line := c.line + 1, column := 0 }
  | '\uFEFF' :: rest => { c with rest, index := c.index + 1 }
  | _ :: rest => { c with rest, index := c.index + 1, column := c.column + 1 }

/-- The place some characters further on. -/
def skip : Nat → Cursor → Cursor
  | 0, c => c
  | n + 1, c => skip n c.next

/-- The longest run of characters of a class, and the place after it. -/
def span (p : Char → Bool) (c : Cursor) : List Char × Cursor :=
  let run := c.rest.takeWhile p
  (run, c.skip run.length)

/-- The place after a run of characters of a class. -/
def skipWhile (p : Char → Bool) (c : Cursor) : Cursor :=
  (c.span p).2

end Cursor

/-- Whether a character ends a line. -/
def isBreak (ch : Char) : Bool :=
  ch = '\n' || ch = '\x85'

/-- Whether a character ends a line, or separates lines or paragraphs. -/
def isWideBreak (ch : Char) : Bool :=
  isBreak ch || ch = '\u2028' || ch = '\u2029'

/-- Whether a character is a space or a tab. -/
def isSpaceOrTab (ch : Char) : Bool :=
  ch = ' ' || ch = '\t'

/-- Whether a line or the text ends. -/
def atLineEnd : Option Char → Bool
  | none => true
  | some ch => isBreak ch

/-- Whether a word ends: at a blank, or with the line or the text. -/
def atWordEnd : Option Char → Bool
  | none => true
  | some ch => isSpaceOrTab ch || isBreak ch

namespace Cursor

/-- The line break at a place, as it counts in a scalar, and the place after it. -/
def lineBreak? (c : Cursor) : Option (Char × Cursor) :=
  match c.peek with
  | some ch =>
    if isBreak ch then some ('\n', c.next)
    else if isWideBreak ch then some (ch, c.next)
    else none
  | none => none

/-- Whether a line that separates documents starts at a place: three dashes or dots as a word. -/
def atSeparator (c : Cursor) : Bool :=
  (['-', '-', '-'].isPrefixOf c.rest || ['.', '.', '.'].isPrefixOf c.rest) && atWordEnd (c.peekAt 3)

end Cursor

end EntryLint.Yaml
