import EntryLint.Parser.Lexeme
import EntryLint.Source.Language

/-!
# Reading source texts

A machine that reads a source text character by character. It knows which brackets, templates and
elements are open, what it is in the middle of, and whether an operand may come next, which decides
whether a slash starts a regular expression and an angle bracket an element.
-/

namespace EntryLint

/-- How far the opening tag of an element is read. What looks like a tag is a list of type
parameters if its first name is followed by a comma, an equals sign or `extends`. -/
inductive TagProgress where
  | name
  | gap
  /-- The first attribute, with its characters in reverse order. -/
  | word (chars : List Char)
  | rest
  deriving DecidableEq, Repr

/-- What is open. -/
inductive Frame where
  /-- Parentheses; a statement may follow those of a condition. -/
  | paren (condition : Bool)
  | bracket
  /-- Braces around statements, or around the entries of an object. -/
  | brace (isBlock : Bool)
  /-- Code inside a template or an element. -/
  | hole
  | template
  | tag (progress : TagProgress)
  /-- Type arguments in a tag. -/
  | typeArguments
  /-- The content of an element. -/
  | content
  | closingTag
  deriving DecidableEq, Repr

/-- The three kinds of comments that end with a line. -/
inductive LineComment where
  | slashes
  /-- After an opening or closing mark of markup comments. -/
  | markup
  /-- The name of an interpreter in the first line. -/
  | interpreter
  deriving DecidableEq, Repr

namespace LineComment

/-- Whether a character ends a comment. -/
def endsAt (k : LineComment) (c : Char) : Bool :=
  match k with
  | slashes => c = '\n' || c = '\r' || c = '\u2028' || c = '\u2029'
  | markup => c = '\n' || c = '\u2028' || c = '\u2029'
  | interpreter => c = '\n'

end LineComment

/-- Whether the next character of a literal is escaped. -/
inductive Escape where
  | none
  | next
  /-- After an escaped carriage return, which a line feed may follow. -/
  | afterReturn
  deriving DecidableEq, Repr

/-- What the machine is in the middle of. -/
inductive Pending where
  | nothing
  /-- A word, with its characters in reverse order. -/
  | word (chars : List Char)
  /-- A number sign at the start of the text. -/
  | hash
  | slash
  | lineComment (k : LineComment)
  /-- A block comment; `star` tells whether a star came last. -/
  | blockComment (star : Bool)
  /-- A string literal that starts at a byte. -/
  | text (start : Nat) (quote : Char) (escape : Escape)
  | regex (inClass escaped : Bool)
  | regexFlags
  | plus
  | minus
  | minusMinus
  /-- An angle bracket where an operand may come, and how much of `!--` after it. -/
  | angle (seen : Nat)
  | dollar
  | templateEscape
  /-- An attribute of an element in quotes. -/
  | attribute (quote : Char)
  | attributeValue
  /-- An angle bracket in the content of an element. -/
  | contentAngle
  deriving DecidableEq, Repr

/-- The state of the machine. -/
structure Lexer where
  grammar : Grammar
  /-- The byte of the next character. -/
  offset : Nat := 0
  frames : List Frame := []
  pending : Pending := .nothing
  /-- Whether an operand may come next. -/
  operand : Bool := true
  /-- Whether something was left open or closed that was not open. -/
  broken : Bool := false
  /-- The lexemes so far, the last one first. -/
  lexemes : List Lexeme := []
  deriving Repr

namespace Lexer

/-! ## Lexemes and frames -/

/-- Adds a lexeme; `operand` tells whether an operand may come after it. -/
def emit (s : Lexer) (l : Lexeme) (operand : Bool) : Lexer :=
  { s with lexemes := l :: s.lexemes, operand, pending := .nothing }

/-- Adds a character of punctuation that an operand may follow. -/
def mark (s : Lexer) (c : Char) : Lexer :=
  s.emit (.mark c) true

/-- The lexeme before the place where the machine is. -/
def previous (s : Lexer) : Option Lexeme :=
  s.lexemes.head?

/-- Opens a frame. -/
def push (s : Lexer) (f : Frame) : Lexer :=
  { s with frames := f :: s.frames, pending := .nothing }

/-- Closes the innermost frame. -/
def pop (s : Lexer) : Lexer :=
  { s with frames := s.frames.tail, pending := .nothing }

/-- Ends a word. After a point a word is the name of a property. -/
def endWord (s : Lexer) (chars : List Char) : Lexer :=
  let w := String.ofList chars.reverse
  let isProperty := s.previous = some (.mark '.')
  s.emit (.word w) (!isProperty && wordsBeforeOperand.contains w)

/-- Whether the lexeme before an opening parenthesis is a word that takes a condition. -/
def takesCondition (s : Lexer) : Bool :=
  match s.lexemes with
  | .word _ :: .mark '.' :: _ => false
  | .word "await" :: .word "for" :: _ => true
  | .word w :: _ => wordsBeforeCondition.contains w
  | _ => false

/-- Whether a brace at this place opens a block and not an object. -/
def opensBlock (s : Lexer) : Bool :=
  !s.operand ||
    match s.previous with
    | none => true
    | some (.mark c) => c = ';' || c = '{' || c = '}' || c = '>' || c = ')'
    | some (.word w) => w = "else" || w = "do"
    | _ => false

/-- Closes a bracket: its frame must be the innermost one, or the text is broken. -/
def close (s : Lexer) (c : Char) : Lexer :=
  match c, s.frames with
  | ')', .paren condition :: _ => s.pop.emit (.mark c) condition
  | ']', .bracket :: _ => s.pop.emit (.mark c) false
  | '}', .brace isBlock :: _ => s.pop.emit (.mark c) isBlock
  | '}', .hole :: _ => s.pop.emit .holeEnd false
  | _, _ => { s.emit (.mark c) (c = '}') with broken := true }

/-- Goes on after an element is complete. Inside another element or a tag nothing changes. -/
def endElement (s : Lexer) : Lexer :=
  match s.frames with
  | .content :: _ => { s with pending := .nothing }
  | .tag _ :: _ => { s with pending := .nothing }
  | _ => s.emit .value false

/-! ## Code -/

/-- Reads a character of code that continues nothing. -/
def code (s : Lexer) (c : Char) : Lexer :=
  if isSourceBlank c then { s with pending := .nothing }
  else if isWordChar c then
    if c = '#' && s.lexemes.isEmpty then { s with pending := .hash }
    else { s with pending := .word [c] }
  else if c = '"' || c = '\'' then { s with pending := .text s.offset c .none }
  else if c = '\x60' then (s.emit .value false).push .template
  else if c = '/' then { s with pending := .slash }
  else if c = '<' && s.operand then { s with pending := .angle 0 }
  else if c = '+' then { s with pending := .plus }
  else if c = '-' then { s with pending := .minus }
  else if c = '(' then (s.mark c).push (.paren s.takesCondition)
  else if c = '[' then (s.mark c).push .bracket
  else if c = '{' then (s.mark c).push (.brace s.opensBlock)
  else if c = ')' || c = ']' || c = '}' then s.close c
  else if c = '!' then s.emit (.mark c) s.operand
  else if c = '.' then s.emit (.mark c) (s.previous = some (.mark c))
  else s.mark c

/-! ## Templates and elements -/

/-- Opens a hole. -/
def openHole (s : Lexer) : Lexer :=
  (s.emit .hole true).push .hole

/-- Reads a character of a template. -/
def template (s : Lexer) (c : Char) : Lexer :=
  if c = '\x60' then s.pop.emit .value false
  else if c = '\\' then { s with pending := .templateEscape }
  else if c = '$' then { s with pending := .dollar }
  else { s with pending := .nothing }

/-- A tag read to some extent. -/
def tagAt (s : Lexer) (progress : TagProgress) : Lexer :=
  { s with frames := .tag progress :: s.frames.tail, pending := .nothing }

/-- What was taken for a tag is code. -/
def notTag (s : Lexer) (c : Char) : Lexer :=
  ({ s.pop with operand := false }).code c

/-- Reads a character of a tag after its first name. -/
def tagRest (s : Lexer) (c : Char) : Lexer :=
  let s := s.tagAt .rest
  if c = '>' then
    { s with frames := .content :: s.frames.tail }
  else if c = '/' then { s with pending := .slash }
  else if c = '{' then s.openHole
  else if c = '=' then { s with pending := .attributeValue }
  else if c = '"' || c = '\'' then { s with pending := .attribute c }
  else if c = '<' then s.push .typeArguments
  else s

/-- Reads a character of a tag. -/
def tag (s : Lexer) (progress : TagProgress) (c : Char) : Lexer :=
  match progress with
  | .name =>
    if isWordChar c || c = '.' || c = ':' || c = '-' then s.tagAt .name
    else if isSourceBlank c then s.tagAt .gap
    else if c = ',' || c = '=' then s.notTag c
    else s.tagRest c
  | .gap =>
    if isSourceBlank c then s.tagAt .gap
    else if c = ',' || c = '=' then s.notTag c
    else if isWordChar c then s.tagAt (.word [c])
    else s.tagRest c
  | .word chars =>
    if isWordChar c || c = '-' || c = ':' then s.tagAt (.word (c :: chars))
    else if isSourceBlank c && chars.reverse = "extends".toList then s.notTag c
    else s.tagRest c
  | .rest => s.tagRest c

/-- Reads a character of type arguments in a tag. -/
def typeArguments (s : Lexer) (c : Char) : Lexer :=
  if c = '<' then s.push .typeArguments
  else if c = '>' then s.pop
  else { s with pending := .nothing }

/-- Reads a character of the content of an element. Text in it has neither closing braces nor
closing angle brackets: before one, what was taken for elements were lists of type parameters. -/
def content (s : Lexer) (c : Char) : Lexer :=
  if c = '<' then { s with pending := .contentAngle }
  else if c = '{' then s.openHole
  else if c = '>' || c = '}' then
    ({ s with frames := s.frames.dropWhile (· = Frame.content), operand := false }).code c
  else { s with pending := .nothing }

/-- Opens an element at the first character after its angle bracket. -/
def openElement (s : Lexer) (c : Char) : Lexer :=
  if c = '>' then s.push .content else s.push (.tag .name)

/-- Reads a character of a closing tag. -/
def closingTag (s : Lexer) (c : Char) : Lexer :=
  if c = '>' then s.pop.pop.endElement else { s with pending := .nothing }

/-- Reads a character that continues nothing. -/
def base (s : Lexer) (c : Char) : Lexer :=
  match s.frames with
  | .template :: _ => s.template c
  | .tag progress :: _ => s.tag progress c
  | .typeArguments :: _ => s.typeArguments c
  | .content :: _ => s.content c
  | .closingTag :: _ => s.closingTag c
  | _ => s.code c

/-! ## What is pending -/

/-- Reads a character of a regular expression, which ends before a line break. -/
def regex (s : Lexer) (inClass escaped : Bool) (c : Char) : Lexer :=
  if c = '\n' then { s.emit .value false with broken := true }
  else if escaped then { s with pending := .regex inClass false }
  else if c = '\\' then { s with pending := .regex inClass true }
  else if c = '/' && !inClass then { s with pending := .regexFlags }
  else { s with pending := .regex ((inClass || c = '[') && c ≠ ']') false }

/-- Reads a character after a slash: a comment, the end of a tag, a regular expression, or a sign
of division before it. -/
def afterSlash (s : Lexer) (c : Char) : Lexer :=
  if c = '/' then { s with pending := .lineComment .slashes }
  else if c = '*' then { s with pending := .blockComment false }
  else
    match s.frames with
    | .tag _ :: _ => if c = '>' then s.pop.endElement else s.base c
    | _ => if s.operand then s.regex false false c else (s.mark '/').base c

/-- Reads a character of a string literal that is not escaped. A line break ends the literal without
closing it. -/
def plainText (s : Lexer) (start : Nat) (quote c : Char) : Lexer :=
  if c = quote then s.emit (.text { start, stop := s.offset + quote.utf8Size }) false
  else if c = '\n' || c = '\r' then { s.emit .value false with broken := true }
  else if c = '\\' then { s with pending := .text start quote .next }
  else { s with pending := .text start quote .none }

/-- Reads a character of a string literal. -/
def text (s : Lexer) (start : Nat) (quote : Char) (escape : Escape) (c : Char) : Lexer :=
  match escape with
  | .none => s.plainText start quote c
  | .next =>
    let after := if c = '\r' then Escape.afterReturn else .none
    { s with pending := .text start quote after }
  | .afterReturn =>
    if c = '\n' then { s with pending := .text start quote .none } else s.plainText start quote c

/-- Reads a character after an angle bracket where an operand may come: an element, a comment, or
neither. -/
def afterAngle (s : Lexer) (seen : Nat) (c : Char) : Lexer :=
  match seen with
  | 0 =>
    if c = '!' then { s with pending := .angle 1 }
    else if s.grammar = .markup && (c = '>' || isWordChar c) then s.openElement c
    else (s.mark '<').base c
  | 1 =>
    if c = '-' then { s with pending := .angle 2 } else ((s.mark '<').mark '!').base c
  | _ =>
    if c = '-' then { s with pending := .lineComment .markup }
    else (((s.mark '<').mark '!').mark '-').base c

/-- Reads a character by what is pending. -/
def read (s : Lexer) (c : Char) : Lexer :=
  match s.pending with
  | .nothing => s.base c
  | .word chars =>
    if isWordChar c then { s with pending := .word (c :: chars) } else (s.endWord chars).base c
  | .hash =>
    if c = '!' then { s with pending := .lineComment .interpreter }
    else if isWordChar c then { s with pending := .word [c, '#'] }
    else (s.endWord ['#']).base c
  | .slash => s.afterSlash c
  | .lineComment k => if k.endsAt c then { s with pending := .nothing } else s
  | .blockComment star =>
    if star && c = '/' then { s with pending := .nothing }
    else { s with pending := .blockComment (c = '*') }
  | .text start quote escape => s.text start quote escape c
  | .regex inClass escaped => s.regex inClass escaped c
  | .regexFlags => if isWordChar c then s else (s.emit .value false).base c
  | .plus => if c = '+' then s.emit (.twice c) s.operand else (s.mark '+').base c
  | .minus => if c = '-' then { s with pending := .minusMinus } else (s.mark '-').base c
  | .minusMinus =>
    if c = '>' && s.operand then { s with pending := .lineComment .markup }
    else (s.emit (.twice '-') s.operand).base c
  | .angle seen => s.afterAngle seen c
  | .dollar => if c = '{' then s.openHole else s.template c
  | .templateEscape => { s with pending := .nothing }
  | .attribute quote => if c = quote then { s with pending := .nothing } else s
  | .attributeValue =>
    if isSourceBlank c then s
    else if c = '<' then s.push (.tag .name)
    else s.base c
  | .contentAngle =>
    if c = '/' then s.push .closingTag
    else if isSourceBlank c then s
    else s.openElement c

/-- Reads a character. -/
def step (s : Lexer) (c : Char) : Lexer :=
  { s.read c with offset := s.offset + c.utf8Size }

/-- Reads some characters. -/
def run (s : Lexer) (cs : List Char) : Lexer :=
  cs.foldl step s

/-- Reads the end of the text. What is in the middle of a comment ends, what is in the middle of a
literal is broken, and so is what is left open. -/
def finish (s : Lexer) : Lexer :=
  let s :=
    match s.pending with
    | .word chars => s.endWord chars
    | .hash => s.endWord ['#']
    | .slash => s.mark '/'
    | .regexFlags => s.emit .value false
    | .plus => s.mark '+'
    | .minus => s.mark '-'
    | .minusMinus => s.emit (.twice '-') s.operand
    | .angle _ => s.mark '<'
    | .nothing | .lineComment _ => s
    | _ => { s with broken := true }
  { s with broken := s.broken || !s.frames.isEmpty }

end Lexer

/-- The machine after a whole text. -/
def readSource (grammar : Grammar) (text : String) : Lexer :=
  (Lexer.run { grammar } text.toList).finish

end EntryLint
