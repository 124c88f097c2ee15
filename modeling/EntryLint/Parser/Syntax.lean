import EntryLint.Parser.Import

/-!
# Syntax errors

Whether a source text has an error in what the reading of its imports sees of it: something left
open or closed twice, a sign that lacks its operand, or an import that stops short.
-/

namespace EntryLint

/-- Signs that cannot end an expression or a type. -/
def openSigns : List Char := ['=', '/', '%', '^', '~', '+', '-', '*', '|', '&', '<', '@']

/-- Characters that end an expression. -/
def endingMarks : List Char := [';', ')', ']', '}']

/-- Whether the second of two neighbours cannot follow the first: an expression ends after a sign,
a declaration has no name, or a slash meets an angle bracket outside an element. -/
def clashes : Lexeme → Lexeme → Bool
  | .mark a, .mark b => (openSigns.contains a && endingMarks.contains b) || (a = '/' && b = '>')
  | .mark a, .holeEnd => openSigns.contains a
  | .word w, .mark b => (w = "const" || w = "var") && (b = '=' || b = ';')
  | _, _ => false

/-- Whether two neighbours among some lexemes clash. The name of a property clashes with nothing. -/
def hasClash : List Lexeme → Bool
  | .mark '.' :: .word _ :: rest => hasClash rest
  | a :: b :: rest => clashes a b || hasClash (b :: rest)
  | _ => false

namespace ImportPhase

/-- Whether an import statement in this phase has to go on. -/
def isOpen : ImportPhase → Bool
  | comma | star | starAs | names | imported | source => true
  | _ => false

end ImportPhase

/-- Whether an import statement among some lexemes stops short. -/
def hasShortImport (phase : ImportPhase) : List Lexeme → Bool
  | [] => phase.isOpen
  | .text literal :: rest =>
    if phase.takesSource then hasShortImport .outside rest
    else
      (phase.isOpen && (phase.continue? (.text literal)).isNone) ||
        hasShortImport (phase.next (.text literal)) rest
  | l :: rest =>
    (phase.isOpen && (phase.continue? l).isNone) || hasShortImport (phase.next l) rest

/-- Whether what the machine has read has a syntax error. -/
def Lexer.hasSyntaxError (s : Lexer) : Bool :=
  s.broken || hasClash s.lexemes.reverse || hasShortImport .outside s.lexemes.reverse

end EntryLint
