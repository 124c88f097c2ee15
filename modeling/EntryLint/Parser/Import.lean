import EntryLint.Parser.Lexer

/-!
# Import statements

Static imports are found by following the lexemes of a statement from the word `import` to the
literal of its source. Other uses of the word lead nowhere: calls, properties, aliases of
namespaces and required modules.
-/

namespace EntryLint

/-- How far an import statement is read. -/
inductive ImportPhase where
  | outside
  /-- After a point, where a word is the name of a property. -/
  | property
  /-- After `import`. -/
  | start
  /-- After `type` or `typeof`, which may also be the name that is imported. -/
  | modifier
  /-- After such a word and `from`, which may also be a name. -/
  | modifierFrom
  /-- After the name of a default import. -/
  | name
  /-- After the comma behind that name. -/
  | comma
  | star
  | starAs
  /-- Between the braces of named imports. -/
  | names
  /-- After everything that is imported. -/
  | imported
  /-- After `from`. -/
  | source
  deriving DecidableEq, Repr

namespace ImportPhase

/-- The phase after a lexeme that does not continue a statement. -/
def afresh (phase : ImportPhase) (l : Lexeme) : ImportPhase :=
  match l with
  | .mark '.' => property
  | .word "import" => if phase = property then outside else start
  | _ => outside

/-- The phase after a word or a mark that opens the names of an import, if it does. -/
def clause? (l : Lexeme) : Option ImportPhase :=
  match l with
  | .mark '*' => some star
  | .mark '{' => some names
  | _ => none

/-- The phase after a lexeme that continues a statement, if it does. -/
def continue? (phase : ImportPhase) (l : Lexeme) : Option ImportPhase :=
  match phase, l with
  | start, .word "type" => some modifier
  | start, .word "typeof" => some modifier
  | start, .word _ => some name
  | start, l => clause? l
  | modifier, .word "from" => some modifierFrom
  | modifier, .word _ => some name
  | modifier, .mark ',' => some comma
  | modifier, l => clause? l
  | modifierFrom, .word "from" => some source
  | modifierFrom, .mark ',' => some comma
  | name, .word "from" => some source
  | name, .mark ',' => some comma
  | comma, l => clause? l
  | star, .word "as" => some starAs
  | starAs, .word _ => some imported
  | names, .mark '}' => some imported
  | names, .mark ',' => some names
  | names, .word _ => some names
  | names, .text _ => some names
  | imported, .word "from" => some source
  | _, _ => none

/-- Whether a literal is the source of an import in a phase. -/
def takesSource : ImportPhase → Bool
  | start | modifier | modifierFrom | source => true
  | _ => false

/-- The phase after a lexeme. -/
def next (phase : ImportPhase) (l : Lexeme) : ImportPhase :=
  (phase.continue? l).getD (phase.afresh l)

end ImportPhase

/-- The literals that are sources of imports among some lexemes, from a phase on. -/
def importLiterals (phase : ImportPhase) : List Lexeme → List Literal
  | [] => []
  | .text literal :: rest =>
    if phase.takesSource then literal :: importLiterals .outside rest
    else importLiterals (phase.next (.text literal)) rest
  | l :: rest => importLiterals (phase.next l) rest

end EntryLint
