import EntryLint.Proofs.Source.Position
import EntryLint.Proofs.Source.Sources

/-!
# Written programs

Programs of imports and of statements that look like imports: comments, exports from elsewhere,
required modules, and expressions that load modules. Each of them is written on a line of its own
(`isLine_text`), so that reading it leads to the start of the next line (`after_line_text`).
-/

namespace EntryLint

/-! ## Programs -/

/-- Words that are never names. -/
def keywords : List String :=
  ["await", "break", "case", "catch", "class", "const", "continue", "debugger", "default", "delete",
    "do", "else", "enum", "export", "extends", "false", "finally", "for", "function", "if",
    "implements", "import", "in", "instanceof", "interface", "let", "new", "null", "package",
    "private", "protected", "public", "return", "static", "super", "switch", "this", "throw",
    "true",
    "try", "typeof", "var", "void", "while", "with", "yield"]

/-- Words with a meaning of their own among the names of an import. -/
def contextualKeywords : List String := ["as", "from", "type"]

/-- Characters of names. -/
def isNameChar (c : Char) : Bool :=
  c.isAlphanum || c = '_' || c = '$'

/-- Characters that stand for themselves between quotes. -/
def isPlainChar (c : Char) : Bool :=
  c ∉ ['"', '\'', '\\', '\n', '\r']

/-- Characters that do not end a line comment. -/
def isCommentChar (c : Char) : Bool :=
  c ∉ ['\n', '\r', '\u2028', '\u2029']

/-- An ASCII name that is no keyword. -/
structure Identifier where
  name : String
  starts : name.toList.head?.any (fun c => !c.isDigit) = true
  chars : name.toList.all isNameChar = true
  not_keyword : name ∉ keywords
  not_contextual : name ∉ contextualKeywords

/-- A literal between quotes of either kind. -/
structure QuotedText where
  quote : Char
  body : String
  isQuote : IsQuote quote
  plain : body.toList.all isPlainChar = true

/-- A name among named imports or exports, with the name it gets. -/
structure Binding where
  name : Identifier
  renamed : Option Identifier

/-- What an import binds. -/
inductive ImportClause where
  | sideEffect
  | default (x : Identifier)
  | named (bindings : List Binding)
  /-- Everything, under one name. -/
  | allAs (x : Identifier)
  | defaultAndNamed (x : Identifier) (bindings : List Binding)
  | typeNamed (bindings : List Binding)

/-- A static import. -/
structure ImportStatement where
  clause : ImportClause
  source : QuotedText

/-- An expression. It may load modules, by `import` or by `require`. -/
inductive Expression where
  | text (t : QuotedText)
  | name (x : Identifier)
  | importCall (arg : Expression)
  | requireCall (arg : Expression)
  | call (function arg : Expression)
  | member (e : Expression) (x : Identifier)
  | sum (left right : Expression)
  | awaited (e : Expression)

/-- A statement or a comment, on a line of its own. -/
inductive Statement where
  | static (i : ImportStatement)
  | comment (body : String) (isBody : body.toList.all isCommentChar = true)
  | exportFrom (bindings : List Binding) (source : QuotedText)
  | exportAllFrom (source : QuotedText)
  | importRequire (x : Identifier) (source : QuotedText)
  | expression (e : Expression)

/-! ## Writing them -/

def QuotedText.text (t : QuotedText) : String := inQuotes t.quote t.body

def Binding.text (b : Binding) : String :=
  match b.renamed with
  | none => b.name.name
  | some x => b.name.name ++ " as " ++ x.name

/-- Names with commas between them. -/
def namesText : List Binding → String
  | [] => ""
  | [b] => b.text
  | b :: bs => b.text ++ ", " ++ namesText bs

/-- Names between braces. -/
def bracesText (bs : List Binding) : String :=
  "\x7b " ++ namesText bs ++ " \x7d"

/-- What stands before the source of an import, after `import`. -/
def ImportClause.text : ImportClause → String
  | .sideEffect => ""
  | .default x => x.name ++ " from "
  | .named bs => bracesText bs ++ " from "
  | .allAs x => "* as " ++ x.name ++ " from "
  | .defaultAndNamed x bs => x.name ++ ", " ++ bracesText bs ++ " from "
  | .typeNamed bs => "type " ++ bracesText bs ++ " from "

/-- What stands before the source of an import. -/
def ImportStatement.opening (i : ImportStatement) : String :=
  "import " ++ i.clause.text

def Expression.code : Expression → String
  | .text t => t.text
  | .name x => x.name
  | .importCall arg => "import(" ++ arg.code ++ ")"
  | .requireCall arg => "require(" ++ arg.code ++ ")"
  | .call function arg => function.code ++ "(" ++ arg.code ++ ")"
  | .member e x => e.code ++ "." ++ x.name
  | .sum left right => left.code ++ " + " ++ right.code
  | .awaited e => "await " ++ e.code

/-- A statement without the end of its line. -/
def Statement.text : Statement → String
  | .static i => i.opening ++ i.source.text ++ ";"
  | .comment body _ => "//" ++ body
  | .exportFrom bs source => "export " ++ bracesText bs ++ " from " ++ source.text ++ ";"
  | .exportAllFrom source => "export * from " ++ source.text ++ ";"
  | .importRequire x source => "import " ++ x.name ++ " = require(" ++ source.text ++ ");"
  | .expression e => e.code ++ ";"

/-- The text of a program. -/
def programText : List Statement → String
  | [] => ""
  | st :: rest => st.text ++ "\n" ++ programText rest

/-! ## Lines -/

/-- A text within one line. -/
def IsLine (s : String) : Prop :=
  '\n' ∉ s.toList

instance (s : String) : Decidable (IsLine s) :=
  inferInstanceAs (Decidable ('\n' ∉ s.toList))

@[simp] lemma isLine_append {s t : String} : IsLine (s ++ t) ↔ IsLine s ∧ IsLine t := by
  simp [IsLine]

@[simp] lemma isLine_identifier (x : Identifier) : IsLine x.name := by
  intro hmem
  cases List.all_eq_true.mp x.chars '\n' hmem

@[simp] lemma isLine_quotedText (t : QuotedText) : IsLine t.text := by
  have hquote : '\n' ≠ t.quote := by
    rcases t.isQuote with hquote | hquote
    · rw [hquote]
      decide
    · rw [hquote]
      decide
  have hbody : '\n' ∉ t.body.toList := by
    intro hmem
    cases List.all_eq_true.mp t.plain '\n' hmem
  simp [IsLine, QuotedText.text, inQuotes, hquote, hbody]

lemma isLine_binding (b : Binding) : IsLine b.text := by
  unfold Binding.text
  cases b.renamed with
  | none => exact isLine_identifier b.name
  | some x => simp [show IsLine " as " by decide]

@[simp] lemma isLine_braces (bs : List Binding) : IsLine (bracesText bs) := by
  have hnames : IsLine (namesText bs) := by
    fun_induction namesText bs with
    | case1 => decide
    | case2 b => exact isLine_binding b
    | case3 b bs _ ih => simp [isLine_binding, ih, show IsLine ", " by decide]
  simp [bracesText, hnames, show IsLine "\x7b " by decide, show IsLine " \x7d" by decide]

lemma isLine_opening (i : ImportStatement) : IsLine i.opening := by
  have hfrom : IsLine " from " := by decide
  have himport : IsLine "import " := by decide
  unfold ImportStatement.opening
  cases i.clause with
  | sideEffect => exact isLine_append.mpr ⟨himport, by decide⟩
  | default x => simp [ImportClause.text, hfrom, himport]
  | named bs => simp [ImportClause.text, hfrom, himport]
  | allAs x => simp [ImportClause.text, hfrom, himport, show IsLine "* as " by decide]
  | defaultAndNamed x bs => simp [ImportClause.text, hfrom, himport, show IsLine ", " by decide]
  | typeNamed bs => simp [ImportClause.text, hfrom, himport, show IsLine "type " by decide]

lemma isLine_expression (e : Expression) : IsLine e.code := by
  have hclose : IsLine ")" := by decide
  induction e with
  | text t => exact isLine_quotedText t
  | name x => exact isLine_identifier x
  | importCall arg ih => simp [Expression.code, ih, hclose, show IsLine "import(" by decide]
  | requireCall arg ih => simp [Expression.code, ih, hclose, show IsLine "require(" by decide]
  | call function arg ihFunction ihArg =>
    simp [Expression.code, ihFunction, ihArg, hclose, show IsLine "(" by decide]
  | member e x ih => simp [Expression.code, ih, show IsLine "." by decide]
  | sum left right ihLeft ihRight =>
    simp [Expression.code, ihLeft, ihRight, show IsLine " + " by decide]
  | awaited e ih => simp [Expression.code, ih, show IsLine "await " by decide]

lemma isLine_text (st : Statement) : IsLine st.text := by
  have hend : IsLine ";" := by decide
  cases st with
  | static i => simp [Statement.text, isLine_opening, hend]
  | comment body isBody =>
    have hbody : IsLine body := by
      intro hmem
      cases List.all_eq_true.mp isBody '\n' hmem
    simp [Statement.text, hbody, show IsLine "//" by decide]
  | exportFrom bs source =>
    simp [Statement.text, hend, show IsLine "export " by decide, show IsLine " from " by decide]
  | exportAllFrom source => simp [Statement.text, hend, show IsLine "export * from " by decide]
  | importRequire x source =>
    simp [Statement.text, show IsLine "import " by decide, show IsLine " = require(" by decide,
      show IsLine ");" by decide]
  | expression e => simp [Statement.text, isLine_expression, hend]

/-- A statement takes one line. -/
lemma after_line_text (p : Position) (st : Statement) :
    p.after (st.text ++ "\n").toList = { line := p.line + 1, column := 1 } := by
  rw [String.toList_append]
  exact Position.after_line p (isLine_text st)

end EntryLint
