import EntryLint.Parser.Syntax
import EntryLint.Source.Document

/-!
# The parser as a library

The machine as a parser: a tree with a node for every static import, which holds the literal of its
source, and one for a syntax error. It knows the queries that the tool asks.
-/

namespace EntryLint.Lexer

/-- The node of a static import. -/
def importNode (l : Literal) : SyntaxNode :=
  .node "import_statement" l.start l.stop false
    [(some "source", .node "string" l.start l.stop false [])]

/-- The tree of some bytes. -/
def parse (grammar : Grammar) (data : List UInt8) : SyntaxNode :=
  let s := readSource grammar (Text.decodeLossy data)
  let imports := (importLiterals .outside s.lexemes.reverse).map importNode
  let errors := if s.hasSyntaxError then [SyntaxNode.node "ERROR" 0 data.length false []] else []
  .node "program" 0 data.length false ((imports ++ errors).map (none, ·))

mutual

/-- The nodes of a kind in a field of nodes of another kind, in a tree. -/
def nodesIn (outer field inner : String) : SyntaxNode → List SyntaxNode
  | .node kind _ _ _ children =>
    let here := if kind = outer then
        children.filterMap fun (f, n) => if f = some field && n.kind = inner then some n else none
      else []
    here ++ nodesBelow outer field inner children

/-- The nodes of a kind in a field of nodes of another kind, below a node. -/
def nodesBelow (outer field inner : String) : List (Option String × SyntaxNode) → List SyntaxNode
  | [] => []
  | (_, n) :: rest => nodesIn outer field inner n ++ nodesBelow outer field inner rest

end

/-- What the machine knows of queries: the nodes of a kind in a field of nodes of another kind, and
the name they are captured under. -/
structure Query where
  outer : String
  field : String
  inner : String
  name : String
  deriving DecidableEq, Repr

/-- The query that a text asks. -/
def compileQuery (text : String) : Except Raised Query :=
  if some text = SourceDocument.queries.get? "import_sources" then
    .ok { outer := "import_statement", field := "source", inner := "string", name := "source" }
  else .error ⟨"QueryError", "Invalid query"⟩

/-- The machine as a library. -/
def library : ParserLibrary where
  parse := parse
  Query := Query
  compile _ := compileQuery
  captures q tree := (nodesIn q.outer q.field q.inner tree).map fun n => [(q.name, [n])]

end EntryLint.Lexer
