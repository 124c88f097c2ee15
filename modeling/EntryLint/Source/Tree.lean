import EntryLint.NameMap
import EntryLint.Source.Language
import EntryLint.Traced

/-!
# Syntax trees

The tool leaves parsing to a library: it hands over a grammar and the bytes of a text, gets a tree
back, and finds nodes in it by queries in the library's own language. A query answers with its
matches, and each match with the nodes that it captured under names.
-/

namespace EntryLint

/-- A node of a syntax tree: its kind, the bytes it covers, whether it stands for something that is
missing, and its children, some of which fill a field. -/
inductive SyntaxNode where
  | node (kind : String) (startByte endByte : Nat) (isMissing : Bool)
      (children : List (Option String × SyntaxNode))

namespace SyntaxNode

/-- The kind of a node. -/
def kind : SyntaxNode → String
  | node kind _ _ _ _ => kind

/-- The first byte of a node. -/
def startByte : SyntaxNode → Nat
  | node _ startByte _ _ _ => startByte

/-- The byte after the last one of a node. -/
def endByte : SyntaxNode → Nat
  | node _ _ endByte _ _ => endByte

/-- The children of a node with their fields. -/
def children : SyntaxNode → List (Option String × SyntaxNode)
  | node _ _ _ _ children => children

mutual

/-- Whether something in a tree could not be parsed or is missing. -/
def hasError : SyntaxNode → Bool
  | node kind _ _ isMissing children => kind = "ERROR" || isMissing || anyError children

/-- Whether something below a node could not be parsed or is missing. -/
def anyError : List (Option String × SyntaxNode) → Bool
  | [] => false
  | (_, n) :: rest => hasError n || anyError rest

end

end SyntaxNode

/-- A library that parses source texts. -/
structure ParserLibrary where
  parse : Grammar → List UInt8 → SyntaxNode
  /-- A compiled query. -/
  Query : Type
  compile : Grammar → String → Except Raised Query
  /-- The matches of a query in a tree, each with its captured nodes by name. -/
  captures : Query → SyntaxNode → List (NameMap (List SyntaxNode))

end EntryLint
