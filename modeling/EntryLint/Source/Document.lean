import EntryLint.Rule.Basic
import EntryLint.Source.Position
import EntryLint.Source.Tree
import EntryLint.Text.Utf8

/-!
# Source documents

A parsed source text. Named queries give its nodes in document order, and the bytes of a node become
the lines and columns that an editor shows. Compiled queries are shared by all documents of a
process.
-/

namespace EntryLint

/-- The number of entries of a sorted array that are at most `x`, searched for between two bounds by
halving. -/
def bisectRight (xs : Array Nat) (x low high : Nat) : Nat :=
  if h : low < high then
    let middle := (low + high) / 2
    if x < xs.getD middle 0 then bisectRight xs x low middle
    else bisectRight xs x (middle + 1) high
  else low
termination_by high - low

/-- A parsed source text. -/
structure SourceDocument where
  /-- The extension of the file, without a dot and in lower case. -/
  ext : String
  data : List UInt8
  /-- The bytes that lines start with. -/
  lineStarts : Array Nat
  tree : SyntaxNode

/-- What identifies a compiled query: the kind of the document, its extension and the query's
name. -/
structure QueryKey where
  document : String
  ext : String
  query : String
  deriving DecidableEq, Repr

/-- The queries that were compiled so far. -/
abbrev QueryCache (parser : ParserLibrary) := List (QueryKey × parser.Query)

/-- A computation on source texts: it can fail, it writes to the log, and compiled queries stay for
later. -/
abbrev Scan (parser : ParserLibrary) (α : Type) :=
  StateT (QueryCache parser) (Traced LogLine Raised) α

namespace SourceDocument

variable {parser : ParserLibrary}

/-- The bytes after the line feeds of some data, which starts at an offset. -/
def lineStartsAfter : Nat → List UInt8 → List Nat
  | _, [] => []
  | offset, b :: rest =>
    if b = 0x0a then (offset + 1) :: lineStartsAfter (offset + 1) rest
    else lineStartsAfter (offset + 1) rest

/-- Parses a text. -/
def ofText (parser : ParserLibrary) (text ext : String) : SourceDocument :=
  let data := Text.encode text
  { ext, data
    lineStarts := (0 :: lineStartsAfter 0 data).toArray
    tree := parser.parse (Grammar.ofExtension ext) data }

/-- Whether the text has syntax errors. -/
def hasError (doc : SourceDocument) : Bool :=
  doc.tree.hasError

/-- The name of documents of this kind. -/
def kind : String := "TypeScriptDocument"

/-- The queries for documents of this kind. Static imports keep the literal of their source in a
field of their own; that of a required module is further down. -/
def queries : NameMap String :=
  [("import_sources", "\n    (import_statement\n      source: (string) @source)\n    ")]

/-- The compiled query of a name, compiled at most once for every extension. -/
def compile (parser : ParserLibrary) (doc : SourceDocument) (name : String) :
    Scan parser parser.Query := fun cache =>
  match queries.get? name with
  | none => Traced.fail ⟨"ValueError", "Unknown query: " ++ name⟩
  | some text =>
    let key : QueryKey := { document := kind, ext := doc.ext, query := name }
    match cache.lookup key with
    | some query => pure (query, cache)
    | none =>
      match parser.compile (Grammar.ofExtension doc.ext) text with
      | .error e => Traced.fail e
      | .ok query => pure (query, (key, query) :: cache)

/-- The nodes that a match captured, with the names they are captured under. -/
def capturedNodes (captured : NameMap (List SyntaxNode)) : List (SyntaxNode × String) :=
  captured.flatMap fun (name, nodes) => nodes.map (·, name)

/-- The nodes that a query captures, in document order. -/
def query (parser : ParserLibrary) (doc : SourceDocument) (name : String) :
    Scan parser (List (SyntaxNode × String)) := do
  let query ← doc.compile parser name
  let found := (parser.captures query doc.tree).flatMap capturedNodes
  return found.mergeSort fun a b => decide (a.1.startByte ≤ b.1.startByte)

/-- The bytes between two offsets. -/
def slice (doc : SourceDocument) (start stop : Nat) : List UInt8 :=
  (doc.data.take stop).drop start

/-- The text of a node. -/
def nodeText (doc : SourceDocument) (node : SyntaxNode) : Except Raised String :=
  (Text.decode (doc.slice node.startByte node.endByte)).mapError fun e =>
    ⟨"UnicodeDecodeError", e.message⟩

/-- The position of a byte. A character that is cut off by it does not count. -/
def point (doc : SourceDocument) (offset : Nat) : Position :=
  let row := bisectRight doc.lineStarts offset 0 doc.lineStarts.size - 1
  let before := doc.slice (doc.lineStarts.getD row 0) offset
  { line := row + 1, column := (Text.decodeLossy before).length + 1 }

/-- The place of a node, as an editor shows it. -/
def nodeSpan (doc : SourceDocument) (node : SyntaxNode) : Span :=
  let start := doc.point node.startByte
  let stop := doc.point node.endByte
  { line := start.line, column := start.column, endLine := stop.line, endColumn := stop.column }

end SourceDocument

end EntryLint
