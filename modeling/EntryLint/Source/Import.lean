import EntryLint.Source.Document

/-!
# Import sources

The sources of the static imports of a text: the string literals that the parser captures, without
their quotes.
-/

namespace EntryLint

/-- The text between two equal quotes, if a text is that. -/
def unquote? (text : String) : Option String :=
  match text.toList with
  | [] => none
  | quote :: rest =>
    if (quote = '\'' || quote = '"') && rest.getLast? = some quote then
      some (String.ofList rest.dropLast)
    else none

namespace SourceDocument

variable {parser : ParserLibrary}

/-- The import source of a captured node, if it is a literal in quotes. -/
def sourceOf (doc : SourceDocument) (node : SyntaxNode) : Except Raised (Option ImportSource) := do
  let text ← doc.nodeText node
  return (unquote? text).map fun path => { path, span := doc.nodeSpan node }

/-- The import sources among some captured nodes. -/
def sourcesOf (doc : SourceDocument) : List (SyntaxNode × String) →
    Except Raised (List ImportSource)
  | [] => .ok []
  | (node, capture) :: rest =>
    if capture = "source" then do
      let source? ← doc.sourceOf node
      let sources ← sourcesOf doc rest
      return source?.toList ++ sources
    else sourcesOf doc rest

/-- The import sources of a document. -/
def extract (parser : ParserLibrary) (doc : SourceDocument) :
    Scan parser (List ImportSource) := do
  if doc.hasError then
    StateT.lift (Logged.debug
      ("Syntax errors in ." ++ doc.ext ++ " document, scanning recoverable imports only"))
  let found ← doc.query parser "import_sources"
  StateT.lift (Traced.ofExcept (doc.sourcesOf found))

end SourceDocument

/-- The sources of the static imports of a text, in their order. -/
def extractImports (parser : ParserLibrary) (text ext : String) :
    Scan parser (List ImportSource) :=
  (SourceDocument.ofText parser text (Grammar.normalize ext)).extract parser

end EntryLint
