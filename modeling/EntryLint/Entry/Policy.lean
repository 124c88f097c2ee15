import EntryLint.Text.Segments

/-!
# Path policies

What a project fixes about its import paths: the alias that starts a top-level import, and the
source extensions that are cut off a file name before its entry grammar is checked.
-/

namespace EntryLint

/-- The conventions of a project that the classification of import paths depends on. -/
structure PathPolicy where
  /-- The alias of the project root in top-level imports. -/
  rootAlias : String := "@"
  /-- The source extensions that are cut off file names. -/
  extensions : List String := [".ts", ".tsx", ".js", ".jsx"]
  deriving DecidableEq, Repr

namespace PathPolicy

/-- The text that every top-level import starts with. -/
def topLevelMarker (policy : PathPolicy) : String :=
  policy.rootAlias ++ "/"

end PathPolicy

/-- The length of the longest of the extensions that ends a name, zero when none does. -/
def extensionLength (extensions : List String) (name : String) : Nat :=
  extensions.foldl (fun n e => if Text.endsWith e name then max n e.length else n) 0

/-- A name without the longest of the extensions that ends it. -/
def stripExtension (extensions : List String) (name : String) : String :=
  Text.dropLast (extensionLength extensions name) name

end EntryLint
