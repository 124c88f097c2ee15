import EntryLint.Traced
import EntryLint.Value.Basic

/-!
# The document library

The tool leaves the reading of configuration documents to a library. A text has a value, or it is no
document, which the library says in its own words, or the library raises something else.
-/

namespace EntryLint

/-- Why a text has no value. -/
inductive YamlFailure where
  | malformed (detail : String)
  | raised (e : Raised)
  deriving DecidableEq, Repr

/-- A library that reads documents. -/
abbrev YamlReader := String → Except YamlFailure Value

end EntryLint
