import EntryLint.Ignore.Pattern
import EntryLint.Libraries
import EntryLint.Parser.Library
import EntryLint.Yaml.Document

/-!
# Included libraries

The libraries that a run uses unless it is given others.
-/

namespace EntryLint

/-- The libraries that come with the tool. -/
def Libraries.included : Libraries where
  patterns := IgnorePattern.library
  parser := Lexer.library
  yaml := Yaml.library

end EntryLint
