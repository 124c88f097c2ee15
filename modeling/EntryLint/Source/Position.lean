/-!
# Positions in a text

Lines and columns count from one. Only a line feed starts a new line, and columns count characters.
-/

namespace EntryLint

/-- A position in a text. -/
structure Position where
  line : Nat := 1
  column : Nat := 1
  deriving DecidableEq, Repr

end EntryLint
