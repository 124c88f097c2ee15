import EntryLint.Text.Lower

/-!
# Source languages

Which files can be searched for imports, and with which grammar: the plain one or the one that also
knows markup elements. Extensions are compared without leading dots and without regard to case.
-/

namespace EntryLint

/-- The two grammars of source files. -/
inductive Grammar where
  /-- Types may be asserted in angle brackets. -/
  | plain
  /-- Angle brackets in front of an operand start a markup element. -/
  | markup
  deriving DecidableEq, Repr

namespace Grammar

/-- The extensions with the plain grammar. -/
def plainExtensions : List String := ["ts", "mts", "cts"]

/-- The extensions with the markup grammar. -/
def markupExtensions : List String := ["tsx", "js", "jsx", "mjs", "cjs"]

/-- An extension without leading dots, in lower case. -/
def normalize (suffix : String) : String :=
  Text.lower (String.ofList (suffix.toList.dropWhile (· = '.')))

/-- Whether files with a suffix can be searched. -/
def isSupported (suffix : String) : Bool :=
  let ext := normalize suffix
  plainExtensions.contains ext || markupExtensions.contains ext

/-- The grammar of a normalised extension; unknown ones are read with the markup grammar. -/
def ofExtension (ext : String) : Grammar :=
  if plainExtensions.contains ext then plain else markup

end Grammar

end EntryLint
