import EntryLint.Traced

/-!
# The pattern library

The tool leaves the language of ignore patterns to a library. All it relies on is that a line
compiles or raises an exception, that a compiled line has a sign or says nothing, and that lines
and selections match paths.
-/

namespace EntryLint

/-- A library of ignore patterns. -/
structure PatternLibrary where
  /-- A compiled line of an ignore file. -/
  Pattern : Type
  compile : String → Except Raised Pattern
  /-- Whether matching paths are ignored or taken back; a blank line or a comment has no sign. -/
  sign : Pattern → Option Bool
  accepts : Pattern → String → Bool
  /-- A compiled list of lines that select paths. -/
  Selection : Type
  select : List String → Except Raised Selection
  selects : Selection → String → Bool

namespace PatternLibrary

variable (lib : PatternLibrary)

/-- The patterns of some lines, without those that say nothing. -/
def readLines : List String → Except Raised (List lib.Pattern)
  | [] => .ok []
  | line :: lines => do
    let p ← lib.compile line
    let ps ← readLines lines
    return if (lib.sign p).isSome then p :: ps else ps

/-- The sign of the last pattern that matches a path, on top of an earlier verdict. -/
def verdict (patterns : List lib.Pattern) (path : String) (earlier : Bool) : Bool :=
  patterns.foldl (fun v p => if lib.accepts p path then (lib.sign p).getD false else v) earlier

end PatternLibrary

end EntryLint
