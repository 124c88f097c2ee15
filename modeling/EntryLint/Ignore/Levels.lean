import EntryLint.Files.Tree
import EntryLint.Ignore.Library
import EntryLint.Text.Lines
import EntryLint.Text.Segments
import EntryLint.Text.Utf8

/-!
# Ignore files of a project

The patterns of `.git/info/exclude` and of the `.gitignore` at the root hold everywhere; those of a
`.gitignore` further down hold below its directory, for paths relative to it. The last pattern that
matches decides, so deeper files and later lines win.
-/

namespace EntryLint.Ignore

variable (lib : PatternLibrary)

/-- The patterns of a decoded ignore file. -/
def ofBytes (bytes : List UInt8) : Except Raised (List lib.Pattern) :=
  let text := String.ofList (Text.unifyNewlines (Text.decodeLossy bytes).toList)
  lib.readLines (Text.lines text)

/-- The patterns of an ignore file. A file that cannot be read has none and leaves a warning. -/
def readPatterns (tree : FileTree) (path : Path) : Logged Raised (List lib.Pattern) :=
  match tree.read path with
  | .error e => do
    Logged.warning ("Failed to read " ++ path.text ++ ": " ++ e.message)
    return []
  | .ok bytes => Traced.ofExcept (ofBytes lib bytes)

/-- The patterns that hold for the whole project. -/
def rootPatterns (tree : FileTree) (root : Path) : Logged Raised (List lib.Pattern) := do
  let excluded ← readPatterns lib tree (((root.child ".git").child "info").child "exclude")
  let ignored ← readPatterns lib tree (root.child ".gitignore")
  return excluded ++ ignored

/-- The patterns of the ignore file in a directory of the project, if there is one. -/
def levelPatterns (tree : FileTree) (root : Path) (dir : String) :
    Except Raised (List lib.Pattern) :=
  match tree.find? ((root.under (Path.ofText dir)).child ".gitignore") with
  | some (.file bytes) => ofBytes lib bytes
  | _ => .ok []

/-- The names on the way to a path. -/
def parts (rel : String) : List String :=
  (Text.split '/' rel).filter (· ≠ "")

/-- The slash that marks a path as a directory. -/
def slash (rel : String) : String :=
  if Text.endsWith "/" rel then "/" else ""

/-- The directories above a path from the root inwards, each with the path relative to it. -/
def levels (rel : String) : List (String × String) :=
  let ps := parts rel
  (List.range ps.length).map fun n =>
    (Text.join "/" (ps.take n), Text.join "/" (ps.drop n) ++ slash rel)

/-- The path of a directory, with the slash that marks it. -/
def asDirectory (rel : String) : String :=
  Text.dropTrailing (· = '/') rel ++ "/"

end EntryLint.Ignore
