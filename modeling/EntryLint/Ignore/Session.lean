import EntryLint.Ignore.Levels
import EntryLint.NameMap

/-!
# Ignore sessions

A session answers one query after another and remembers what it has read and decided: ignore files
are read once, at the first query that needs them, and a path keeps its first verdict.
-/

namespace EntryLint

/-- What a session remembers: the patterns of directories and the verdicts on paths. -/
structure IgnoreSession (lib : PatternLibrary) where
  root : Path
  levels : NameMap (List lib.Pattern)
  verdicts : NameMap Bool

namespace IgnoreSession

variable {lib : PatternLibrary}

/-- A session on a project, with the patterns that hold for all of it. -/
def start (lib : PatternLibrary) (tree : FileTree) (root : Path) :
    Logged Raised (IgnoreSession lib) := do
  let top ← Ignore.rootPatterns lib tree root
  return { root, levels := [("", top)], verdicts := [] }

/-- The patterns of a directory, read at most once. -/
def patternsAt (session : IgnoreSession lib) (tree : FileTree) (dir : String) :
    IgnoreSession lib × Except Raised (List lib.Pattern) :=
  match session.levels.get? dir with
  | some patterns => (session, .ok patterns)
  | none =>
    match Ignore.levelPatterns lib tree session.root dir with
    | .error e => (session, .error e)
    | .ok patterns => ({ session with levels := session.levels.put dir patterns }, .ok patterns)

/-- The verdict of some levels on top of an earlier one. What was read before a failure stays. -/
def decideLevels (tree : FileTree) : IgnoreSession lib → Bool → List (String × String) →
    IgnoreSession lib × Except Raised Bool
  | session, earlier, [] => (session, .ok earlier)
  | session, earlier, (dir, tail) :: rest =>
    match session.patternsAt tree dir with
    | (session, .error e) => (session, .error e)
    | (session, .ok patterns) =>
      decideLevels tree session (lib.verdict patterns tail earlier) rest

/-- Whether a path is ignored: its first verdict, or a new one, which is remembered. -/
def isIgnored (session : IgnoreSession lib) (tree : FileTree) (rel : String) :
    IgnoreSession lib × Except Raised Bool :=
  match session.verdicts.get? rel with
  | some verdict => (session, .ok verdict)
  | none =>
    match decideLevels tree session false (Ignore.levels rel) with
    | (session, .error e) => (session, .error e)
    | (session, .ok verdict) =>
      ({ session with verdicts := session.verdicts.put rel verdict }, .ok verdict)

/-- Whether a directory is ignored. -/
def isDirIgnored (session : IgnoreSession lib) (tree : FileTree) (rel : String) :
    IgnoreSession lib × Except Raised Bool :=
  session.isIgnored tree (Ignore.asDirectory rel)

end IgnoreSession

end EntryLint
