import EntryLint.Config.Resolve
import EntryLint.Ignore.Session
import EntryLint.Text.Lower

/-!
# Finding the files to check

Targets are files and directories. A directory is walked through, past directories that are never
entered, excluded or ignored; a file that is named is checked even if it is ignored, but not if it
is excluded. The result is sorted and names every file once. One ignore session serves all walks of
a search, so ignore files are read once.
-/

namespace EntryLint

/-- Why files cannot be found. -/
inductive DiscoveryError where
  /-- An ignore pattern or an excluding pattern cannot be compiled. -/
  | pattern (e : Raised)
  | outsideRoot (root target : String)
  | missingTarget (target : String)
  deriving DecidableEq, Repr

namespace DiscoveryError

/-- The text of an error. -/
def message : DiscoveryError → String
  | pattern e => e.message
  | outsideRoot root target => "Target is outside of project root " ++ root ++ ": " ++ target
  | missingTarget target => "No such file or directory: " ++ target

end DiscoveryError

/-- A project and the choice of its files. -/
structure Discovery (lib : PatternLibrary) where
  tree : FileTree
  root : Path
  /-- The extensions of files that are checked, in lower case. -/
  extensions : List String
  exclude : Option lib.Selection
  /-- The ignore session, if ignore files count. -/
  session : Option (IgnoreSession lib)

/-- A search through a project: it can fail, it writes to the log, and what the ignore session has
read stays for the rest of the search. -/
abbrev Search (lib : PatternLibrary) (α : Type) :=
  StateT (Option (IgnoreSession lib)) (Traced LogLine DiscoveryError) α

namespace Discovery

variable {lib : PatternLibrary}

/-- Directories that are never entered. -/
def neverEntered : List String := [".git", "node_modules"]

/-- The compiled patterns that a configuration excludes by, if there are any. -/
def selectionOf (lib : PatternLibrary) (cfg : LintConfig) :
    Except DiscoveryError (Option lib.Selection) :=
  if cfg.exclude.isEmpty then .ok none else ((lib.select cfg.exclude).mapError .pattern).map some

/-- The ignore session of a search, if ignore files count. -/
def sessionOf (lib : PatternLibrary) (tree : FileTree) (root : Path) (cfg : LintConfig) :
    Logged DiscoveryError (Option (IgnoreSession lib)) :=
  if cfg.gitignore then do return some (← (IgnoreSession.start lib tree root).mapError .pattern)
  else return none

/-- The choice that a configuration makes in a project. Excluding patterns are compiled before
ignore files are read. -/
def ofConfig (lib : PatternLibrary) (tree : FileTree) (root : Path) (cfg : LintConfig) :
    Logged DiscoveryError (Discovery lib) := do
  let exclude ← Traced.ofExcept (selectionOf lib cfg)
  let session ← sessionOf lib tree root cfg
  return { tree, root, extensions := cfg.lintExtensions.map Text.lower, exclude, session }

/-- Whether a path has an extension that is checked. -/
def isLintable (d : Discovery lib) (rel : String) : Bool :=
  d.extensions.contains (Text.lower (pathExtension rel))

/-- Whether a path is excluded. A path that ends in a slash is a directory. -/
def isExcluded (d : Discovery lib) (rel : String) : Bool :=
  d.exclude.any (lib.selects · rel)

/-- Puts a question to the session of the search. Without a session nothing is ignored. -/
def ask (question : IgnoreSession lib → IgnoreSession lib × Except Raised Bool) : Search lib Bool
  | none => Traced.ok (false, none)
  | some session =>
    let (session, answer) := question session
    Traced.ofExcept (answer.mapError .pattern |>.map (·, some session))

/-- Whether a path is ignored. -/
def isIgnored (d : Discovery lib) (rel : String) : Search lib Bool :=
  ask (·.isIgnored d.tree rel)

/-- Whether a directory is ignored. -/
def isDirIgnored (d : Discovery lib) (rel : String) : Search lib Bool :=
  ask (·.isDirIgnored d.tree rel)

/-- Whether a directory is excluded or ignored. -/
def skipsDir (d : Discovery lib) (rel : String) : Search lib Bool :=
  if d.isExcluded (rel ++ "/") then return true else d.isDirIgnored rel

/-- Whether a file that is met on a walk is checked. -/
def keepsFile (d : Discovery lib) (rel : String) : Search lib Bool :=
  if !d.isLintable rel || d.isExcluded rel then return false else do return !(← d.isIgnored rel)

/-- The path of an entry of a directory; the empty path is the root. -/
def inside (dir name : String) : String :=
  if dir = "" then name else dir ++ "/" ++ name

/-- The names of the directories among some entries that a walk enters. -/
def enteredDirs (d : Discovery lib) (dir : String) : List (String × FileTree) →
    Search lib (List String)
  | [] => return []
  | (_, .file _) :: rest => enteredDirs d dir rest
  | (name, .dir _) :: rest => do
    if neverEntered.contains name then enteredDirs d dir rest
    else
      let rel := inside dir name
      if ← d.skipsDir rel then
        StateT.lift (Logged.debug ("Skipping directory " ++ rel))
        enteredDirs d dir rest
      else return name :: (← enteredDirs d dir rest)

/-- The paths of the files among some entries that are checked. -/
def keptFiles (d : Discovery lib) (dir : String) : List (String × FileTree) →
    Search lib (List String)
  | [] => return []
  | (_, .dir _) :: rest => keptFiles d dir rest
  | (name, .file _) :: rest => do
    let rel := inside dir name
    let keeps ← d.keepsFile rel
    let files ← keptFiles d dir rest
    return if keeps then rel :: files else files

mutual

/-- The files of a directory and of those below it that a walk enters. -/
def walk (d : Discovery lib) (dir : String) : FileTree → Search lib (List String)
  | .file _ => return []
  | .dir entries => do
    let entered ← d.enteredDirs dir entries
    let files ← d.keptFiles dir entries
    return files ++ (← walkEntries d dir entered entries)

/-- The files below the entries of a directory that a walk enters. -/
def walkEntries (d : Discovery lib) (dir : String) (entered : List String) :
    List (String × FileTree) → Search lib (List String)
  | [] => return []
  | (name, t) :: rest => do
    let below ← if entered.contains name then walk d (inside dir name) t else pure []
    return below ++ (← walkEntries d dir entered rest)

end

/-- The path of a target relative to the root, unless it lies outside. -/
def relative (d : Discovery lib) (path : Path) : Except DiscoveryError String :=
  match d.root.below? path.resolve with
  | some parts => .ok (Text.join "/" parts)
  | none => .error (.outsideRoot d.root.text path.text)

/-- The name of a file target; the root itself is a dot. -/
def fileName (rel : String) : String :=
  if rel = "" then "." else rel

/-- The files of a target. -/
def ofTarget (d : Discovery lib) (target : Path) : Search lib (List String) :=
  let path := d.root.under target
  match d.tree.find? path with
  | some (.dir entries) => do
    let dir ← StateT.lift (Traced.ofExcept (d.relative path))
    d.walk dir (FileTree.dir entries).sorted
  | some (.file _) => do
    let rel := fileName (← StateT.lift (Traced.ofExcept (d.relative path)))
    if !d.isLintable rel then
      StateT.lift (Logged.debug ("Skipping " ++ rel ++ ": extension is not linted"))
      return []
    else if d.isExcluded rel then
      StateT.lift (Logged.debug ("Skipping " ++ rel ++ ": matched by exclude"))
      return []
    else return [rel]
  | none => StateT.lift (Traced.fail (.missingTarget target.text))

/-- The files of some targets, one after the other. -/
def ofTargets (d : Discovery lib) : List Path → Search lib (List String)
  | [] => return []
  | target :: rest => do
    let files ← d.ofTarget target
    return files ++ (← ofTargets d rest)

/-- Texts in increasing order, each once. -/
def sortedOnce (xs : List String) : List String :=
  sortNames xs.eraseDups

/-- The files of some targets in order, each once; no target stands for the whole project. -/
def files (d : Discovery lib) (targets : List Path) : Logged DiscoveryError (List String) := do
  let (found, _) ← (d.ofTargets (if targets.isEmpty then [d.root] else targets)).run d.session
  return sortedOnce found

end Discovery

end EntryLint
