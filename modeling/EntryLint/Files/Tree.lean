import EntryLint.Files.Path
import EntryLint.Text.Quoted

/-!
# File trees

A file system as a value: files with their bytes and directories with named entries. Looking up a
path walks through directories only, so a path through a file or a missing directory leads nowhere,
even when a later `..` would take it back.
-/

namespace EntryLint

/-- A file or a directory. -/
inductive FileTree where
  | file (bytes : List UInt8)
  | dir (entries : List (String × FileTree))

namespace FileTree

/-- The empty directory. -/
def empty : FileTree :=
  dir []

/-- The entry of a name. -/
def lookup? (entries : List (String × FileTree)) (name : String) : Option FileTree :=
  (entries.find? fun (n, _) => n = name).map Prod.snd

/-- Sets the entry of a name. -/
def putEntry (entries : List (String × FileTree)) (name : String) (t : FileTree) :
    List (String × FileTree) :=
  if entries.any fun (n, _) => n = name then
    entries.map fun (n, old) => if n = name then (n, t) else (n, old)
  else entries ++ [(name, t)]

/-- Follows parts from a directory, with the directories above it for `..`. -/
def follow (above : List FileTree) (here : FileTree) : List String → Option FileTree
  | [] => some here
  | part :: parts =>
    match here with
    | file _ => none
    | dir entries =>
      if part = ".." then
        match above with
        | [] => follow [] here parts
        | up :: rest => follow rest up parts
      else
        match lookup? entries part with
        | some t => follow (here :: above) t parts
        | none => none

/-- What stands at an absolute path. -/
def find? (tree : FileTree) (p : Path) : Option FileTree :=
  follow [] tree p.parts

/-- Whether a directory stands at a path. -/
def isDir (tree : FileTree) (p : Path) : Bool :=
  match tree.find? p with
  | some (dir _) => true
  | _ => false

/-- Whether a file stands at a path. -/
def isFile (tree : FileTree) (p : Path) : Bool :=
  match tree.find? p with
  | some (file _) => true
  | _ => false

/-- Why a file cannot be read. -/
inductive ReadError where
  | missing (path : String)
  | isDirectory (path : String)
  | notDirectory (path : String)
  deriving DecidableEq, Repr

/-- The text of a read error. -/
def ReadError.message : ReadError → String
  | missing path => "[Errno 2] No such file or directory: " ++ Text.quote path
  | isDirectory path => "[Errno 21] Is a directory: " ++ Text.quote path
  | notDirectory path => "[Errno 20] Not a directory: " ++ Text.quote path

/-- Whether a file stands in the way of a path. -/
def blocked (tree : FileTree) (p : Path) : Bool :=
  (List.range p.parts.length).any fun n => tree.isFile { p with parts := p.parts.take n }

/-- The bytes of a file. -/
def read (tree : FileTree) (p : Path) : Except ReadError (List UInt8) :=
  match tree.find? p with
  | some (file bytes) => .ok bytes
  | some (dir _) => .error (.isDirectory p.text)
  | none => .error (if tree.blocked p then .notDirectory p.text else .missing p.text)

/-- Puts a file or directory at a path and makes the directories on the way. A directory that is
there already stays. -/
def insert (tree : FileTree) (parts : List String) (new : FileTree) : FileTree :=
  match parts, tree with
  | [], dir entries =>
    match new with
    | dir _ => dir entries
    | t => t
  | [], file _ => new
  | part :: rest, dir entries =>
    let below := (lookup? entries part).getD empty
    dir (putEntry entries part (insert below rest new))
  | part :: rest, file _ => dir [(part, insert empty rest new)]

mutual

/-- A tree with the entries of every directory in increasing order of their names. -/
def sorted : FileTree → FileTree
  | file bytes => file bytes
  | dir entries => dir ((sortedEntries entries).mergeSort fun a b => !decide (b.1 < a.1))

/-- Entries with sorted trees. -/
def sortedEntries : List (String × FileTree) → List (String × FileTree)
  | [] => []
  | (name, t) :: rest => (name, sorted t) :: sortedEntries rest

end

end FileTree

end EntryLint
