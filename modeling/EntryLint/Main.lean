import EntryLint.Command.Run
import EntryLint.Included

/-!
# The command

Takes the files that a run can look at from the disk, runs the tool on them and prints what it
leaves.
-/

namespace EntryLint

/-- The files and directories at a place on the disk and below it, if there is anything. Links to
directories are not followed. -/
partial def itemsAt (place : Path) : IO (List (Path × FileTree)) := do
  let .ok path ← (IO.FS.realPath place.text).toBaseIO | return []
  if ← path.isDir then
    let below ← (← path.readDir).toList.mapM fun entry => do
      let linked := (← entry.path.symlinkMetadata).type == .symlink
      if linked && (← entry.path.isDir) then pure [] else itemsAt (place.child entry.fileName)
    return (place, .empty) :: below.flatten
  else return [(place, .file (← IO.FS.readBinFile path).toList)]

end EntryLint

open EntryLint in
/-- Runs the tool on the disk. A run that breaks off has code 1. -/
def main (args : List String) : IO UInt32 := do
  let workingDirectory := Path.ofText (← IO.currentDir).toString
  let debug := ((← IO.getEnv Tool.debugVariable).getD "") ≠ ""
  let items ← (Command.placesRead workingDirectory args).mapM itemsAt
  let tree := items.flatten.foldl (fun tree (p, t) => tree.insert p.parts t) FileTree.empty
  match Command.run .included { tree, workingDirectory, debug } args with
  | .ok result =>
    IO.print result.stdout
    IO.eprint result.stderr
    return result.code.toUInt32
  | .error breakdown =>
    IO.eprintln breakdown.message
    return 1
