import EntryLint.Text.Segments

/-!
# File paths

A path is an anchor and parts. Reading one drops empty and `.` parts and keeps `..`; resolving an
absolute path lets every `..` take back the part before it.
-/

namespace EntryLint

/-- A path in a file system: where it is anchored, and its parts. -/
structure Path where
  /-- Empty for a relative path, else one slash, or two where a path starts with exactly two. -/
  anchor : String
  parts : List String
  deriving DecidableEq, Repr

namespace Path

/-- The anchor of a path with the given number of leading slashes. -/
def anchorOf : Nat → String
  | 0 => ""
  | 2 => "//"
  | _ => "/"

/-- Reads a path. -/
def ofText (s : String) : Path :=
  { anchor := anchorOf (s.toList.takeWhile (· = '/')).length
    parts := (Text.split '/' s).filter fun part => part ≠ "" && part ≠ "." }

/-- The text of a path; the empty relative path is a dot. -/
def text (p : Path) : String :=
  if p.anchor = "" && p.parts.isEmpty then "." else p.anchor ++ Text.join "/" p.parts

/-- Whether a path is absolute. -/
def isAbsolute (p : Path) : Bool :=
  p.anchor ≠ ""

/-- A path taken from a base: an absolute path stands for itself. -/
def under (base p : Path) : Path :=
  if p.isAbsolute then p else { base with parts := base.parts ++ p.parts }

/-- A path with one more part. -/
def child (p : Path) (name : String) : Path :=
  { p with parts := p.parts ++ [name] }

/-- Resolves the `..` among parts; above the top there is only the top. -/
def resolveParts (parts : List String) : List String :=
  parts.foldl (fun done part => if part = ".." then done.dropLast else done ++ [part]) []

/-- An absolute path without `..`. -/
def resolve (p : Path) : Path :=
  { anchor := "/", parts := resolveParts p.parts }

/-- The parts of a path below a base, if it is the base or below it. -/
def below? (base p : Path) : Option (List String) :=
  if base.parts.isPrefixOf p.parts then some (p.parts.drop base.parts.length) else none

end Path

/-- The part of a file name from its last dot on, if something other than dots stands before it. -/
def splitSuffix (name : String) : String :=
  let rest := name.toList.dropWhile (· = '.')
  if rest.contains '.' then
    String.ofList ('.' :: (rest.reverse.takeWhile (· ≠ '.')).reverse)
  else ""

/-- The last part of a slash-separated path. -/
def lastSegment (rel : String) : String :=
  (Text.split '/' rel).getLast?.getD ""

/-- The extension of the last part of a path, as a file is chosen by: leading dots of a name open
no extension. -/
def pathExtension (rel : String) : String :=
  splitSuffix (lastSegment rel)

/-- The suffix of a file name, as its grammar is chosen by: from the last dot, which must be neither
first nor last. -/
def nameSuffix (name : String) : String :=
  let tail := (name.toList.reverse.takeWhile (· ≠ '.')).reverse
  let before := name.length - tail.length - 1
  if Text.contains '.' name && 0 < before && !tail.isEmpty then String.ofList ('.' :: tail) else ""

end EntryLint
