import EntryLint.Entry.Name
import EntryLint.Entry.Policy

/-!
# Classification of import paths

An import path is read by its start. A top-level path (`@/module/entry`) must name a module and a
normal entry in it; a parent path (`../entry..children`) must name a children entry one level up; a
path below the importing file (`./dir/entry`) must name a normal entry of a direct subdirectory. A
sibling (`./anything`) and every other path is free.
-/

namespace EntryLint

/-- The ways in which an import path can break the entry rules. -/
inductive Violation where
  | invalidTopLevelImport
  | invalidTopLevelImportDepth
  | invalidTopLevelImportChildren
  | invalidParentImport
  | tooManyDirectorySegments
  | invalidSubdirectoryImport
  deriving DecidableEq, Repr

namespace Violation

/-- The identifier of a violation in configurations and reports. -/
def id : Violation → String
  | invalidTopLevelImport => "invalidTopLevelImport"
  | invalidTopLevelImportDepth => "invalidTopLevelImportDepth"
  | invalidTopLevelImportChildren => "invalidTopLevelImportChildren"
  | invalidParentImport => "invalidParentImport"
  | tooManyDirectorySegments => "tooManyDirectorySegments"
  | invalidSubdirectoryImport => "invalidSubdirectoryImport"

end Violation

/-- What the start of an import path says about where it leads. -/
inductive PathClass where
  | topLevel
  | parentTraversal
  | subdirectoryOrSibling
  | unrecognized
  deriving DecidableEq, Repr

namespace PathClass

/-- The word for a path class in reports. -/
def label : PathClass → String
  | topLevel => "top-level"
  | parentTraversal => "parent-traversal"
  | subdirectoryOrSibling => "subdirectory-or-sibling"
  | unrecognized => "unrecognized"

/-- The class of a path: the alias wins over the dots, and `..` counts only as a whole segment. -/
def ofPath (policy : PathPolicy) (path : String) : PathClass :=
  if Text.startsWith policy.topLevelMarker path then .topLevel
  else if !Text.startsWith "." path then .unrecognized
  else if path = ".." || Text.startsWith "../" path then .parentTraversal
  else .subdirectoryOrSibling

end PathClass

/-- The classification of an import path with every value it was decided on. -/
structure Classification where
  /-- The path itself. -/
  path : String
  /-- What the start of the path says. -/
  pathClass : PathClass
  /-- The segments that the rules look at. -/
  segments : List String := []
  /-- The name that was matched against the entry grammars, if it came to that. -/
  entryName : Option String := none
  /-- The kind of that name. -/
  entryKind : Option EntryKind := none
  /-- The rule that the path breaks, if any. -/
  violation : Option Violation := none
  deriving DecidableEq, Repr

namespace Classification

/-- The classification of a path whose last segment decides: its extension is cut off and the kind
of the rest is judged. -/
def ofLastSegment (policy : PathPolicy) (path : String) (pathClass : PathClass)
    (segments : List String) (file : String) (judge : EntryKind → Option Violation) :
    Classification :=
  let name := stripExtension policy.extensions file
  let kind := EntryName.kind name
  { path, pathClass, segments
    entryName := some name
    entryKind := some kind
    violation := judge kind }

/-- Top-level imports take normal entries only. -/
def judgeTopLevel : EntryKind → Option Violation
  | .normal => none
  | .children => some .invalidTopLevelImportChildren
  | .plain => some .invalidTopLevelImport

/-- Parent imports take children entries only. -/
def judgeParent : EntryKind → Option Violation
  | .children => none
  | _ => some .invalidParentImport

/-- Subdirectory imports take normal entries only. -/
def judgeSubdirectory : EntryKind → Option Violation
  | .normal => none
  | _ => some .invalidSubdirectoryImport

/-- A top-level path names a module and, directly in it, a file. Both must be there; a path that
goes deeper is told apart from one that names no file. -/
def topLevel (policy : PathPolicy) (path : String) : Classification :=
  let segments := Text.split '/' (Text.dropFirst policy.topLevelMarker.length path)
  match segments with
  | [module, file] =>
    if module = "" || file = "" then
      { path, pathClass := .topLevel, segments, violation := some .invalidTopLevelImport }
    else ofLastSegment policy path .topLevel segments file judgeTopLevel
  | module :: _ :: _ :: _ =>
    let violation : Violation :=
      if module = "" then .invalidTopLevelImport else .invalidTopLevelImportDepth
    { path, pathClass := .topLevel, segments, violation := some violation }
  | _ => { path, pathClass := .topLevel, segments, violation := some .invalidTopLevelImport }

/-- A parent path names a file one level up. -/
def parent (policy : PathPolicy) (path : String) : Classification :=
  let segments := Text.split '/' path
  match segments with
  | [file] => ofLastSegment policy path .parentTraversal segments file judgeParent
  | [_, file] => ofLastSegment policy path .parentTraversal segments file judgeParent
  | _ =>
    { path, pathClass := .parentTraversal, segments, violation := some .tooManyDirectorySegments }

/-- A path below the importing file names a sibling, which is free, or a file of a direct
subdirectory. Without the `./` marker nothing is checked. -/
def subdirectory (policy : PathPolicy) (path : String) : Classification :=
  match Text.after? "./" path with
  | none => { path, pathClass := .subdirectoryOrSibling, segments := Text.split '/' path }
  | some rest =>
    let segments := Text.split '/' rest
    match segments with
    | [_] => { path, pathClass := .subdirectoryOrSibling, segments }
    | [_, file] =>
      ofLastSegment policy path .subdirectoryOrSibling segments file judgeSubdirectory
    | _ =>
      { path, pathClass := .subdirectoryOrSibling, segments
        violation := some .tooManyDirectorySegments }

end Classification

/-- Classifies an import path and keeps every intermediate value. -/
def explain (policy : PathPolicy) (path : String) : Classification :=
  match PathClass.ofPath policy path with
  | .unrecognized => { path, pathClass := .unrecognized }
  | .topLevel => Classification.topLevel policy path
  | .parentTraversal => Classification.parent policy path
  | .subdirectoryOrSibling => Classification.subdirectory policy path

/-- The rule that an import path breaks, if any. -/
def classify (policy : PathPolicy) (path : String) : Option Violation :=
  (explain policy path).violation

end EntryLint
