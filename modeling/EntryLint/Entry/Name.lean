import EntryLint.Text.Segments

/-!
# Entry names

A module is entered through files whose names follow one of two grammars. A *normal* entry is
`entry` followed by dotted segments (`entry.core.v2`); a *children* entry is `entry..`, dotted
segments, and `children` (`entry..utils.children`). Cut at the dots, the first has no empty piece
and the second has exactly one, right after `entry`; so no name is both.
-/

namespace EntryLint

/-- How a file name, without its extension, relates to the entry grammars. -/
inductive EntryKind where
  | normal
  | children
  | plain
  deriving DecidableEq, Repr

namespace EntryKind

/-- The word for an entry kind in reports. -/
def label : EntryKind → String
  | normal => "normal"
  | children => "children"
  | plain => "plain"

end EntryKind

namespace EntryName

/-- Segments consist of ASCII letters, digits and hyphens. -/
def isSegmentChar (c : Char) : Bool :=
  c.isAlphanum || c = '-'

/-- A segment of an entry name is a non-empty run of segment characters. -/
def isSegment (s : List Char) : Bool :=
  !s.isEmpty && s.all isSegmentChar

/-- The grammar of normal entries on the dot-separated pieces of a name. -/
def normalPieces : List (List Char) → Bool
  | [] => false
  | head :: segments => head = "entry".toList && segments.all isSegment

/-- The grammar of children entries on the dot-separated pieces of a name. -/
def childrenPieces : List (List Char) → Bool
  | head :: gap :: rest =>
    head = "entry".toList && gap.isEmpty && rest.getLast? = some "children".toList &&
      rest.dropLast.all isSegment
  | _ => false

/-- Whether a name is `entry` followed by dotted segments. -/
def isNormal (name : String) : Bool :=
  normalPieces (Text.pieces '.' name.toList)

/-- Whether a name is `entry..`, dotted segments, and `children`. -/
def isChildren (name : String) : Bool :=
  childrenPieces (Text.pieces '.' name.toList)

/-- The kind of an extension-free file name. -/
def kind (name : String) : EntryKind :=
  if isChildren name then .children
  else if isNormal name then .normal
  else .plain

end EntryName

end EntryLint
