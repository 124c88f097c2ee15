import EntryLint.Ignore.Library
import EntryLint.Text.Blank
import EntryLint.Text.Quoted
import EntryLint.Text.Segments

/-!
# Ignore patterns

A line of an ignore file is nothing, or a pattern that ignores paths or takes them back. A pattern
is a list of pieces that a path must start with; each piece leaves some of the possible rests of
the path, and the pattern matches when a rest is left at the end.
-/

namespace EntryLint

/-- A set of characters in brackets: closed ranges, or everything else. -/
structure CharClass where
  negated : Bool
  ranges : List (Char × Char)
  deriving DecidableEq, Repr

namespace CharClass

/-- Whether a character is in a class. -/
def contains (cls : CharClass) (c : Char) : Bool :=
  let listed := cls.ranges.any fun (low, high) => low.toNat ≤ c.toNat && c.toNat ≤ high.toNat
  if cls.negated then !listed else listed

/-- Whether no range of a class ends before it starts. -/
def isOrdered (cls : CharClass) : Bool :=
  cls.ranges.all fun (low, high) => low.toNat ≤ high.toNat

end CharClass

/-- What a path segment is matched by, character by character. -/
inductive Glob where
  | char (c : Char)
  /-- Any run of characters other than slashes. -/
  | run
  /-- One character other than a slash. -/
  | single
  | cls (cls : CharClass)
  deriving DecidableEq, Repr

namespace Glob

/-- A text and its rests after some characters that are no slashes. -/
def runRests : List Char → List (List Char)
  | [] => [[]]
  | c :: cs => if c = '/' then [c :: cs] else (c :: cs) :: runRests cs

/-- The rests of a text after a glob. -/
def rests : Glob → List Char → List (List Char)
  | run, cs => runRests cs
  | _, [] => []
  | char d, c :: cs => if c = d then [cs] else []
  | single, c :: cs => if c = '/' then [] else [cs]
  | cls k, c :: cs => if k.contains c then [cs] else []

end Glob

/-- A piece of a pattern. -/
inductive Piece where
  /-- Nothing, or some directories with their slash. -/
  | directories
  /-- Nothing, or a slash and something after it. -/
  | descent
  | slash
  /-- A non-empty name. -/
  | name
  | glob (g : Glob)
  /-- The end of the path, or of a directory name in it. -/
  | boundary
  deriving DecidableEq, Repr

namespace Piece

/-- The rests of a text after one or more characters up to the end of its line. -/
def someRests : List Char → List (List Char)
  | [] => []
  | c :: cs => if c = '\n' then [] else cs :: someRests cs

/-- The rests of a text after a piece. -/
def rests : Piece → List Char → List (List Char)
  | directories, cs =>
    cs :: (someRests cs).filterMap fun
      | '/' :: rest => some rest
      | _ => none
  | descent, cs =>
    cs :: match cs with
      | '/' :: rest => someRests rest
      | _ => []
  | slash, cs =>
    match cs with
    | '/' :: rest => [rest]
    | _ => []
  | name, cs => (Glob.runRests cs).drop 1
  | glob g, cs => g.rests cs
  | boundary, cs =>
    match cs with
    | [] => [[]]
    -- a line feed that ends the path does not count
    | ['\n'] => [['\n']]
    | '/' :: rest => [rest]
    | _ => []

/-- Whether the classes of a piece are ordered. -/
def isOrdered : Piece → Bool
  | glob (.cls k) => k.isOrdered
  | _ => true

end Piece

/-- What a path is searched for. -/
inductive Shape where
  /-- Any path that is not empty. -/
  | anything
  /-- Any path with a slash. -/
  | anyDirectory
  /-- Paths that start with the pieces. -/
  | pieces (ps : List Piece)
  deriving DecidableEq, Repr

namespace Shape

/-- Whether a text starts with the pieces. Equal rests are followed once. -/
def startsWith : List Piece → List (List Char) → Bool
  | [], texts => !texts.isEmpty
  | p :: ps, texts => startsWith ps (texts.flatMap p.rests).eraseDups

/-- Whether a path matches. -/
def accepts (shape : Shape) (path : String) : Bool :=
  match shape with
  | anything => path.toList.any (· ≠ '\n')
  | anyDirectory => path.toList.contains '/'
  | pieces ps => startsWith ps [path.toList]

/-- Whether the classes of a shape are ordered. -/
def isOrdered : Shape → Bool
  | pieces ps => ps.all Piece.isOrdered
  | _ => true

end Shape

/-- A pattern: what it matches, and whether matching paths are ignored or taken back. -/
structure IgnorePattern where
  ignores : Bool
  shape : Shape
  deriving DecidableEq, Repr

/-- Why a line is no pattern. -/
inductive PatternError where
  /-- The pattern cannot be read. -/
  | invalid (line : String)
  /-- A range of characters ends before it starts. -/
  | badRange
  deriving DecidableEq, Repr

namespace PatternError

/-- The exception of a line that is no pattern. -/
def raised : PatternError → Raised
  | invalid line => ⟨"GitIgnorePatternError", "Invalid git pattern: " ++ Text.quote line⟩
  | badRange => ⟨"error", "bad character range"⟩

end PatternError

namespace IgnorePattern

/-- The ranges of the characters between brackets. A hyphen between two characters makes a range,
and one at either end is itself. -/
def classRanges : List Char → List (Char × Char)
  | [] => []
  | low :: '-' :: high :: rest => (low, high) :: classRanges rest
  | c :: rest => (c, c) :: classRanges rest

/-- The characters of a bracket expression and what follows its closing bracket. A bracket right
after the opening is a character of the class. -/
def classBody : List Char → Option (List Char × List Char)
  | [] => none
  | first :: rest =>
    match rest.dropWhile (· ≠ ']') with
    | [] => none
    | _ :: after => some (first :: rest.takeWhile (· ≠ ']'), after)

/-- Reads a class after its opening bracket, if the bracket is closed. -/
def readClass (cs : List Char) : Option (CharClass × List Char) :=
  let (negated, inner) :=
    match cs with
    | '!' :: rest => (true, rest)
    | '^' :: rest => (true, rest)
    | _ => (false, cs)
  (classBody inner).map fun (body, after) => ({ negated, ranges := classRanges body }, after)

/-- Why a segment has no globs. -/
inductive Unreadable where
  | unclosedClass
  | trailingBackslash
  deriving DecidableEq, Repr

/-- Reads the globs of a segment. A backslash takes the next character as it is. The fuel is the
number of characters left. -/
def readGlobs : Nat → List Char → Except Unreadable (List Glob)
  | _, [] => .ok []
  | 0, _ => .ok []
  | fuel + 1, '\\' :: cs =>
    match cs with
    | [] => .error .trailingBackslash
    | d :: rest => do return .char d :: (← readGlobs fuel rest)
  | fuel + 1, '*' :: cs => do return .run :: (← readGlobs fuel cs)
  | fuel + 1, '?' :: cs => do return .single :: (← readGlobs fuel cs)
  | fuel + 1, '[' :: cs =>
    match readClass cs with
    | none => .error .unclosedClass
    | some (k, rest) => do return .cls k :: (← readGlobs fuel rest)
  | fuel + 1, c :: cs => do return .char c :: (← readGlobs fuel cs)

/-- Adjacent double stars are one. -/
def collapse : List String → List String
  | "**" :: "**" :: rest => collapse ("**" :: rest)
  | s :: rest => s :: collapse rest
  | [] => []

/-- The segments of a pattern without its sign. A leading slash anchors the pattern, and so does a
slash in the middle; otherwise it may match at any depth. A pattern that ends in a slash matches
what is below a directory. -/
def segments (body : String) : List String :=
  let given := Text.split '/' body
  let anchored :=
    match given with
    | "" :: rest => rest
    | [only] => if only = "**" then [only] else ["**", only]
    | [first, ""] => if first = "**" then given else "**" :: given
    | _ => given
  let closed := if anchored.getLast? = some "" then anchored.dropLast ++ ["**"] else anchored
  collapse closed

/-- The pieces of the segments of a pattern. `first` tells whether a segment is the first, and
`slash` whether a slash must come before the next name. -/
def pieces : Bool → Bool → List String → Except Unreadable (List Piece)
  | _, _, [] => .ok []
  | first, slash, s :: rest =>
    if s = "**" then
      if first then do return .directories :: (← pieces false false rest)
      else if rest.isEmpty then .ok [.slash]
      else do return .descent :: (← pieces false true rest)
    else do
      let name ←
        if s = "*" then pure [Piece.name]
        else do pure ((← readGlobs s.length s.toList).map Piece.glob)
      let lead : List Piece := if slash then [.slash] else []
      let close : List Piece := if rest.isEmpty then [.boundary] else []
      return lead ++ name ++ close ++ (← pieces false true rest)

/-- The shape of the segments of a pattern. -/
def shapeOf (isDirectory : Bool) : List String → Except Unreadable Shape
  | ["**"] => .ok (if isDirectory then .anyDirectory else .anything)
  | ["**", "*"] => .ok .anything
  | ["**", "*", "**"] => .ok .anyDirectory
  | segs => do return .pieces (← pieces true false segs)

/-- White space at the end of a line does not count, unless its last blank is escaped. -/
def trimLine (line : String) : String :=
  if Text.endsWith "\\ " line then line else Text.dropTrailing Text.isBlank line

/-- Reads a line of an ignore file: nothing for blank lines, comments and lines that can match
nothing, else a pattern. -/
def ofLine (line : String) : Except PatternError (Option IgnorePattern) :=
  let text := trimLine line
  if text = "" || Text.startsWith "#" text || text = "/" then .ok none
  else
    let (ignores, body) :=
      match Text.after? "!" text with
      | some rest => (false, rest)
      | none => (true, text)
    match segments body with
    | [] => .error (.invalid line)
    | segs =>
      match shapeOf (Text.endsWith "/" body) segs with
      | .error .unclosedClass => .ok none
      | .error .trailingBackslash => .error (.invalid line)
      | .ok shape =>
        if shape.isOrdered then .ok (some { ignores, shape }) else .error .badRange

/-- The compiled lines of a list; empty lines are left out. -/
def ofLines : List String → Except PatternError (List IgnorePattern)
  | [] => .ok []
  | line :: lines => do
    let p? ← if line = "" then pure none else ofLine line
    let ps ← ofLines lines
    return p?.toList ++ ps

/-- Whether a path matches a pattern. -/
def accepts (p : IgnorePattern) (path : String) : Bool :=
  p.shape.accepts path

/-- A path without one slash, or else one dot and slash, at its start. -/
def unrooted (rel : String) : String :=
  match rel.toList with
  | '/' :: rest => String.ofList rest
  | '.' :: '/' :: rest => String.ofList rest
  | _ => rel

/-- Whether the last of some patterns that matches a path ignores it. -/
def selects (patterns : List IgnorePattern) (path : String) : Bool :=
  patterns.foldl (fun v p => if p.accepts (unrooted path) then p.ignores else v) false

/-- The patterns as a library. -/
def library : PatternLibrary where
  Pattern := Option IgnorePattern
  compile line := (ofLine line).mapError PatternError.raised
  sign p? := p?.map ignores
  accepts p? path := p?.any (accepts · path)
  Selection := List IgnorePattern
  select lines := (ofLines lines).mapError PatternError.raised
  selects := selects

end IgnorePattern

end EntryLint
