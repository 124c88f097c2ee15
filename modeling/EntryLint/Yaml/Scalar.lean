import EntryLint.Yaml.Cursor

/-!
# Scalars

The texts of plain, quoted and block scalars. A line break in a plain or quoted scalar is a space,
and with empty lines after it those lines; block scalars keep their breaks or fold them. No result
means that the text is malformed.
-/

namespace EntryLint.Yaml

/-- A break and the breaks of the empty lines after it, as they count in a folded text. -/
def fold (first : Char) (more : List Char) : List Char :=
  if first ≠ '\n' then first :: more
  else if more.isEmpty then [' ']
  else more

/-! ## Plain scalars -/

/-- Whether a plain scalar ends before a character, given the one after it. A colon in a word is
part of it. -/
def endsPlain (inFlow : Bool) (ch : Char) (following : Option Char) : Bool :=
  if ch = ':' && !atWordEnd following then false
  else atWordEnd (some ch) || ch = ':' || (inFlow && [',', '[', ']', '{', '}'].contains ch)

/-- The characters of a plain scalar up to the next blank. -/
def plainRun (inFlow : Bool) : List Char → List Char
  | [] => []
  | ch :: cs => if endsPlain inFlow ch cs.head? then [] else ch :: plainRun inFlow cs

/-- The breaks of empty lines, up to a line that separates documents. -/
def plainBreaks : Nat → Cursor → List Char → Option (List Char) × Cursor
  | 0, c, breaks => (some breaks.reverse, c)
  | fuel + 1, c, breaks =>
    match c.peek with
    | some ' ' => plainBreaks fuel c.next breaks
    | _ =>
      match c.lineBreak? with
      | none => (some breaks.reverse, c)
      | some (ch, c) =>
        if c.atSeparator then (none, c) else plainBreaks fuel c (ch :: breaks)

/-- What stands between two words of a plain scalar, the place after it, and whether a line break is
among it. -/
def plainSpaces (c : Cursor) : List Char × Cursor × Bool :=
  let (blanks, c) := c.span (· = ' ')
  match c.lineBreak? with
  | none => (blanks, c, false)
  | some (ch, c) =>
    if c.atSeparator then ([], c, true)
    else
      match plainBreaks c.rest.length c [] with
      | (none, c) => ([], c, true)
      | (some breaks, c) => (fold ch breaks, c, true)

/-- A plain scalar: its text, the place after it, and whether a line break came last. `indent` is
the least column of its further lines. -/
def plainScalar (inFlow : Bool) (indent : Nat) : Nat → Cursor → List Char → List Char → Bool →
    List Char × Cursor × Bool
  | 0, c, text, _, broke => (text, c, broke)
  | fuel + 1, c, text, spaces, broke =>
    if c.peek = some '#' then (text, c, broke)
    else
      let run := plainRun inFlow c.rest
      if run.isEmpty then (text, c, broke)
      else
        let text := text ++ spaces ++ run
        let (spaces, c, broke) := plainSpaces (c.skip run.length)
        if spaces.isEmpty || c.peek = some '#' || (!inFlow && c.column < indent) then
          (text, c, broke)
        else plainScalar inFlow indent fuel c text spaces broke

/-! ## Quoted scalars -/

/-- The characters that short escapes stand for. -/
def shortEscapes : List (Char × Char) :=
  [('0', '\x00'), ('a', '\x07'), ('b', '\x08'), ('t', '\t'), ('\t', '\t'), ('n', '\n'),
    ('v', '\x0b'), ('f', '\x0c'), ('r', '\r'), ('e', '\x1b'), (' ', ' '), ('"', '"'), ('/', '/'),
    ('\\', '\\'), ('N', '\x85'), ('_', '\xa0'), ('L', '\u2028'), ('P', '\u2029')]

/-- The numbers of hexadecimal digits of long escapes. -/
def longEscapes : List (Char × Nat) :=
  [('x', 2), ('u', 4), ('U', 8)]

/-- The value of a hexadecimal digit. -/
def hexValue? (ch : Char) : Option Nat :=
  if '0' ≤ ch ∧ ch ≤ '9' then some (ch.toNat - 48)
  else if 'a' ≤ ch ∧ ch ≤ 'f' then some (ch.toNat - 87)
  else if 'A' ≤ ch ∧ ch ≤ 'F' then some (ch.toNat - 55)
  else none

/-- The character of a long escape with the given number of digits. -/
def longEscape? (digits : Nat) (cs : List Char) : Option Char := do
  let given := cs.take digits
  if given.length < digits then none
  else
    let values ← given.mapM hexValue?
    let code := values.foldl (fun n d => 16 * n + d) 0
    if code < 0x110000 then some (Char.ofNat code) else none

/-- The breaks of empty lines in a quoted scalar; a line that separates documents must not come. -/
def quotedBreaks : Nat → Cursor → List Char → Option (List Char × Cursor)
  | 0, _, _ => none
  | fuel + 1, c, breaks =>
    if c.atSeparator then none
    else
      let c := c.skipWhile isSpaceOrTab
      match c.lineBreak? with
      | none => some (breaks.reverse, c)
      | some (ch, c) => quotedBreaks fuel c (ch :: breaks)

/-- A quoted scalar after its opening quote: its text and the place after the closing quote. -/
def quotedScalar (double : Bool) : Nat → Cursor → List Char → Option (List Char × Cursor)
  | 0, _, _ => none
  | fuel + 1, c, text =>
    let quote := if double then '"' else '\''
    match c.peek with
    | none => none
    | some ch =>
      if ch = quote then
        if !double && c.peekAt 1 = some '\'' then
          quotedScalar double fuel (c.skip 2) (text ++ ['\''])
        else some (text, c.next)
      else if double && ch = '\\' then
        let c := c.next
        match c.peek with
        | none => none
        | some e =>
          match shortEscapes.lookup e, longEscapes.lookup e with
          | some meant, _ => quotedScalar double fuel c.next (text ++ [meant])
          | none, some digits =>
            match longEscape? digits c.next.rest with
            | none => none
            | some meant => quotedScalar double fuel (c.next.skip digits) (text ++ [meant])
          | none, none =>
            match c.lineBreak? with
            | none => none
            | some (_, c) => do
              let (breaks, c) ← quotedBreaks (c.rest.length + 1) c []
              quotedScalar double fuel c (text ++ breaks)
      else if isSpaceOrTab ch || isWideBreak ch then
        let (blanks, c) := c.span isSpaceOrTab
        match c.lineBreak? with
        | none => if c.rest.isEmpty then none else quotedScalar double fuel c (text ++ blanks)
        | some (b, c) => do
          let (breaks, c) ← quotedBreaks (c.rest.length + 1) c []
          quotedScalar double fuel c (text ++ fold b breaks)
      else quotedScalar double fuel c.next (text ++ [ch])

/-! ## Block scalars -/

/-- What becomes of the line breaks at the end of a block scalar. -/
inductive Chomping where
  | clip
  | strip
  | keep
  deriving DecidableEq, Repr

/-- The chomping that a sign stands for. -/
def chomping? (ch : Option Char) : Option Chomping :=
  match ch with
  | some '+' => some .keep
  | some '-' => some .strip
  | _ => none

/-- The digit at a place, if there is one. -/
def digit? (ch : Option Char) : Option Nat :=
  ch.bind fun d => if d.isDigit then some (d.toNat - 48) else none

/-- The header of a block scalar: chomping, indentation, and the place after its line. -/
def blockHeader (c : Cursor) : Option (Chomping × Option Nat × Cursor) := do
  let (sign, c) :=
    match chomping? c.peek with
    | some k => (some k, c.next)
    | none => (none, c)
  let (width, c) :=
    match digit? c.peek with
    | some d => (some d, c.next)
    | none => (none, c)
  let (sign, c) :=
    match sign, width, chomping? c.peek with
    | none, some _, some k => (some k, c.next)
    | _, _, _ => (sign, c)
  if width = some 0 then none
  else if !(atLineEnd c.peek || c.peek = some ' ') then none
  else
    let c := c.skipWhile (· = ' ')
    let c := if c.peek = some '#' then c.skipWhile (fun ch => !isBreak ch) else c
    if !atLineEnd c.peek then none
    else
      let c :=
        match c.lineBreak? with
        | some (_, c) => c
        | none => c
      some (sign.getD .clip, width, c)

/-- The breaks before the first line of a block scalar, the largest column reached, and the place
after them. `first` is the column of the first empty line. A line that is indented more than an
empty line above it is malformed. -/
def blockStart : Nat → Cursor → List Char → Option Nat → Nat → Option (List Char × Nat × Cursor)
  | 0, _, _, _, _ => none
  | fuel + 1, c, breaks, first, widest =>
    if c.peek = some ' ' then
      let c := c.next
      blockStart fuel c breaks first (max widest c.column)
    else
      match c.lineBreak? with
      | some (ch, after) => blockStart fuel after (ch :: breaks) (some (first.getD c.column)) widest
      | none =>
        match first with
        | some column =>
          if 0 < column && column < widest then none else some (breaks.reverse, widest, c)
        | none => some (breaks.reverse, widest, c)

/-- The place after the spaces that indent a line, at most up to a column. -/
def skipIndent (indent : Nat) : Nat → Cursor → Cursor
  | 0, c => c
  | fuel + 1, c =>
    if c.column < indent && c.peek = some ' ' then skipIndent indent fuel c.next else c

/-- The breaks of empty lines of a block scalar and the place after them and the indentation. -/
def blockBreaks (indent : Nat) : Nat → Cursor → List Char → List Char × Cursor
  | 0, c, breaks => (breaks.reverse, c)
  | fuel + 1, c, breaks =>
    let c := skipIndent indent c.rest.length c
    match c.lineBreak? with
    | some (ch, c) => blockBreaks indent fuel c (ch :: breaks)
    | none => (breaks.reverse, c)

/-- What a block scalar has collected: its text, the break after its last line, and those of the
empty lines after that. -/
structure BlockText where
  text : List Char
  lastBreak : List Char
  breaks : List Char
  cursor : Cursor

/-- Whether a line of a block scalar starts at a place. -/
def atBlockLine (indent : Nat) (c : Cursor) : Bool :=
  c.column = indent && c.peek.isSome

/-- The lines of a block scalar. `topLevel` tells whether a line can separate documents. -/
def blockLines (folded topLevel : Bool) (indent : Nat) : Nat → BlockText → BlockText
  | 0, b => b
  | fuel + 1, b =>
    if !atBlockLine indent b.cursor then b
    else
      let startsText := !(b.cursor.peek.any isSpaceOrTab)
      let (line, c) := b.cursor.span fun ch => !isBreak ch
      let text := b.text ++ b.breaks ++ line
      let (lastBreak, c) :=
        match c.lineBreak? with
        | some (ch, c) => ([ch], c)
        | none => ([], c)
      let (breaks, c) := blockBreaks indent (c.rest.length + 1) c []
      let done : BlockText := { text, lastBreak, breaks, cursor := c }
      if topLevel && c.column = 0 && c.atSeparator then done
      else if atBlockLine indent c then
        let joined :=
          if folded && lastBreak = ['\n'] && startsText && !(c.peek.any isSpaceOrTab) then
            if breaks.isEmpty then [' '] else []
          else lastBreak
        blockLines folded topLevel indent fuel { done with text := text ++ joined }
      else done

/-- A block scalar after its indicator, in a block of the given indentation. -/
def blockScalar (folded : Bool) (parent : Int) (c : Cursor) : Option (List Char × Cursor) := do
  let (chomping, width, c) ← blockHeader c
  let least := (parent + 1).toNat
  let (breaks, indent, c) ←
    match width with
    | none => do
      let (breaks, widest, c) ← blockStart (c.rest.length + 1) c [] none 0
      pure (breaks, max least widest, c)
    | some w =>
      let indent := max least 1 + w - 1
      let (breaks, c) := blockBreaks indent (c.rest.length + 1) c []
      pure (breaks, indent, c)
  let topLevel := least = 0
  let b := blockLines folded topLevel indent (c.rest.length + 1)
    { text := [], lastBreak := [], breaks, cursor := c }
  let ending :=
    match chomping with
    | .strip => []
    | .clip => b.lastBreak
    | .keep => b.lastBreak ++ b.breaks
  return (b.text ++ ending, b.cursor)

end EntryLint.Yaml
