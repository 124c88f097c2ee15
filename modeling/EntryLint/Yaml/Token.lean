import EntryLint.Yaml.Scalar

/-!
# Tokens

A document as tokens: indicators, properties and scalars. Blocks, which the text marks by
indentation alone, have tokens of their own, and a key that is known only by the colon after it gets
its token in front afterwards. No result means that the text is malformed.
-/

namespace EntryLint.Yaml

/-- A token. -/
inductive Token where
  | versionDirective (major : Nat)
  | tagDirective (handle marker : String)
  | otherDirective
  | documentStart
  | documentEnd
  | blockSequenceStart
  | blockMappingStart
  | blockEnd
  | flowSequenceStart
  | flowSequenceEnd
  | flowMappingStart
  | flowMappingEnd
  | blockEntry
  | flowEntry
  | key
  | value
  | reference (name : String)
  | anchor (name : String)
  | tag (handle : Option String) (suffix : String)
  /-- A scalar; one without quotes or block style is plain. -/
  | scalar (text : String) (plain : Bool)
  deriving DecidableEq, Repr

/-- A token that is a key if a colon follows it on its line. -/
structure PendingKey where
  /-- The number of tokens before it. -/
  position : Nat
  /-- Whether the block that it stands in has nothing but keys at its column. -/
  required : Bool
  index : Nat
  line : Nat
  column : Nat
  deriving Repr

/-- The state of a scan. -/
structure Scan where
  cursor : Cursor
  tokens : List Token := []
  /-- The column of the innermost block, and those of the blocks around it. -/
  indent : Int := -1
  outer : List Int := []
  /-- Whether each open flow collection is a sequence, innermost first. -/
  flow : List Bool := []
  /-- Whether a key may start here. -/
  keyAllowed : Bool := true
  /-- The pending key of each depth of flow collections. -/
  pending : List (Nat × PendingKey) := []

namespace Scan

/-- Whether the scan is inside a flow collection. -/
def inFlow (s : Scan) : Bool :=
  !s.flow.isEmpty

/-- A scan with one more token. -/
def push (s : Scan) (t : Token) : Scan :=
  { s with tokens := s.tokens ++ [t] }

/-- A scan with one more token and the place after it. -/
def take (s : Scan) (n : Nat) (t : Token) : Scan :=
  { s.push t with cursor := s.cursor.skip n }

/-! ## Keys and blocks -/

/-- Gives up the pending key of the current depth, which must not be a required one. -/
def dropPending (s : Scan) : Option Scan :=
  match s.pending.lookup s.flow.length with
  | none => some s
  | some k =>
    if k.required then none
    else some { s with pending := s.pending.filter fun (depth, _) => depth ≠ s.flow.length }

/-- Gives up the pending keys that are too far back: on another line or over 1024 characters ago. -/
def dropStale (s : Scan) : Option Scan :=
  let isStale (k : PendingKey) : Bool :=
    k.line ≠ s.cursor.line || 1024 < s.cursor.index - k.index
  if s.pending.any fun (_, k) => isStale k && k.required then none
  else some { s with pending := s.pending.filter fun (_, k) => !isStale k }

/-- Takes the next token as a pending key, if one may start here. -/
def savePending (s : Scan) : Option Scan :=
  if s.keyAllowed then do
    let s ← s.dropPending
    let k : PendingKey :=
      { position := s.tokens.length
        required := !s.inFlow && s.indent = (s.cursor.column : Int)
        index := s.cursor.index
        line := s.cursor.line
        column := s.cursor.column }
    return { s with pending := (s.flow.length, k) :: s.pending }
  else some s

/-- Closes the blocks that are indented beyond a column. -/
def unwind (column : Int) : List Int → Scan → Scan
  | [], s => s
  | up :: rest, s =>
    if s.inFlow || s.indent ≤ column then s
    else unwind column rest { s.push .blockEnd with indent := up, outer := rest }

/-- Closes the blocks that end at a column. -/
def closeBlocks (s : Scan) (column : Int) : Scan :=
  unwind column s.outer s

/-- Opens a block at a column, unless the current one starts there. -/
def openBlock (s : Scan) (column : Nat) : Option Scan :=
  if s.indent < (column : Int) then
    some { s with outer := s.indent :: s.outer, indent := column }
  else none

/-- A scan with a token in front of the one at a position. -/
def insert (s : Scan) (position : Nat) (t : Token) : Scan :=
  { s with tokens := s.tokens.take position ++ t :: s.tokens.drop position }

/-! ## Indicators -/

/-- Opens a flow collection. -/
def openFlow (s : Scan) (isSequence : Bool) : Option Scan := do
  let s ← s.savePending
  let s := s.take 1 (if isSequence then .flowSequenceStart else .flowMappingStart)
  return { s with flow := isSequence :: s.flow, keyAllowed := true }

/-- Closes a flow collection. -/
def closeFlow (s : Scan) (isSequence : Bool) : Option Scan := do
  let s ← s.dropPending
  let s := s.take 1 (if isSequence then .flowSequenceEnd else .flowMappingEnd)
  return { s with flow := s.flow.drop 1, keyAllowed := false }

/-- A comma. -/
def flowEntry (s : Scan) : Option Scan := do
  let s ← s.dropPending
  return { s.take 1 .flowEntry with keyAllowed := true }

/-- Opens a block in front of an indicator, if it is the first of one. Block indicators stand only
where a key may start. -/
def startBlock (s : Scan) (t : Token) : Option Scan :=
  if s.inFlow then some s
  else if !s.keyAllowed then none
  else
    match s.openBlock s.cursor.column with
    | some opened => some (opened.push t)
    | none => some s

/-- A hyphen. -/
def blockEntry (s : Scan) : Option Scan := do
  let s ← s.startBlock .blockSequenceStart
  let s ← s.dropPending
  return { s.take 1 .blockEntry with keyAllowed := true }

/-- A question mark. -/
def explicitKey (s : Scan) : Option Scan := do
  let s ← s.startBlock .blockMappingStart
  let s ← s.dropPending
  return { s.take 1 .key with keyAllowed := !s.inFlow }

/-- A colon: it makes the pending key a key, or follows an explicit key. -/
def value (s : Scan) : Option Scan :=
  match s.pending.lookup s.flow.length with
  | some k =>
    let s := { s with pending := s.pending.filter fun (depth, _) => depth ≠ s.flow.length }
    let s := s.insert k.position .key
    let s :=
      if s.inFlow then s
      else
        match s.openBlock k.column with
        | some opened => opened.insert k.position .blockMappingStart
        | none => s
    some { s.take 1 .value with keyAllowed := false }
  | none => do
    let s ← s.startBlock .blockMappingStart
    let s ← s.dropPending
    return { s.take 1 .value with keyAllowed := !s.inFlow }

/-! ## Properties -/

/-- Whether a character can stand in the name of an anchor. -/
def isAnchorChar (ch : Char) : Bool :=
  let n := ch.toNat
  !([',', '[', ']', '{', '}'].contains ch) &&
    ((0x21 ≤ n && n ≤ 0x7e) || (0xa0 ≤ n && n ≤ 0xfffd && n ≠ 0xfeff) || 0x10000 ≤ n)

/-- An alias or an anchor. -/
def anchorLike (s : Scan) (token : String → Token) : Option Scan := do
  let s ← s.savePending
  let (name, c) := s.cursor.next.span isAnchorChar
  if name.isEmpty then none
  else return { s.push (token (String.ofList name)) with cursor := c, keyAllowed := false }

/-- Whether a character can stand in a handle of tags. -/
def isHandleChar (ch : Char) : Bool :=
  ch.isAlphanum || ch = '-' || ch = '_'

/-- Whether a character can stand in a tag. -/
def isTagChar (ch : Char) : Bool :=
  ch.isAlphanum || "-;/?:@&=+$,_.!~*'()[]#".toList.contains ch

/-- The bytes of a run of percent escapes. -/
def tagEscapes : Nat → Cursor → Option (List UInt8 × Cursor)
  | 0, _ => none
  | fuel + 1, c =>
    if c.peek = some '%' then do
      let high ← (c.peekAt 1).bind hexValue?
      let low ← (c.peekAt 2).bind hexValue?
      let (more, c) ← tagEscapes fuel (c.skip 3)
      return ((16 * high + low).toUInt8 :: more, c)
    else some ([], c)

/-- The text of a tag. -/
def tagText : Nat → Cursor → Option (List Char × Cursor)
  | 0, _ => none
  | fuel + 1, c => do
    let (run, c) := c.span isTagChar
    if c.peek = some '%' then
      let (bytes, c) ← tagEscapes (c.rest.length + 1) c
      let decoded ← String.fromUTF8? (ByteArray.mk bytes.toArray)
      let (more, c) ← tagText fuel c
      return (run ++ decoded.toList ++ more, c)
    else return (run, c)

/-- The text of a tag, which is not empty. -/
def someTagText (c : Cursor) : Option (String × Cursor) := do
  let (text, c) ← tagText (c.rest.length + 1) c
  if text.isEmpty then none else return (String.ofList text, c)

/-- The handle at a place: an exclamation mark, or a word between two. -/
def tagHandle (c : Cursor) : Option (String × Cursor) :=
  match c.rest with
  | '!' :: rest =>
    let name := rest.takeWhile isHandleChar
    match rest.drop name.length with
    | '!' :: _ => some (String.ofList ('!' :: name ++ ['!']), c.skip (name.length + 2))
    | ' ' :: _ => if name.isEmpty then some ("!", c.next) else none
    | _ => none
  | _ => none

/-- Whether a second exclamation mark stands in the word at a place. -/
def hasHandle (c : Cursor) : Bool :=
  (c.next.rest.takeWhile fun ch => ch ≠ ' ' && !isWideBreak ch).contains '!'

/-- The handle and the suffix of a tag, and the place after it. -/
def tagParts (c : Cursor) : Option (Option String × String × Cursor) :=
  if c.peekAt 1 = some '<' then do
    let (suffix, c) ← someTagText (c.skip 2)
    if c.peek = some '>' then return (none, suffix, c.next) else none
  else if atWordEnd (c.peekAt 1) then some (none, "!", c.next)
  else do
    let (handle, c) ← if hasHandle c then tagHandle c else pure ("!", c.next)
    let (suffix, c) ← someTagText c
    return (some handle, suffix, c)

/-- A tag. -/
def tag (s : Scan) : Option Scan := do
  let s ← s.savePending
  let (handle, suffix, c) ← tagParts s.cursor
  if atLineEnd c.peek || c.peek = some ' ' then
    return { s.push (.tag handle suffix) with cursor := c, keyAllowed := false }
  else none

/-! ## Scalars -/

/-- A block scalar. -/
def block (s : Scan) (folded : Bool) : Option Scan := do
  let s ← s.dropPending
  let (text, c) ← blockScalar folded s.indent s.cursor.next
  return { s.push (.scalar (String.ofList text) false) with cursor := c, keyAllowed := true }

/-- A quoted scalar. -/
def quoted (s : Scan) (double : Bool) : Option Scan := do
  let s ← s.savePending
  let c := s.cursor.next
  let (text, c) ← quotedScalar double (c.rest.length + 1) c []
  return { s.push (.scalar (String.ofList text) false) with cursor := c, keyAllowed := false }

/-- A plain scalar. -/
def plain (s : Scan) : Option Scan := do
  let s ← s.savePending
  let (text, c, broke) := plainScalar s.inFlow (s.indent + 1).toNat (s.cursor.rest.length + 1)
    s.cursor [] [] false
  return { s.push (.scalar (String.ofList text) true) with cursor := c, keyAllowed := broke }

/-! ## Documents -/

/-- The end of everything that is open, as a new document or the end of the text needs it. -/
def closeAll (s : Scan) : Option Scan := do
  let s ← (s.closeBlocks (-1)).dropPending
  return { s with keyAllowed := false }

/-- The digits of a number and the place after them. -/
def number (c : Cursor) : Option (Nat × Cursor) :=
  let (digits, c) := c.span Char.isDigit
  if digits.isEmpty then none
  else some (digits.foldl (fun n d => 10 * n + (d.toNat - 48)) 0, c)

/-- The place after the rest of a directive's line, which holds nothing but a comment. -/
def directiveEnd (c : Cursor) : Option Cursor :=
  let c := c.skipWhile (· = ' ')
  let c := if c.peek = some '#' then c.skipWhile (fun ch => !isBreak ch) else c
  if atLineEnd c.peek then some c else none

/-- Whether a blank or the end of the line comes next. -/
def atBlank (c : Cursor) : Bool :=
  c.peek = some ' ' || atLineEnd c.peek

/-- The token of a directive and the place after its words. -/
def directiveWords (c : Cursor) : Option (Token × Cursor) := do
  let (name, c) := c.span fun ch => isHandleChar ch || ch = ':' || ch = '.'
  if name.isEmpty || !atBlank c then none
  else if name = "YAML".toList then
    let (major, c) ← number (c.skipWhile (· = ' '))
    if c.peek ≠ some '.' then none
    else
      let (_, c) ← number c.next
      if atBlank c then return (.versionDirective major, c) else none
  else if name = "TAG".toList then
    let (handle, c) ← tagHandle (c.skipWhile (· = ' '))
    if c.peek ≠ some ' ' then none
    else
      let (marker, c) ← someTagText (c.skipWhile (· = ' '))
      if atBlank c then return (.tagDirective handle marker, c) else none
  else return (.otherDirective, c.skipWhile fun ch => !isBreak ch)

/-- A directive. -/
def directive (s : Scan) : Option Scan := do
  let s ← s.closeAll
  let (t, c) ← directiveWords s.cursor.next
  return { s.push t with cursor := ← directiveEnd c }

/-- A line that separates documents. -/
def separator (s : Scan) (t : Token) : Option Scan := do
  return (← s.closeAll).take 3 t

/-! ## The scan -/

/-- Goes to the next token, past blanks, comments and line breaks. Tabs are blanks only in flow
collections. After a line break in a block a key may start. -/
def skipBlanks : Nat → Scan → Scan
  | 0, s => s
  | fuel + 1, s =>
    let c := s.cursor.skipWhile fun ch => ch = ' ' || (s.inFlow && ch = '\t')
    let c := if c.peek = some '#' then c.skipWhile (fun ch => !isBreak ch) else c
    match c.lineBreak? with
    | some (_, c) =>
      skipBlanks fuel { s with cursor := c, keyAllowed := s.keyAllowed || !s.inFlow }
    | none => { s with cursor := c }

/-- Whether a colon is an indicator at a place. -/
def isValue (s : Scan) : Bool :=
  let apart := atWordEnd (s.cursor.peekAt 1)
  match s.flow with
  | [] | true :: _ => apart
  | false :: _ => apart || s.tokens.getLast? ≠ some .value

/-- The characters that have a meaning of their own at the start of a token. -/
def indicators : List Char :=
  "-?:,[]\x7b\x7d#&*!|>'\"%@\x60".toList

/-- Whether a plain scalar can start at a place. -/
def isPlain (s : Scan) (ch : Char) : Bool :=
  let following := s.cursor.peekAt 1
  if !(isSpaceOrTab ch || isWideBreak ch || indicators.contains ch) then true
  else if ch = '-' then !atWordEnd following
  else if ch = ':' then
    if s.inFlow then !(following.any isSpaceOrTab) else !atWordEnd following
  else if ch = '?' then !s.inFlow && !atWordEnd following
  else false

/-- The next token, at a character that is not blank. -/
def token (s : Scan) (ch : Char) : Option Scan :=
  let apart := atWordEnd (s.cursor.peekAt 1)
  let atSeparator := s.cursor.column = 0 && s.cursor.atSeparator
  if ch = '%' && s.cursor.column = 0 then s.directive
  else if ch = '-' && atSeparator then s.separator .documentStart
  else if ch = '.' && atSeparator then s.separator .documentEnd
  else if ch = '[' then s.openFlow true
  else if ch = '{' then s.openFlow false
  else if ch = ']' then s.closeFlow true
  else if ch = '}' then s.closeFlow false
  else if ch = ',' then s.flowEntry
  else if ch = '-' && apart then s.blockEntry
  else if ch = '?' && (s.inFlow || apart) then s.explicitKey
  else if ch = ':' && s.isValue then s.value
  else if ch = '*' then s.anchorLike .reference
  else if ch = '&' then s.anchorLike .anchor
  else if ch = '!' then s.tag
  else if ch = '|' && !s.inFlow then s.block false
  else if ch = '>' && !s.inFlow then s.block true
  else if ch = '\'' then s.quoted false
  else if ch = '"' then s.quoted true
  else if s.isPlain ch then s.plain
  else none

/-- All tokens of a scan. Every step takes a character. -/
def run : Nat → Scan → Option (List Token)
  | 0, _ => none
  | fuel + 1, s => do
    let s := skipBlanks (s.cursor.rest.length + 1) s
    let s ← s.dropStale
    let s := s.closeBlocks s.cursor.column
    match s.cursor.peek with
    | none => return (← s.closeAll).tokens
    | some ch => run fuel (← s.token ch)

end Scan

/-- Whether a character may stand in a document. -/
def isAllowed (ch : Char) : Bool :=
  let n := ch.toNat
  n = 0x9 || n = 0xa || n = 0xd || (0x20 ≤ n && n ≤ 0x7e) || n = 0x85 ||
    (0xa0 ≤ n && n ≤ 0xfffd) || 0x10000 ≤ n

/-- The tokens of a text. A byte order mark at its start is skipped. -/
def Token.ofText (text : String) : Option (List Token) :=
  let cs := text.toList
  if !cs.all isAllowed then none
  else
    let start : Cursor := { rest := cs }
    let cursor := if start.peek = some '\uFEFF' then start.next else start
    Scan.run (cs.length + 2) { cursor }

end EntryLint.Yaml
