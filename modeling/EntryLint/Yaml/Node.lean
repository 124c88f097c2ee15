import EntryLint.NameMap
import EntryLint.Yaml.Token

/-!
# Nodes

A document as a tree of scalars, sequences and mappings, with aliases replaced by the nodes that
they stand for. No result means that the tokens are no single document.
-/

namespace EntryLint.Yaml

/-- A node of a document. A tag is given, or left to the content. -/
inductive Node where
  /-- A scalar; `implicit` tells whether its text decides its type. -/
  | scalar (tag : Option String) (implicit : Bool) (text : String)
  | sequence (tag : Option String) (items : List Node)
  | mapping (tag : Option String) (entries : List (Node × Node))
  /-- An alias to a sequence or mapping that it stands in. -/
  | enclosing (isSequence : Bool)

namespace Node

/-- The node of nothing. -/
def empty : Node :=
  scalar none true ""

end Node

/-- What is left of the tokens, the anchored nodes and the handles of tags. -/
structure Composer where
  tokens : List Token
  anchors : NameMap Node := []
  handles : NameMap String := []

/-- A step that takes tokens. -/
abbrev Compose := StateT Composer Option

namespace Compose

/-- The next token, which stays. -/
def peek : Compose (Option Token) :=
  return (← get).tokens.head?

/-- Takes the next token. -/
def drop : Compose Unit :=
  modify fun s => { s with tokens := s.tokens.tail }

/-- Whether the next token is among the given ones. -/
def atOneOf (ts : List Token) : Compose Bool := do
  return (← peek).any ts.contains

/-- Takes the next token if it is the given one. -/
def accept (t : Token) : Compose Bool := do
  if (← peek) = some t then
    drop
    return true
  else return false

/-- Takes the given token, which must come next. -/
def expect (t : Token) : Compose Unit := do
  if ← accept t then return () else failure

/-- An anchor, if one comes next. -/
def anchor? : Compose (Option String) := do
  match ← peek with
  | some (.anchor name) =>
    drop
    return some name
  | _ => return none

/-- The full text of a tag. -/
def expandTag (handle : Option String) (suffix : String) : Compose String := do
  match handle with
  | none => return suffix
  | some h =>
    match (← get).handles.get? h with
    | some start => return start ++ suffix
    | none => failure

/-- A tag, if one comes next. -/
def tag? : Compose (Option String) := do
  match ← peek with
  | some (.tag handle suffix) =>
    drop
    return some (← expandTag handle suffix)
  | _ => return none

/-- The anchor and the tag of a node, in either order. -/
def properties : Compose (Option String × Option String) := do
  match ← anchor? with
  | some name => return (some name, ← tag?)
  | none =>
    let tag ← tag?
    return (← anchor?, tag)

/-- Remembers a node under its anchor, if it has one. -/
def remember (anchor : Option String) (n : Node) : Compose Node := do
  if let some name := anchor then modify fun s => { s with anchors := s.anchors.put name n }
  return n

/-- The tag that a node keeps; a lone exclamation mark leaves it open. -/
def ownTag (tag : Option String) : Option String :=
  if tag = some "!" then none else tag

/-- Whether the text of a scalar decides its type. -/
def isImplicit (tag : Option String) (plain : Bool) : Bool :=
  match tag with
  | none => plain
  | some t => t = "!"

mutual

/-- A node. `inBlock` allows block collections, and `indentless` a sequence without a block. -/
def node (inBlock indentless : Bool) : Nat → Compose Node
  | 0 => failure
  | fuel + 1 => do
    match ← peek with
    | some (.reference name) =>
      drop
      match (← get).anchors.get? name with
      | some n => return n
      | none => failure
    | _ =>
      let (anchor, tag) ← properties
      let own := ownTag tag
      match ← peek with
      | some (.scalar text plain) =>
        drop
        remember anchor (.scalar own (isImplicit tag plain) text)
      | some .flowSequenceStart =>
        drop
        let _ ← remember anchor (.enclosing true)
        remember anchor (.sequence own (← flowItems true fuel))
      | some .flowMappingStart =>
        drop
        let _ ← remember anchor (.enclosing false)
        remember anchor (.mapping own (← flowEntries true fuel))
      | some .blockSequenceStart =>
        if !inBlock then failure
        drop
        let _ ← remember anchor (.enclosing true)
        let items ← blockItems false fuel
        expect .blockEnd
        remember anchor (.sequence own items)
      | some .blockMappingStart =>
        if !inBlock then failure
        drop
        let _ ← remember anchor (.enclosing false)
        let entries ← blockEntries fuel
        expect .blockEnd
        remember anchor (.mapping own entries)
      | some .blockEntry =>
        if indentless then
          let _ ← remember anchor (.enclosing true)
          remember anchor (.sequence own (← blockItems true fuel))
        else if anchor.isSome || tag.isSome then
          remember anchor (.scalar own (isImplicit tag true) "")
        else failure
      | _ =>
        if anchor.isSome || tag.isSome then remember anchor (.scalar own (isImplicit tag true) "")
        else failure

/-- A node, or nothing before one of the given tokens. -/
def nodeUnless (stops : List Token) (inBlock indentless : Bool) : Nat → Compose Node
  | 0 => failure
  | fuel + 1 => do
    if ← atOneOf stops then return .empty else node inBlock indentless fuel

/-- The items of a block sequence. -/
def blockItems (indentless : Bool) : Nat → Compose (List Node)
  | 0 => failure
  | fuel + 1 => do
    if ← accept .blockEntry then
      let stops : List Token :=
        if indentless then [.blockEntry, .key, .value, .blockEnd] else [.blockEntry, .blockEnd]
      let item ← nodeUnless stops true false fuel
      return item :: (← blockItems indentless fuel)
    else return []

/-- The entries of a block mapping. -/
def blockEntries : Nat → Compose (List (Node × Node))
  | 0 => failure
  | fuel + 1 => do
    let stops : List Token := [.key, .value, .blockEnd]
    if ← atOneOf [.key, .value] then
      let k ← if ← accept .key then nodeUnless stops true true fuel else pure .empty
      let v ← if ← accept .value then nodeUnless stops true true fuel else pure .empty
      return (k, v) :: (← blockEntries fuel)
    else return []

/-- The items of a flow sequence and its end. An item with a key is a mapping of one entry. -/
def flowItems (first : Bool) : Nat → Compose (List Node)
  | 0 => failure
  | fuel + 1 => do
    if ← accept .flowSequenceEnd then return []
    if !first then expect .flowEntry
    if ← accept .flowSequenceEnd then return []
    let item ←
      if ← accept .key then do
        let k ← nodeUnless [.value, .flowEntry, .flowSequenceEnd] false false fuel
        let v ←
          if ← accept .value then nodeUnless [.flowEntry, .flowSequenceEnd] false false fuel
          else pure .empty
        pure (Node.mapping none [(k, v)])
      else node false false fuel
    return item :: (← flowItems false fuel)

/-- The entries of a flow mapping and its end. -/
def flowEntries (first : Bool) : Nat → Compose (List (Node × Node))
  | 0 => failure
  | fuel + 1 => do
    if ← accept .flowMappingEnd then return []
    if !first then expect .flowEntry
    if ← accept .flowMappingEnd then return []
    let stops : List Token := [.flowEntry, .flowMappingEnd]
    let entry ←
      if ← atOneOf [.key, .value] then do
        let k ← if ← accept .key then nodeUnless (.value :: stops) false false fuel else pure .empty
        let v ← if ← accept .value then nodeUnless stops false false fuel else pure .empty
        pure (k, v)
      else do pure (← node false false fuel, Node.empty)
    return entry :: (← flowEntries false fuel)

end

/-- The handles that every document has. -/
def standardHandles : NameMap String :=
  [("!", "!"), ("!!", "tag:yaml.org,2002:")]

/-- The directives in front of a document: at most one version, whose major number is one, and one
tag for every handle. -/
def directives : Nat → Bool → NameMap String → Compose (NameMap String)
  | 0, _, _ => failure
  | fuel + 1, versioned, handles => do
    match ← peek with
    | some (.versionDirective major) =>
      if versioned || major ≠ 1 then failure
      drop
      directives fuel true handles
    | some (.tagDirective handle marker) =>
      if (handles.get? handle).isSome then failure
      drop
      directives fuel versioned (handles.put handle marker)
    | some .otherDirective =>
      drop
      directives fuel versioned handles
    | _ => return handles

/-- Whether a token is a directive. -/
def isDirective : Token → Bool
  | .versionDirective _ | .tagDirective _ _ | .otherDirective => true
  | _ => false

/-- The root of a document, after its start. -/
def content (fuel : Nat) : Compose Node := do
  match ← peek with
  | none => return .empty
  | some t =>
    if t = .documentStart || t = .documentEnd || isDirective t then return .empty
    else node true false fuel

/-- The only document of a text, if there is one. -/
def document (fuel : Nat) : Compose (Option Node) := do
  match ← peek with
  | none => return none
  | some first =>
    let given ← directives fuel false []
    modify fun s => { s with handles := standardHandles.update given }
    let explicit ← accept .documentStart
    if isDirective first && !explicit then failure
    let root ← if explicit then content fuel else node true false fuel
    let _ ← accept .documentEnd
    match ← peek with
    | none => return some root
    | some _ => failure

end Compose

/-- The root of the only document of a text: none for a text without one. No result means that the
text is malformed or has more documents. -/
def Node.ofText (text : String) : Option (Option Node) := do
  let tokens ← Token.ofText text
  let (root, _) ← (Compose.document (4 * tokens.length + 4)).run { tokens }
  return root

end EntryLint.Yaml
