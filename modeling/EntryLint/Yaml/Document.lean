import EntryLint.Text.Segments
import EntryLint.Yaml.Node
import EntryLint.Yaml.ScalarKind

/-!
# Values of documents

The value of a document. Keys of a mapping are different from each other, except that a merge key
brings the entries of other mappings, which the mapping's own entries override.
-/

namespace EntryLint.Yaml

/-- The start of the tags that every document knows. -/
def standardTag : String := "tag:yaml.org,2002:"

/-- The name of a standard tag. -/
def tagName? (tag : String) : Option String :=
  Text.after? standardTag tag

/-- The value of a digit in base sixty-four. -/
def sextet? (ch : Char) : Option Nat :=
  if 'A' ≤ ch ∧ ch ≤ 'Z' then some (ch.toNat - 65)
  else if 'a' ≤ ch ∧ ch ≤ 'z' then some (ch.toNat - 71)
  else if '0' ≤ ch ∧ ch ≤ '9' then some (ch.toNat + 4)
  else if ch = '+' then some 62
  else if ch = '/' then some 63
  else none

/-- The bytes of groups of four digits in base sixty-four, the last one padded. -/
def octets : List Nat → Option (List UInt8)
  | a :: b :: c :: d :: rest => do
    let more ← octets rest
    return (4 * a + b / 16).toUInt8 :: (b % 16 * 16 + c / 4).toUInt8 ::
      (c % 4 * 64 + d).toUInt8 :: more
  | [a, b, c] => some [(4 * a + b / 16).toUInt8, (b % 16 * 16 + c / 4).toUInt8]
  | [a, b] => some [(4 * a + b / 16).toUInt8]
  | [_] => none
  | [] => some []

/-- The bytes that a text in base sixty-four stands for; other characters do not count. -/
def binaryValue (text : String) : Except YamlError Value :=
  let given := text.toList.filter fun ch => (sextet? ch).isSome || ch = '='
  match given.length % 4, octets (given.filterMap sextet?) with
  | 0, some bytes => .ok (.bytes bytes)
  | _, _ => .error .malformed

/-- The value of a text of a kind. The special keys have no value of their own. -/
def ScalarKind.value (kind : ScalarKind) (text : String) : Except YamlError Value :=
  match kind with
  | null => .ok .null
  | bool => boolValue text
  | int => intValue text
  | float => floatValue text
  | timestamp => timestampValue text
  | str => .ok (.str text)
  | merge | default => .error .malformed

/-- The value of a text with a standard tag. -/
def taggedValue (name text : String) : Except YamlError Value :=
  match name with
  | "null" => ScalarKind.null.value text
  | "bool" => ScalarKind.bool.value text
  | "int" => ScalarKind.int.value text
  | "float" => ScalarKind.float.value text
  | "timestamp" => ScalarKind.timestamp.value text
  | "str" => ScalarKind.str.value text
  | "binary" => binaryValue text
  | _ => .error .malformed

namespace Node

/-- The kind of a scalar whose text decides it. -/
def kind? : Node → Option ScalarKind
  | scalar none true text => some (ScalarKind.ofText text)
  | _ => none

/-- Whether a key merges other mappings. -/
def isMerge (key : Node) : Bool :=
  key.kind? = some .merge || (match key with
    | scalar (some tag) _ _ => tag = standardTag ++ "merge"
    | _ => false)

/-- A sequence as the key of a mapping; mappings and sets are none. -/
def keyOf : Value → Except YamlError Value
  | .list items => hashed (.tuple items)
  | .map _ | .set _ => .error .malformed
  | v => hashed v
where
  /-- A key without parts that can change. -/
  hashed (v : Value) : Except YamlError Value :=
    match v.unhashable? with
    | some name => .error (.unhashableKey name)
    | none => .ok v

/-- The entries of a mapping that is merged. -/
def entriesOf : Value → Except YamlError (List (Value × Value))
  | .map entries => .ok entries
  | .set keys => .ok (keys.map fun k => (k, .null))
  | _ => .error .malformed

/-- The sequence with a tag. -/
def tagSequence (tag : Option String) (items : List Value) : Except YamlError Value :=
  match tag with
  | none => .ok (.list items)
  | some t =>
    match tagName? t with
    | some "seq" => .ok (.list items)
    | some "pairs" => do
      return .list (← items.mapM fun
        | .map [(k, v)] => .ok (.tuple [k, v])
        | _ => .error .malformed)
    | some "omap" => do
      return .map (Value.ofEntries (← items.mapM fun
        | .map [e] => .ok e
        | _ => .error .malformed))
    | _ => .error .malformed

/-- The mapping with a tag. -/
def tagMapping (tag : Option String) (entries : List (Value × Value)) : Except YamlError Value :=
  match tag with
  | none => .ok (.map entries)
  | some t =>
    match tagName? t with
    | some "map" => .ok (.map entries)
    | some "set" => .ok (.set (entries.map Prod.fst))
    | _ => .error .malformed

mutual

/-- The value of a node. -/
def value : Node → Except YamlError Value
  | scalar none implicit text =>
    if implicit then (ScalarKind.ofText text).value text else .ok (.str text)
  | scalar (some tag) _ text =>
    match tagName? tag with
    | some name => taggedValue name text
    | none => .error .malformed
  | sequence tag items => do tagSequence tag (← values items)
  | mapping tag entries => do
    let merged ← mergedEntries [] entries
    let own ← ownEntries merged.isEmpty [] entries
    tagMapping tag (Value.ofEntries (merged ++ own))
  | enclosing isSequence => .ok (if isSequence then .list [] else .map [])

/-- The values of some nodes. -/
def values : List Node → Except YamlError (List Value)
  | [] => .ok []
  | n :: ns => do
    let v ← value n
    return v :: (← values ns)

/-- The entries that merge keys bring. Of several mappings under one key the first has priority,
and there is only one such key. -/
def mergedEntries (done : List (Value × Value)) :
    List (Node × Node) → Except YamlError (List (Value × Value))
  | [] => .ok done
  | (k, v) :: rest =>
    if k.isMerge then
      if !done.isEmpty then .error .malformed
      else
        match v with
        | mapping tag entries => do mergedEntries (← entriesOf (← value (mapping tag entries))) rest
        | sequence _ items => do
          let sources ← (← values items).mapM entriesOf
          mergedEntries (sources.reverse.flatten) rest
        | _ => .error .malformed
    else mergedEntries done rest

/-- The entries of a mapping itself; `distinct` asks for different keys. -/
def ownEntries (distinct : Bool) (done : List (Value × Value)) :
    List (Node × Node) → Except YamlError (List (Value × Value))
  | [] => .ok done
  | (k, v) :: rest =>
    if k.isMerge then ownEntries distinct done rest
    else do
      let key ← if k.kind? = some .default then pure (.str "=") else do keyOf (← value k)
      let item ← value v
      if distinct && (Value.get? done key).isSome then .error .malformed
      else ownEntries distinct (done ++ [(key, item)]) rest

end

end Node

/-- The value of a text; a text without a document has none. -/
def read (text : String) : Except YamlError Value :=
  match Node.ofText text with
  | none => .error .malformed
  | some none => .ok .null
  | some (some root) => root.value

/-- The reading of documents as a library. -/
def library : YamlReader := fun text =>
  (read text).mapError YamlError.failure

end EntryLint.Yaml
