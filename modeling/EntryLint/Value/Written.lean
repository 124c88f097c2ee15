import EntryLint.Text.Integer
import EntryLint.Text.Quoted
import EntryLint.Text.Segments
import EntryLint.Value.Basic

/-!
# The text of values

`Value.shown` is how a message quotes a value: texts in quotes, sequences and mappings in brackets.
`Value.plain` is how a value stands in a path or a list of keys: a text is itself and a member of
an enumeration is its name. Neither text exists for a value with an integer of too many digits.
-/

namespace EntryLint.Value

/-- The words for nothing, true and false. -/
def boolText (b : Bool) : String :=
  if b then "True" else "False"

/-- Bytes in quotes, those outside printable ASCII as hexadecimal escapes. -/
def bytesShown (octets : List UInt8) : String :=
  let chars := octets.map fun b => Char.ofNat b.toNat
  let q := Text.quoteFor chars
  let one (c : Char) : List Char :=
    if c.toNat < 0x7f then Text.quoteChar q c else '\\' :: 'x' :: Text.hexDigits 2 c.toNat
  String.ofList ('b' :: q :: chars.flatMap one ++ [q])

mutual

/-- A value as messages quote it. -/
def shown : Value → String
  | null => "None"
  | bool b => boolText b
  | int n => toString n
  | float x => x.text
  | str s => Text.quote s
  | date d => d.shown
  | moment t => t.shown
  | bytes b => bytesShown b
  | list items => "[" ++ Text.join ", " (shownItems items) ++ "]"
  | tuple items =>
    match shownItems items with
    | [only] => "(" ++ only ++ ",)"
    | texts => "(" ++ Text.join ", " texts ++ ")"
  | set items =>
    match shownItems items with
    | [] => "set()"
    | texts => "\x7b" ++ Text.join ", " texts ++ "\x7d"
  | frozenset items =>
    match shownItems items with
    | [] => "frozenset()"
    | texts => "frozenset(\x7b" ++ Text.join ", " texts ++ "\x7d)"
  | map entries => "\x7b" ++ Text.join ", " (shownEntries entries) ++ "\x7d"
  | member enumeration name value _ =>
    "<" ++ enumeration ++ "." ++ name ++ ": " ++ shown value ++ ">"
  | record name fields => name ++ "(" ++ Text.join ", " (shownFields fields) ++ ")"
  | model name fields => name ++ "(" ++ Text.join ", " (shownFields fields) ++ ")"

/-- The texts of some values. -/
def shownItems : List Value → List String
  | [] => []
  | x :: xs => shown x :: shownItems xs

/-- The texts of the entries of a mapping. -/
def shownEntries : List (Value × Value) → List String
  | [] => []
  | (k, v) :: es => (shown k ++ ": " ++ shown v) :: shownEntries es

/-- The texts of the fields of a record. -/
def shownFields : List (String × Value) → List String
  | [] => []
  | (name, v) :: fs => (name ++ "=" ++ shown v) :: shownFields fs

end

/-- Whether an integer has no more digits than are written. -/
def isShort (n : Int) : Bool :=
  n.natAbs < Nat.pow 10 Text.mostDigits

mutual

/-- Whether a value has a text in messages: no integer in it is too long to be written. -/
def isShowable : Value → Bool
  | int n => isShort n
  | list items => areShowable items
  | tuple items => areShowable items
  | set items => areShowable items
  | frozenset items => areShowable items
  | map entries => entriesShowable entries
  | member _ _ value _ => isShowable value
  | record _ fields => fieldsShowable fields
  | model _ fields => fieldsShowable fields
  | _ => true

/-- Whether some values have texts. -/
def areShowable : List Value → Bool
  | [] => true
  | x :: xs => isShowable x && areShowable xs

/-- Whether the keys and values of a mapping have texts. -/
def entriesShowable : List (Value × Value) → Bool
  | [] => true
  | (k, v) :: es => isShowable k && isShowable v && entriesShowable es

/-- Whether the fields of a record have texts. -/
def fieldsShowable : List (String × Value) → Bool
  | [] => true
  | (_, v) :: fs => isShowable v && fieldsShowable fs

end

/-- A value as it stands in a path or a list of keys. -/
def plain : Value → String
  | str s => s
  | member enumeration name _ _ => enumeration ++ "." ++ name
  | date d => d.text
  | moment t => t.text
  | v => v.shown

/-- Whether a value has a text in paths. A member of an enumeration stands there by name. -/
def isWritable : Value → Bool
  | member .. => true
  | v => v.isShowable

end EntryLint.Value
