import EntryLint.Number.Binary64
import EntryLint.Value.Date

/-!
# Configuration values

A configuration is read as untyped values: numbers, texts, sequences, mappings. The loader turns
them into typed ones, which adds members of enumerations and records. Equality of values is that of
mathematics for numbers (`1`, `1.0` and `true` are equal) and ignores order in sets and mappings.
-/

namespace EntryLint

/-- A configuration value, before or after its type is checked. -/
inductive Value where
  | null
  | bool (b : Bool)
  | int (n : Int)
  | float (x : Binary64)
  | str (s : String)
  | date (d : Date)
  | moment (t : Moment)
  | bytes (octets : List UInt8)
  | list (items : List Value)
  | tuple (items : List Value)
  | set (items : List Value)
  | frozenset (items : List Value)
  | map (entries : List (Value × Value))
  /-- A member of an enumeration; a mixed member is also the text or the number it stands for. -/
  | member (enumeration name : String) (value : Value) (mixed : Bool)
  /-- A record with its fields in the order of their declaration. -/
  | record (name : String) (fields : List (String × Value))
  /-- A validated model with its fields in the order of their declaration. -/
  | model (name : String) (fields : List (String × Value))
  deriving Repr

namespace Value

/-- The name of the type of a value. -/
def typeName : Value → String
  | null => "NoneType"
  | bool _ => "bool"
  | int _ => "int"
  | float _ => "float"
  | str _ => "str"
  | date _ => "date"
  | moment _ => "datetime"
  | bytes _ => "bytes"
  | list _ => "list"
  | tuple _ => "tuple"
  | set _ => "set"
  | frozenset _ => "frozenset"
  | map _ => "dict"
  | member enumeration _ _ _ => enumeration
  | record name _ => name
  | model name _ => name

/-- The name of the type of a value in messages of the loader, where nothing is `null`. -/
def kind : Value → String
  | null => "null"
  | v => v.typeName

/-- The text or number that a mixed member is; every other value is itself. -/
def bare : Value → Value
  | member _ _ (str s) true => str s
  | member _ _ (int n) true => int n
  | member _ _ (float x) true => float x
  | v => v

/-- The text that a value is, if it is one. -/
def text? (v : Value) : Option String :=
  match v.bare with
  | str s => some s
  | _ => none

/-- Whether a value counts as absent when a document is read. -/
def isEmpty : Value → Bool
  | null => true
  | bool b => !b
  | int n => n = 0
  | float (.finite _ 0 _) => true
  | str s => s = ""
  | bytes b => b.isEmpty
  | list xs => xs.isEmpty
  | tuple xs => xs.isEmpty
  | set xs => xs.isEmpty
  | frozenset xs => xs.isEmpty
  | map es => es.isEmpty
  | _ => false

/-! ## Equality -/

/-- Whether a double is a given integer. -/
def isInt (x : Binary64) (n : Int) : Bool :=
  x.toInt? = some n

/-- The integer that a truth value counts as. -/
def ofBool (b : Bool) : Int :=
  if b then 1 else 0

/-- Equality of two values that hold no other values. A mixed member counts as what it is, every
other member is equal to itself only. -/
def sameLeaf (a b : Value) : Bool :=
  match a.bare, b.bare with
  | null, null => true
  | bool x, bool y => x = y
  | bool x, int n => ofBool x = n
  | int n, bool x => n = ofBool x
  | bool x, float y => isInt y (ofBool x)
  | float y, bool x => isInt y (ofBool x)
  | int n, int m => n = m
  | int n, float y => isInt y n
  | float y, int n => isInt y n
  | float x, float y => x.sameNumber y
  | date x, date y => x = y
  | moment x, moment y => x = y
  | str s, str t => s = t
  | bytes x, bytes y => x = y
  | member e n _ _, member f m _ _ => e = f && n = m
  | _, _ => false

mutual

/-- Equality of values: numbers by value, texts by content, sequences of one kind item by item,
sets and mappings whatever their order. -/
def same : Value → Value → Bool
  | list xs, list ys => sameItems xs ys
  | tuple xs, tuple ys => sameItems xs ys
  | set xs, set ys => xs.length = ys.length && covered xs ys
  | set xs, frozenset ys => xs.length = ys.length && covered xs ys
  | frozenset xs, set ys => xs.length = ys.length && covered xs ys
  | frozenset xs, frozenset ys => xs.length = ys.length && covered xs ys
  | map xs, map ys => xs.length = ys.length && entriesCovered xs ys
  | record n xs, record m ys => n = m && sameFields xs ys
  | model n xs, model m ys => n = m && sameFields xs ys
  | a, b => sameLeaf a b

/-- Equality of two sequences, item by item. -/
def sameItems : List Value → List Value → Bool
  | [], [] => true
  | x :: xs, y :: ys => same x y && sameItems xs ys
  | _, _ => false

/-- Whether every value of the first list is equal to one of the second. -/
def covered : List Value → List Value → Bool
  | [], _ => true
  | x :: xs, ys => ys.any (same x) && covered xs ys

/-- Whether every entry of the first mapping is one of the second. -/
def entriesCovered : List (Value × Value) → List (Value × Value) → Bool
  | [], _ => true
  | (k, v) :: es, fs => fs.any (fun (k', v') => same k k' && same v v') && entriesCovered es fs

/-- Equality of two lists of fields, field by field. -/
def sameFields : List (String × Value) → List (String × Value) → Bool
  | [], [] => true
  | (n, x) :: xs, (m, y) :: ys => n = m && same x y && sameFields xs ys
  | _, _ => false

end

/-! ## Keys -/

mutual

/-- The type of the first part of a value that cannot be a key, if there is one: sequences that can
change, mappings and records. -/
def unhashable? : Value → Option String
  | list _ => some "list"
  | set _ => some "set"
  | map _ => some "dict"
  | record name _ => some name
  | model name _ => some name
  | tuple items => unhashableItem? items
  | _ => none

/-- The type of the first part of some values that cannot be a key. -/
def unhashableItem? : List Value → Option String
  | [] => none
  | x :: xs => (unhashable? x).or (unhashableItem? xs)

end

/-- The value under a key of a mapping. -/
def get? (entries : List (Value × Value)) (key : Value) : Option Value :=
  (entries.find? fun (k, _) => same k key).map Prod.snd

/-- A mapping with a key set to a value: an equal key keeps its place and its own form. -/
def put (entries : List (Value × Value)) (key value : Value) : List (Value × Value) :=
  if entries.any fun (k, _) => same k key then
    entries.map fun (k, v) => if same k key then (k, value) else (k, v)
  else entries ++ [(key, value)]

/-- The mapping with the given entries, later values of equal keys replacing earlier ones. -/
def ofEntries (entries : List (Value × Value)) : List (Value × Value) :=
  entries.foldl (fun es (k, v) => put es k v) []

/-- The values of a list without those that are equal to an earlier one. -/
def distinct (items : List Value) : List Value :=
  items.foldl (fun seen x => if seen.any (same · x) then seen else seen ++ [x]) []

end Value

end EntryLint
