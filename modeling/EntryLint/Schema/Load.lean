import EntryLint.NameMap
import EntryLint.Schema.Basic
import EntryLint.Schema.Rejection

/-!
# Loading values by schema

`Schema.load` checks a value against a schema and gives it its typed form. It is strict: unknown
keys, missing fields and values of another type are rejected with the path to their place.
-/

namespace EntryLint.Schema

/-- The items of a value that is a sequence. -/
def items? : Value → Option (List Value)
  | .list xs => some xs
  | .tuple xs => some xs
  | _ => none

/-- Collects loaded items in a container. Sets take only values that can be keys. -/
def collect (container : Container) (items : List Value) : Attempt Value :=
  let asSet (make : List Value → Value) : Attempt Value :=
    match Value.unhashableItem? items with
    | some typeName => .fail (.raised (.unhashable typeName))
    | none => .ok (make (Value.distinct items))
  match container with
  | .list => .ok (.list items)
  | .tuple => .ok (.tuple items)
  | .set => asSet .set
  | .frozenset => asSet .frozenset

/-- Loads the items of a sequence one after the other, each at its index. -/
def loadItems (load : Value → String → Attempt Value) (path : String) :
    Nat → List Value → Attempt (List Value)
  | _, [] => .ok []
  | i, x :: xs => do
    let y ← load x (path ++ "[" ++ toString i ++ "]")
    let ys ← loadItems load path (i + 1) xs
    return y :: ys

/-- The path of the value under a key, if the key has a text. -/
def keyPath (path : String) (key : Value) : Attempt String :=
  if key.isWritable then .ok (path ++ "." ++ key.plain) else .fail (.raised .tooLong)

/-- Loads the entries of a mapping one after the other. The path of a value ends with its loaded
key, and a key that cannot be one is noticed after its value. -/
def loadEntries (loadKey loadValue : Value → String → Attempt Value) (path : String) :
    List (Value × Value) → List (Value × Value) → Attempt (List (Value × Value))
  | done, [] => .ok done
  | done, (k, v) :: rest => do
    let key ← loadKey k (path ++ ".<key>")
    let value ← loadValue v (← keyPath path key)
    match key.unhashable? with
    | some typeName => .fail (.raised (.unhashable typeName))
    | none => loadEntries loadKey loadValue path (Value.put done key value) rest

/-- Loads a sequence. -/
def loadSequence (load : Value → String → Attempt Value) (container : Container) (v : Value)
    (path : String) : Attempt Value :=
  match items? v with
  | none => Attempt.reject path (.expectedList v.kind)
  | some items => do collect container (← loadItems load path 0 items)

/-- The names that a mapping for a record may have as keys. -/
def givenNames (fields : List (FieldSpec Schema)) : List String :=
  (fields.filter (·.given)).map (·.name)

/-- The keys of a mapping that are no fields. -/
def unknownKeys (fields : List (FieldSpec Schema)) (entries : List (Value × Value)) : List Value :=
  let known := givenNames fields
  let isKnown (k : Value) : Bool := known.any fun name => Value.same k (.str name)
  (entries.map Prod.fst).filter fun k => !isKnown k

/-- Rejects a mapping for its unknown keys, which are listed in increasing order of their texts. -/
def rejectUnknown {α : Type} (path : String) (keys : List Value) : Attempt α :=
  if keys.all Value.isWritable then
    Attempt.reject path (.unknownKeys (sortNames (keys.map Value.plain)))
  else .fail (.raised .tooLong)

/-- Loads the value of a field from a mapping. A field that is absent has its default, and one that
is never given is not looked up: without a default it has no value. -/
def loadField (load : Value → String → Attempt Value) (name : String) (default? : Option Value)
    (given : Bool) (entries : List (Value × Value)) (path : String) : Attempt (Option Value) :=
  let present := if given then Value.get? entries (.str name) else none
  match present, default? with
  | some v, _ => do return some (← load v (path ++ "." ++ name))
  | none, some v => .ok (some v)
  | none, none =>
    if given then Attempt.reject (path ++ "." ++ name) .missingField else .ok none

mutual

/-- Checks a value against a schema and gives it its typed form. -/
@[simp] def load : Schema → Value → String → Attempt Value
  | any, v, _ => .ok v
  | scalar type, v, path =>
    if type.accepts v then .ok v else Attempt.reject path (.expectedScalar type.name v.kind)
  | null, v, path =>
    match v with
    | .null => .ok .null
    | _ => Attempt.reject path (.expectedNull v.kind)
  | unsupported name, _, path => Attempt.reject path (.unsupported name)
  | literal allowed, v, path =>
    if allowed.any (Value.same · v) then .ok v else Attempt.rejectOther path allowed v
  | enumeration e, v, path =>
    match e.find? v with
    | some m => .ok m
    | none => Attempt.rejectOther path (e.canonical.map Prod.snd) v
  | collection container item, v, path => loadSequence (load item) container v path
  | tuple items, v, path => loadSequence (loadFirst items) .tuple v path
  | map key value, v, path =>
    match v with
    | .map entries => do return .map (← loadEntries (load key) (load value) path [] entries)
    | _ => Attempt.reject path (.expectedMapping v.kind)
  | union variants, v, path => loadVariants (union variants).title variants [] v path
  | named _ base, v, path => load base v path
  | noted base, v, path => load base v path
  | record name fields, v, path =>
    match v with
    | .map entries =>
      match unknownKeys fields entries with
      | [] => do return .record name (← loadFields fields entries path)
      | unknown => rejectUnknown path unknown
    | _ => Attempt.reject path (.expectedRecord name v.kind)
  | model _ validate, v, path =>
    match validate v with
    | .ok made => .ok made
    | .error (.invalid detail) => Attempt.reject path (.invalidModel detail)
    | .error (.raised e) => .fail (.raised e)

/-- Loads an item of a tuple: the first of the schemas stands for every place. -/
def loadFirst : List Schema → Value → String → Attempt Value
  | [], v, _ => .ok v
  | s :: _, v, path => load s v path

/-- Loads a value by the first variant that accepts it. -/
def loadVariants (choice : String) : List Schema → List String → Value → String → Attempt Value
  | [], problems, _, path => Attempt.reject path (.noVariant choice problems)
  | null :: rest, problems, v, path =>
    match v with
    | .null => .ok .null
    | _ => loadVariants choice rest problems v path
  | s :: rest, problems, v, path =>
    let tried := load s v path
    match tried.outcome with
    | .ok _ => tried
    | .error (.raised _) => tried
    | .error (.rejected r) =>
      let next := loadVariants choice rest (problems ++ [r.message]) v path
      { next with trace := tried.trace ++ next.trace }

/-- Loads the fields of a record in the order of their declaration. -/
def loadFields : List (FieldSpec Schema) → List (Value × Value) → String →
    Attempt (List (String × Value))
  | [], _, _ => .ok []
  | ⟨name, schema, default?, given⟩ :: rest, entries, path => do
    let value? ← loadField (load schema) name default? given entries path
    let values ← loadFields rest entries path
    return match value? with
      | some v => (name, v) :: values
      | none => values

end

end EntryLint.Schema
