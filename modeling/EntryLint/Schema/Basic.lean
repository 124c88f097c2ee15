import EntryLint.Traced
import EntryLint.Value.Written

/-!
# Schemas

A schema says which values a configuration may hold at a place: scalars, collections, choices,
enumerations and records. Schemas are built by `union` and `literal` so that choices are flat and
free of repetitions.
-/

namespace EntryLint

/-- The scalar types. -/
inductive ScalarType where
  | str
  | int
  | float
  | bool
  deriving DecidableEq, Repr

namespace ScalarType

/-- The name of a scalar type. -/
def name : ScalarType → String
  | str => "str"
  | int => "int"
  | float => "float"
  | bool => "bool"

/-- Whether a value is of a scalar type. A truth value is no number, and a mixed member is of the
type of what it stands for. -/
def accepts (type : ScalarType) (v : Value) : Bool :=
  match type, v.bare with
  | str, .str _ => true
  | int, .int _ => true
  | float, .float _ => true
  | bool, .bool _ => true
  | _, _ => false

end ScalarType

/-- The containers that a sequence of items is collected in. -/
inductive Container where
  | list
  | tuple
  | set
  | frozenset
  deriving DecidableEq, Repr

namespace Container

/-- The name of a container in schemas. -/
def title : Container → String
  | list => "typing.List"
  | tuple => "typing.Tuple"
  | set => "typing.Set"
  | frozenset => "typing.FrozenSet"

/-- What follows the schema of the items. -/
def rest : Container → String
  | tuple => ", ..."
  | _ => ""

end Container

/-- An enumeration: its name and its members with their values. The members of a mixed enumeration
are also the texts or numbers that they stand for. -/
structure Enumeration where
  name : String
  members : List (String × Value)
  mixed : Bool := false
  deriving Repr

namespace Enumeration

/-- The members without those whose value an earlier one has. -/
def canonical (e : Enumeration) : List (String × Value) :=
  e.members.foldl
    (fun seen (n, v) => if seen.any fun (_, w) => Value.same w v then seen else seen ++ [(n, v)]) []

/-- The member that an entry of the enumeration makes. -/
def memberOf (e : Enumeration) (entry : String × Value) : Value :=
  .member e.name entry.1 entry.2 e.mixed

/-- The member that a value is already. -/
def own? (e : Enumeration) : Value → Option Value
  | .member enumeration name _ _ =>
    if enumeration = e.name then (e.canonical.find? fun (n, _) => n = name).map e.memberOf
    else none
  | _ => none

/-- The member with a value. -/
def withValue? (e : Enumeration) (v : Value) : Option Value :=
  (e.canonical.find? fun (_, w) => Value.same w v).map e.memberOf

/-- The member that a value is or stands for. -/
def find? (e : Enumeration) (v : Value) : Option Value :=
  (e.own? v).or (e.withValue? v)

end Enumeration

/-- Why a model does not take a value: the value is invalid, for the reasons in the text, or its
validation raised something else. -/
inductive ModelFailure where
  | invalid (detail : String)
  | raised (e : Raised)
  deriving DecidableEq, Repr

/-- A field of a record. A field that is not given at construction has its default or no value. -/
structure FieldSpec (α : Type) where
  name : String
  schema : α
  default? : Option Value := none
  given : Bool := true
  deriving Repr

/-- What the values at a place of a configuration look like. -/
inductive Schema where
  /-- Every value. -/
  | any
  | scalar (type : ScalarType)
  | null
  /-- A type that the loader does not know. -/
  | unsupported (name : String)
  | literal (allowed : List Value)
  | enumeration (e : Enumeration)
  | collection (container : Container) (item : Schema)
  /-- A tuple with a schema for every place. -/
  | tuple (items : List Schema)
  | map (key value : Schema)
  | union (variants : List Schema)
  /-- A schema under another name. -/
  | named (name : String) (base : Schema)
  /-- A schema with a note that says nothing about its values. -/
  | noted (base : Schema)
  | record (name : String) (fields : List (FieldSpec Schema))
  /-- A model, which validates values itself. -/
  | model (name : String) (validate : Value → Except ModelFailure Value)

namespace Schema

/-- Whether two literal values are the same and of one type. -/
def sameLiteral (a b : Value) : Bool :=
  a.typeName = b.typeName && Value.same a b

/-- Whether two lists hold the same literal values in any order. -/
def sameLiterals (xs ys : List Value) : Bool :=
  xs.all (fun x => ys.any (sameLiteral x)) && ys.all fun y => xs.any (sameLiteral y)

mutual

/-- Whether two schemas are the same one. Records, enumerations and names are told apart by name. -/
def same : Schema → Schema → Bool
  | any, any => true
  | scalar s, scalar t => s = t
  | null, null => true
  | unsupported m, unsupported n => m = n
  | literal xs, literal ys => sameLiterals xs ys
  | enumeration e, enumeration f => e.name = f.name
  | collection c s, collection d t => c = d && same s t
  | tuple xs, tuple ys => sameAll xs ys
  | map k v, map l w => same k l && same v w
  | union xs, union ys => sameAll xs ys
  | named m _, named n _ => m = n
  | noted s, noted t => same s t
  | record m _, record n _ => m = n
  | model m _, model n _ => m = n
  | _, _ => false

/-- Whether two lists hold the same schemas in the same order. -/
def sameAll : List Schema → List Schema → Bool
  | [], [] => true
  | s :: ss, t :: ts => same s t && sameAll ss ts
  | _, _ => false

end

/-- The variants of a schema: those of a choice, or the schema alone. -/
def variants : Schema → List Schema
  | union vs => vs
  | s => [s]

/-- Schemas without those that stand earlier in the list. -/
def distinct (schemas : List Schema) : List Schema :=
  schemas.foldl (fun seen s => if seen.any (same s) then seen else seen ++ [s]) []

mutual

/-- A schema as it is written. -/
def title : Schema → String
  | any => "typing.Any"
  | scalar type => type.name
  | null => "NoneType"
  | unsupported name => name
  | literal allowed => "typing.Literal" ++ Value.shown (.list allowed)
  | enumeration e => e.name
  | collection container item => container.title ++ "[" ++ title item ++ container.rest ++ "]"
  | tuple items => "typing.Tuple[" ++ Text.join ", " (titles items) ++ "]"
  | map key value => "typing.Dict[" ++ title key ++ ", " ++ title value ++ "]"
  | union variants => "typing.Union[" ++ Text.join ", " (titles variants) ++ "]"
  | named name _ => name
  | noted base => "typing.Annotated[" ++ title base ++ "]"
  | record name _ => name
  | model name _ => name

/-- Schemas as they are written. -/
def titles : List Schema → List String
  | [] => []
  | s :: ss => title s :: titles ss

end

/-- The choice between some schemas: nested choices are flattened, repetitions dropped, and a
choice of one is that one. -/
def choice (schemas : List Schema) : Schema :=
  match distinct (schemas.flatMap variants) with
  | [only] => only
  | vs => union vs

/-- A schema or nothing. -/
def optional (s : Schema) : Schema :=
  choice [s, null]

/-- The literal values of a list, each once. -/
def oneOf (values : List Value) : Schema :=
  literal (values.foldl
    (fun seen v => if seen.any (sameLiteral v) then seen else seen ++ [v]) [])

mutual

/-- A schema without notes in it. -/
def bare : Schema → Schema
  | noted s => bare s
  | collection c s => collection c (bare s)
  | tuple ss => tuple (bareAll ss)
  | map k v => map (bare k) (bare v)
  | union ss => choice (bareAll ss)
  | s => s

/-- Schemas without notes in them. -/
def bareAll : List Schema → List Schema
  | [] => []
  | s :: ss => bare s :: bareAll ss

end

/-- A record with the given fields; notes on field schemas play no part. -/
def recordOf (name : String) (fields : List (FieldSpec Schema)) : Schema :=
  record name (fields.map fun f => { f with schema := bare f.schema })

end Schema

end EntryLint
