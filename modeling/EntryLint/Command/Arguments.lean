import EntryLint.Text.Integer
import EntryLint.Text.Quoted
import EntryLint.Text.Segments

/-!
# Command line arguments

A command describes its options and what it takes besides them, and its arguments are read from left
to right: options where they stand, everything else in one group. A long option may be shortened as
long as it stays unique, and its value may follow an equals sign. After a double hyphen there are no
options.
-/

namespace EntryLint.Command

/-- The values of an option. -/
inductive ValueType where
  | text
  | int
  | choice (allowed : List String)
  deriving DecidableEq, Repr

/-- What an option does. -/
inductive OptionKind where
  | help
  | version
  | flag
  | value (type : ValueType)
  deriving DecidableEq, Repr

/-- An option: its names, what it does, and the options that it cannot stand beside. -/
structure OptionSpec where
  names : List String
  kind : OptionKind
  excludes : List String := []
  deriving DecidableEq, Repr

namespace OptionSpec

/-- The name of an option in messages. -/
def title (o : OptionSpec) : String :=
  Text.join "/" o.names

/-- The name that an option is recorded under. -/
def key (o : OptionSpec) : String :=
  o.names.getLast?.getD ""

end OptionSpec

/-- How many arguments a command takes besides its options. -/
inductive Arity where
  | any
  | atLeastOne
  | one (allowed : List String)
  /-- A command and all its arguments. -/
  | command (allowed : List String)
  deriving DecidableEq, Repr

/-- What a command takes, and what it says about that. -/
structure Spec where
  /-- How the command is called. -/
  program : String
  /-- How it is used, in short. -/
  usage : String
  /-- What its arguments mean. -/
  details : String
  options : List OptionSpec
  /-- What the other arguments are called. -/
  operand : String
  arity : Arity
  deriving DecidableEq, Repr

/-- Why reading ends before the arguments do. -/
inductive Stop where
  | help
  | version
  | error (text : String)
  deriving DecidableEq, Repr

/-- An argument by its form. -/
inductive Item where
  /-- The double hyphen that ends the options. -/
  | separator
  | operand (text : String)
  /-- An option that is known or not, the name it is called by, and the value joined to it. -/
  | option (o : Option OptionSpec) (name : String) (joined : Option String) (text : String)
  deriving DecidableEq, Repr

namespace Item

/-- An argument as it was given. -/
def text : Item → String
  | separator => "--"
  | operand text => text
  | option _ _ _ text => text

/-- Whether an argument is an option. -/
def isOption : Item → Bool
  | option .. => true
  | _ => false

end Item

namespace Spec

/-! ## Telling options from operands -/

/-- The option with a name. -/
def find? (spec : Spec) (name : String) : Option OptionSpec :=
  spec.options.find? fun o => o.names.contains name

/-- All names with their options, in the order of their declaration. -/
def names (spec : Spec) : List (String × OptionSpec) :=
  spec.options.flatMap fun o => o.names.map fun n => (n, o)

/-- A text cut at its first equals sign. -/
def cutEquals? (s : String) : Option (String × String) :=
  match s.toList.dropWhile (· ≠ '=') with
  | [] => none
  | _ :: rest => some (String.ofList (s.toList.takeWhile (· ≠ '=')), String.ofList rest)

/-- The options that a shortened name can mean, with the value joined to it. -/
def candidates (spec : Spec) (s : String) : List (OptionSpec × String × Option String) :=
  if Text.startsWith "--" s then
    let (start, joined) :=
      match cutEquals? s with
      | some (start, value) => (start, some value)
      | none => (s, none)
    spec.names.filterMap fun (n, o) => if Text.startsWith start n then some (o, n, joined) else none
  else
    let short := String.ofList (s.toList.take 2)
    spec.names.filterMap fun (n, o) =>
      if n = short then some (o, n, some (Text.dropFirst 2 s))
      else if Text.startsWith s n then some (o, n, none)
      else none

/-- Whether a text is a negative number. -/
def isNegativeNumber (s : String) : Bool :=
  let isDigit (c : Char) : Bool := (Text.digitValue? c).isSome
  let number (cs : List Char) : Bool :=
    let fraction := (cs.dropWhile isDigit).drop 1
    (!cs.isEmpty && cs.all isDigit) ||
      ((cs.dropWhile isDigit).head? = some '.' && !fraction.isEmpty && fraction.all isDigit)
  match s.toList with
  | '-' :: cs =>
    number cs || (cs.getLast? = some '\n' && number cs.dropLast)
  | _ => false

/-- The form of an argument before a double hyphen. -/
def item (spec : Spec) (s : String) : Except Stop Item :=
  if !Text.startsWith "-" s then .ok (.operand s)
  else
    match spec.find? s with
    | some o => .ok (.option (some o) s none s)
    | none =>
      if s.length = 1 then .ok (.operand s)
      else
        match (cutEquals? s).bind fun (n, v) => (spec.find? n).map fun o => (o, n, v) with
        | some (o, n, v) => .ok (.option (some o) n (some v) s)
        | none =>
          match spec.candidates s with
          | [(o, n, joined)] => .ok (.option (some o) n joined s)
          | [] =>
            if isNegativeNumber s || Text.contains ' ' s then .ok (.operand s)
            else .ok (.option none s none s)
          | many =>
            let matching := Text.join ", " (many.map fun (_, n, _) => n)
            .error (.error ("ambiguous option: " ++ s ++ " could match " ++ matching))

/-- The forms of all arguments. -/
def items (spec : Spec) : List String → Except Stop (List Item)
  | [] => .ok []
  | s :: rest =>
    if s = "--" then .ok (.separator :: rest.map .operand)
    else do
      let i ← spec.item s
      return i :: (← items spec rest)

end Spec

/-! ## Reading -/

/-- What has been read. -/
structure Reading where
  /-- The values of options by their keys, the last one first. -/
  options : List (String × String) := []
  operands : Option (List String) := none
  /-- Arguments that nothing takes. -/
  unknown : List String := []
  deriving DecidableEq, Repr

namespace Reading

/-- The last value of an option. -/
def value? (r : Reading) (key : String) : Option String :=
  r.options.lookup key

/-- All values of an option, in their order. -/
def values (r : Reading) (key : String) : List String :=
  (r.options.filterMap fun (k, v) => if k = key then some v else none).reverse

/-- Whether an option was given. -/
def has (r : Reading) (key : String) : Bool :=
  (r.value? key).isSome

end Reading

/-- Texts in quotes, with commas between them. -/
def quotedList (xs : List String) : String :=
  Text.join ", " (xs.map Text.quote)

/-- The complaint about an argument. -/
def complaint (title text : String) : Stop :=
  .error ("argument " ++ title ++ ": " ++ text)

/-- Checks that a text is among the allowed ones. -/
def checkChoice (title : String) (allowed : List String) (s : String) : Except Stop Unit :=
  if allowed.contains s then .ok ()
  else
    .error (complaint title
      ("invalid choice: " ++ Text.quote s ++ " (choose from " ++ quotedList allowed ++ ")"))

/-- Checks a value of an option. -/
def checkValue (title : String) (type : ValueType) (s : String) : Except Stop Unit :=
  match type with
  | .text => .ok ()
  | .int =>
    if (Text.readInt? s).isSome then .ok ()
    else .error (complaint title ("invalid int value: " ++ Text.quote s))
  | .choice allowed => checkChoice title allowed s

/-- Records an option. -/
def takeOption (spec : Spec) (r : Reading) (o : OptionSpec) (value : String) :
    Except Stop Reading := do
  match o.kind with
  | .help => .error .help
  | .version => .error .version
  | .flag => pure ()
  | .value type => checkValue o.title type value
  match o.excludes.find? r.has with
  | some other =>
    let title := ((spec.find? other).map OptionSpec.title).getD other
    .error (complaint o.title ("not allowed with argument " ++ title))
  | none => return { r with options := (o.key, value) :: r.options }

/-- Whether an option takes a value. -/
def OptionSpec.takesValue (o : OptionSpec) : Bool :=
  match o.kind with
  | .value _ => true
  | _ => false

/-- The options in one argument: short options without values may stand together. Each letter of the
joined text is one more of them. -/
def together (spec : Spec) (o : OptionSpec) (name : String) : List Char →
    Except Stop (List OptionSpec)
  | [] => .ok [o]
  | c :: rest =>
    let ignored : Stop :=
      complaint o.title ("ignored explicit argument " ++ Text.quote (String.ofList (c :: rest)))
    if Text.startsWith "--" name then .error ignored
    else
      let next := String.ofList ['-', c]
      match spec.find? next with
      | none => .error ignored
      | some o' => do return o :: (← together spec o' next rest)

/-- Reads an option and what belongs to it. Gives back the items that are left. -/
def readOption (spec : Spec) (r : Reading) (o : Option OptionSpec) (name : String)
    (joined : Option String) (text : String) (rest : List Item) :
    Except Stop (Reading × List Item) :=
  match o with
  | none => .ok ({ r with unknown := r.unknown ++ [text] }, rest)
  | some o =>
    if o.takesValue then
      match joined, rest with
      | some value, _ => do return (← takeOption spec r o value, rest)
      | none, .operand value :: rest => do return (← takeOption spec r o value, rest)
      | none, _ => .error (complaint o.title "expected one argument")
    else
      match joined with
      | some "" => .error (complaint o.title "ignored explicit argument ''")
      | _ => do
        let os ← together spec o name (joined.getD "").toList
        return (← os.foldlM (fun r o => takeOption spec r o "") r, rest)

/-- The number of items that the operands of a command take from the front, if they can. -/
def operandCount? (arity : Arity) (items : List Item) : Option Nat :=
  let run := (items.takeWhile fun i => !i.isOption).length
  let separators := (items.takeWhile (· = .separator)).length
  let hasOperand := separators < run
  match arity with
  | .any => some run
  | .atLeastOne => if hasOperand then some run else none
  | .one _ =>
    if hasOperand then
      let behind := ((items.drop (separators + 1)).takeWhile (· = .separator)).length
      some (separators + 1 + behind)
    else none
  | .command _ => if hasOperand then some items.length else none

/-- Records the operands of a command. The first double hyphen among them does not count, except
before another command. -/
def takeOperands (spec : Spec) (r : Reading) (texts : List String) : Except Stop Reading := do
  match spec.arity with
  | .command allowed =>
    checkChoice spec.operand allowed (texts.head?.getD "")
    return { r with operands := some texts }
  | .one allowed =>
    let texts := texts.erase "--"
    checkChoice spec.operand allowed (texts.head?.getD "")
    return { r with operands := some texts }
  | _ => return { r with operands := some (texts.erase "--") }

/-- Reads operands, unless they are already read. Gives back the items that are left. -/
def readOperands (spec : Spec) (r : Reading) (items : List Item) :
    Except Stop (Reading × List Item) :=
  if r.operands.isSome then .ok (r, items)
  else
    match operandCount? spec.arity items with
    | none => .ok (r, items)
    | some n => do return (← takeOperands spec r ((items.take n).map Item.text), items.drop n)

/-- Reads all items. Operands that are left before an option are unknown. Every step takes an
item. -/
def readItems (spec : Spec) : Nat → Reading → List Item → Except Stop Reading
  | 0, r, _ => .ok r
  | fuel + 1, r, items =>
    match items with
    | .option o name joined text :: rest => do
      let (r, rest) ← readOption spec r o name joined text rest
      readItems spec fuel r rest
    | _ => do
      let (r', rest) ← readOperands spec r items
      if !(items.any Item.isOption) then
        return { r' with unknown := r'.unknown ++ rest.map Item.text }
      else if rest.length < items.length then readItems spec fuel r' rest
      else
        let extra := items.takeWhile fun i => !i.isOption
        readItems spec fuel { r' with unknown := r'.unknown ++ extra.map Item.text }
          (items.drop extra.length)

/-- Reads the arguments of a command. What it cannot do without must be there; arguments that
nothing takes are left for the caller. -/
def Spec.read (spec : Spec) (args : List String) : Except Stop Reading := do
  let items ← spec.items args
  let r ← readItems spec (items.length + 1) {} items
  if r.operands.isNone then
    .error (.error ("the following arguments are required: " ++ spec.operand))
  else return r

end EntryLint.Command
