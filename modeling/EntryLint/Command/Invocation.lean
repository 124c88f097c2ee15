import EntryLint.Command.Manual
import EntryLint.Files.Path

/-!
# Invocations

What the arguments of the tool ask for.
-/

namespace EntryLint.Command

/-- What a listing is about. -/
inductive Subject where
  | rules
  | configs
  deriving DecidableEq, Repr

/-- A check of a project. -/
structure CheckRequest where
  root : Option Path := none
  config : Option Path := none
  /-- Whether the report is a JSON document. -/
  json : Bool := false
  rootAlias : Option String := none
  /-- Whether ignore files do not count, whatever the configuration says. -/
  noGitignore : Bool := false
  /-- The most warnings that are not a failure; a negative number sets no limit. -/
  maxWarnings : Int := -1
  /-- Whether the whole log is shown. -/
  debug : Bool := false
  targets : List Path := []
  deriving DecidableEq, Repr

/-- A question about import paths. -/
structure ClassifyRequest where
  rootAlias : Option String := none
  extensions : List String := []
  paths : List String := []
  deriving DecidableEq, Repr

/-- What the tool is asked to do. -/
inductive Invocation where
  | check (request : CheckRequest)
  | classify (request : ClassifyRequest)
  | list (subject : Subject)
  deriving DecidableEq, Repr

namespace CheckRequest

/-- The request in the arguments of a check. -/
def ofReading (r : Reading) : CheckRequest where
  root := (r.value? "--root").map Path.ofText
  config := (r.value? "--config").map Path.ofText
  json := r.value? "--format" = some "json"
  rootAlias := r.value? "--alias"
  noGitignore := r.has "--no-gitignore"
  maxWarnings := ((r.value? "--max-warnings").bind Text.readInt?).getD (-1)
  debug := r.has "--debug"
  targets := (r.operands.getD []).map Path.ofText

end CheckRequest

namespace ClassifyRequest

/-- The request in the arguments of a question about paths. -/
def ofReading (r : Reading) : ClassifyRequest where
  rootAlias := r.value? "--alias"
  extensions := r.values "--ext"
  paths := r.operands.getD []

end ClassifyRequest

namespace Invocation

/-- The command of a name, and what its arguments ask for. -/
def command? : String → Option (Spec × (Reading → Invocation))
  | "check" => some (checkSpec, fun r => .check (.ofReading r))
  | "classify" => some (classifySpec, fun r => .classify (.ofReading r))
  | "list" =>
    some (listSpec, fun r => .list (if r.operands = some ["rules"] then .rules else .configs))
  | _ => none

/-- Reads the arguments of one command, with those that it does not take. -/
def ofCommand (name : String) (args : List String) :
    Except (Spec × Stop) (Invocation × List String) :=
  match command? name with
  | none => .error (mainSpec, .help)
  | some (spec, invocation) =>
    match spec.read args with
    | .error stop => .error (spec, stop)
    | .ok r => .ok (invocation r, r.unknown)

/-- Reads the arguments of the tool. A failure names the command that it is about. Arguments that
nothing takes are refused last, by the tool itself. -/
def ofArguments (args : List String) : Except (Spec × Stop) Invocation :=
  match mainSpec.read args with
  | .error stop => .error (mainSpec, stop)
  | .ok r =>
    match r.operands with
    | some (name :: rest) => do
      let (invocation, unknown) ← ofCommand name rest
      match r.unknown ++ unknown with
      | [] => return invocation
      | extra =>
        .error (mainSpec, .error ("unrecognized arguments: " ++ Text.join " " extra))
    | _ => .error (mainSpec, .help)

end Invocation

end EntryLint.Command
