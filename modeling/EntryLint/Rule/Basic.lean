import EntryLint.Entry.Policy
import EntryLint.NameMap

/-!
# Rules

A rule declares a name and message texts and judges one import source at a time. Whether a hit is
an error or a warning is decided by the configuration, not by the rule.
-/

namespace EntryLint

/-- The place of a literal in a text: lines and columns from one, columns in characters. -/
structure Span where
  line : Int := 1
  column : Int := 1
  endLine : Int := 1
  endColumn : Int := 1
  deriving DecidableEq, Repr

/-- The source of one import statement: the text between its quotes and the place of the literal,
quotes included. -/
structure ImportSource where
  path : String
  span : Span := {}
  deriving DecidableEq, Repr

/-- How much a broken rule weighs. Levels other than the three known ones are carried along. -/
inductive Severity where
  | error
  | warn
  | off
  | other (name : String)
  deriving DecidableEq, Repr

namespace Severity

/-- The word for a severity in configurations and reports. -/
def name : Severity → String
  | error => "error"
  | warn => "warn"
  | off => "off"
  | other name => name

/-- The severity that a word stands for. -/
def ofName (s : String) : Severity :=
  if s = "error" then error
  else if s = "warn" then warn
  else if s = "off" then off
  else other s

end Severity

/-- What a rule declares about itself. -/
structure RuleInfo where
  name : String
  type : String := "problem"
  description : String := ""
  recommended : Bool := false
  /-- The message texts by identifier, in the order of their declaration. -/
  messages : NameMap String := []
  deriving DecidableEq, Repr

/-- What a rule says about one import source. -/
structure RuleHit where
  messageId : String
  message : String
  source : ImportSource
  deriving DecidableEq, Repr

/-- A rule that can judge imports. Texts and judgement depend on the path policy of the project. -/
structure Rule where
  /-- The name of the rule's definition, as against the name it is configured by. -/
  definition : String
  info : RuleInfo
  messages : PathPolicy → NameMap String
  check : PathPolicy → ImportSource → Option RuleHit

namespace Rule

/-- The name that a rule is configured by. -/
def name (rule : Rule) : String :=
  rule.info.name

end Rule

end EntryLint
