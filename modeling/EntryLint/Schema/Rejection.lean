import EntryLint.Traced
import EntryLint.Value.Written

/-!
# Rejections

Why a value does not fit its schema, where in the document it stands, and the text that says so.
-/

namespace EntryLint

/-- Why a value is rejected at its place. -/
inductive Reason where
  | expectedRecord (name kind : String)
  | unknownKeys (keys : List String)
  | missingField
  | expectedOneOf (allowed : List Value) (got : Value)
  /-- No variant of a choice fits; the texts say why not. -/
  | noVariant (choice : String) (problems : List String)
  | expectedMapping (kind : String)
  | expectedList (kind : String)
  | expectedNull (kind : String)
  | expectedScalar (name kind : String)
  | unsupported (name : String)
  | invalidModel (detail : String)

namespace Reason

/-- The text of a reason. -/
def text : Reason → String
  | expectedRecord name kind => "expected mapping for " ++ name ++ ", got " ++ kind
  | unknownKeys keys => "unknown key(s): " ++ Value.shown (.list (keys.map .str))
  | missingField => "required field missing"
  | expectedOneOf allowed got =>
    "expected one of " ++ Value.shown (.list allowed) ++ ", got " ++ got.shown
  | noVariant choice [] => "no variant of " ++ choice ++ " matched"
  | noVariant _ problems => Text.join " | " problems
  | expectedMapping kind => "expected mapping, got " ++ kind
  | expectedList kind => "expected list, got " ++ kind
  | expectedNull kind => "expected null, got " ++ kind
  | expectedScalar name kind => "expected " ++ name ++ ", got " ++ kind
  | unsupported name => "unsupported annotation " ++ name
  | invalidModel detail => "validation error: " ++ detail

end Reason

/-- A rejection: the path of the place and the reason. -/
structure Rejection where
  path : String
  reason : Reason

namespace Rejection

/-- The text of a rejection. -/
def message (r : Rejection) : String :=
  r.path ++ ": " ++ r.reason.text

end Rejection

namespace Raised

/-- A value that cannot be a key is used as one. -/
def unhashable (typeName : String) : Raised :=
  { kind := "TypeError", message := "unhashable type: '" ++ typeName ++ "'" }

/-- An integer with too many digits is written. -/
def tooLong : Raised where
  kind := "ValueError"
  message := s!"Exceeds the limit ({Text.mostDigits} digits) for integer string conversion; "
    ++ "use sys.set_int_max_str_digits() to increase the limit"

end Raised

/-- Why a value could not be loaded: it does not fit, or something else was raised on the way. -/
inductive LoadError where
  | rejected (r : Rejection)
  | raised (e : Raised)

namespace LoadError

/-- The text of a load error. -/
def message : LoadError → String
  | rejected r => r.message
  | raised e => e.message

end LoadError

/-- An attempt to load a value: its trace holds all rejections on the way, those of variants that
were passed over included. -/
abbrev Attempt (α : Type) := Traced Rejection LoadError α

namespace Attempt

variable {α : Type}

/-- A rejection at a path. -/
def reject (path : String) (reason : Reason) : Attempt α :=
  { trace := [{ path, reason }], outcome := .error (.rejected { path, reason }) }

/-- A rejection of a value that is none of those allowed. All of them are quoted, which fails when
one of them has no text. -/
def rejectOther (path : String) (allowed : List Value) (got : Value) : Attempt α :=
  if Value.areShowable allowed && got.isShowable then reject path (.expectedOneOf allowed got)
  else .fail (.raised .tooLong)

@[simp] theorem outcome_reject (path : String) (reason : Reason) :
    (reject path reason : Attempt α).outcome = .error (.rejected { path, reason }) := rfl

end Attempt

end EntryLint
