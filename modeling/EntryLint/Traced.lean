/-!
# Traced computations

A computation that can fail and leaves a trace on the way. The trace is kept when it fails.
-/

namespace EntryLint

/-- An exception of a library that nothing turns into an error of the tool: the name of its class
and its text. -/
structure Raised where
  kind : String
  message : String
  deriving DecidableEq, Repr

/-- The trace of a computation and its outcome. -/
structure Traced (τ ε α : Type) where
  trace : List τ
  outcome : Except ε α

namespace Traced

variable {τ ε α β : Type}

/-- A value without a trace. -/
def ok (a : α) : Traced τ ε α :=
  { trace := [], outcome := .ok a }

/-- A failure that leaves no trace. -/
def fail (e : ε) : Traced τ ε α :=
  { trace := [], outcome := .error e }

/-- Leaves a line in the trace. -/
def note (line : τ) : Traced τ ε Unit :=
  { trace := [line], outcome := .ok () }

/-- An outcome without a trace. -/
def ofExcept (r : Except ε α) : Traced τ ε α :=
  { trace := [], outcome := r }

/-- Goes on with the value of a computation, if it has one. -/
def andThen (x : Traced τ ε α) (f : α → Traced τ ε β) : Traced τ ε β :=
  match x.outcome with
  | .error e => { trace := x.trace, outcome := .error e }
  | .ok a =>
    let y := f a
    { trace := x.trace ++ y.trace, outcome := y.outcome }

/-- A computation with its failure seen as another. -/
def mapError {ε' : Type} (f : ε → ε') (x : Traced τ ε α) : Traced τ ε' α :=
  { trace := x.trace, outcome := x.outcome.mapError f }

instance : Monad (Traced τ ε) where
  pure := ok
  bind := andThen

@[simp] theorem outcome_pure (a : α) : (pure a : Traced τ ε α).outcome = .ok a := rfl

@[simp] theorem outcome_ok (a : α) : (ok a : Traced τ ε α).outcome = .ok a := rfl

@[simp] theorem outcome_fail (e : ε) : (fail e : Traced τ ε α).outcome = .error e := rfl

@[simp] theorem outcome_note (line : τ) : (note line : Traced τ ε Unit).outcome = .ok () := rfl

@[simp] theorem outcome_mapError {ε' : Type} (f : ε → ε') (x : Traced τ ε α) :
    (x.mapError f).outcome = x.outcome.mapError f := rfl

theorem outcome_bind (x : Traced τ ε α) (f : α → Traced τ ε β) :
    (x >>= f).outcome = x.outcome >>= fun a => (f a).outcome := by
  cases h : x.outcome <;> simp [bind, andThen, h, Except.bind]

end Traced

/-- How much a line of the log matters. -/
inductive LogLevel where
  | debug
  | warning
  deriving DecidableEq, Repr

namespace LogLevel

/-- The word for a level in the log. -/
def name : LogLevel → String
  | debug => "DEBUG"
  | warning => "WARNING"

end LogLevel

/-- A line of the log. -/
structure LogLine where
  level : LogLevel
  text : String
  deriving DecidableEq, Repr

namespace LogLine

/-- A line as it is printed. -/
def render (line : LogLine) : String :=
  "[" ++ line.level.name ++ "] " ++ line.text ++ "\n"

end LogLine

/-- A computation that writes to the log. -/
abbrev Logged (ε α : Type) := Traced LogLine ε α

namespace Logged

variable {ε : Type}

/-- Writes a line for those who look for details. -/
def debug (text : String) : Logged ε Unit :=
  Traced.note { level := .debug, text }

/-- Writes a warning. -/
def warning (text : String) : Logged ε Unit :=
  Traced.note { level := .warning, text }

end Logged

end EntryLint
