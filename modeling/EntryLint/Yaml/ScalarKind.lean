import EntryLint.Number.Binary64
import EntryLint.Text.Integer
import EntryLint.Text.Quoted
import EntryLint.Yaml.Library

/-!
# Kinds of scalars

What the text of a scalar says its kind is, and the value that a text has as one of a kind. Numbers
may have underscores between their digits.
-/

namespace EntryLint.Yaml

/-- Why a text has no value of its kind. -/
inductive YamlError where
  /-- The text is no document, or its nodes do not fit together. -/
  | malformed
  | badInteger (text : String) (base : Nat)
  /-- An integer has too many digits. -/
  | tooLong (digits : Nat)
  | badFloat (text : String)
  | badBoolean (word : String)
  | badDate (e : DateError)
  /-- A key holds a value that cannot be looked up. -/
  | unhashableKey (typeName : String)
  deriving DecidableEq, Repr

namespace YamlError

/-- An error as the failure of a library. -/
def failure : YamlError → YamlFailure
  | malformed => .malformed "the document cannot be read"
  | badInteger text base =>
    .raised ⟨"ValueError",
      "invalid literal for int() with base " ++ toString base ++ ": " ++ Text.quote text⟩
  | tooLong digits =>
    .raised ⟨"ValueError",
      s!"Exceeds the limit ({Text.mostDigits} digits) for integer string conversion: " ++
        s!"value has {digits} digits; use sys.set_int_max_str_digits() to increase the limit"⟩
  | badFloat text =>
    .raised ⟨"ValueError", "could not convert string to float: " ++ Text.quote text⟩
  | badBoolean word => .raised ⟨"KeyError", Text.quote word⟩
  | badDate e => .raised ⟨"ValueError", e.message⟩
  | unhashableKey typeName =>
    .raised ⟨"TypeError", "unhashable type: " ++ Text.quote typeName⟩

end YamlError

/-- The kinds of scalars. -/
inductive ScalarKind where
  | null
  | bool
  | int
  | float
  | timestamp
  | str
  /-- The key under which mappings are merged. -/
  | merge
  /-- The key of a default value. -/
  | default
  deriving DecidableEq, Repr

/-! ## Recognising kinds -/

/-- The text without a sign. -/
def unsigned : List Char → List Char
  | '+' :: cs => cs
  | '-' :: cs => cs
  | cs => cs

/-- Whether a character is a decimal digit or an underscore. -/
def isDigitOrLow (ch : Char) : Bool :=
  ch.isDigit || ch = '_'

/-- Whether a text is not empty and all of a class. -/
def isRun (p : Char → Bool) (cs : List Char) : Bool :=
  !cs.isEmpty && cs.all p

/-- Whether a text is an integer: binary, octal, decimal or hexadecimal. -/
def isInt (cs : List Char) : Bool :=
  match unsigned cs with
  | '0' :: 'b' :: ds => isRun (fun ch => ch = '0' || ch = '1' || ch = '_') ds
  | '0' :: 'o' :: ds => isRun (fun ch => ('0' ≤ ch && ch ≤ '7') || ch = '_') ds
  | '0' :: 'x' :: ds =>
    isRun (fun ch => ch.isDigit || ('a' ≤ ch && ch ≤ 'f') || ('A' ≤ ch && ch ≤ 'F') || ch = '_') ds
  | ds => isRun isDigitOrLow ds

/-- Whether a text is an exponent, with a sign if one is required. -/
def isExponent (signed : Bool) : List Char → Bool
  | [] => true
  | e :: cs =>
    (e = 'e' || e = 'E') && (!signed || cs.head? = some '+' || cs.head? = some '-') &&
      isRun Char.isDigit (unsigned cs)

/-- Whether a text is a float. One that starts with a point has a sign in its exponent. -/
def isFloat (cs : List Char) : Bool :=
  match unsigned cs with
  | '.' :: rest =>
    rest = "inf".toList || rest = "Inf".toList || rest = "INF".toList ||
      (cs = '.' :: rest && (rest = "nan".toList || rest = "NaN".toList || rest = "NAN".toList)) ||
      (let digits := rest.takeWhile isDigitOrLow
       !digits.isEmpty && isExponent true (rest.drop digits.length))
  | d :: rest =>
    if !d.isDigit then false
    else
      match rest.dropWhile isDigitOrLow with
      | [] => false
      | '.' :: fraction => isExponent false (fraction.dropWhile isDigitOrLow)
      | more => isExponent false more
  | [] => false

/-- Reads one or two digits. -/
def oneOrTwo : List Char → Option (Nat × List Char)
  | a :: b :: cs =>
    if a.isDigit then
      if b.isDigit then some (10 * (a.toNat - 48) + (b.toNat - 48), cs)
      else some (a.toNat - 48, b :: cs)
    else none
  | [a] => if a.isDigit then some (a.toNat - 48, []) else none
  | [] => none

/-- Reads two digits. -/
def two : List Char → Option (Nat × List Char)
  | a :: b :: cs =>
    if a.isDigit && b.isDigit then some (10 * (a.toNat - 48) + (b.toNat - 48), cs) else none
  | _ => none

/-- Reads a character of a class. -/
def one (p : Char → Bool) : List Char → Option (List Char)
  | c :: cs => if p c then some cs else none
  | [] => none

/-- The parts of a timestamp. -/
structure Timestamp where
  year : Nat
  month : Nat
  day : Nat
  time : Option (Nat × Nat × Nat) := none
  /-- The digits after the point of the seconds. -/
  fraction : List Char := []
  /-- The zone: none, or its sign, hours and minutes. -/
  zone : Option (Bool × Nat × Nat) := none
  deriving Repr

/-- Reads a zone up to the end of a text. -/
def zone? (cs : List Char) : Option (Option (Bool × Nat × Nat)) :=
  match cs.dropWhile fun ch => ch = ' ' || ch = '\t' with
  | [] => if cs.isEmpty then some none else none
  | ['Z'] => some (some (false, 0, 0))
  | sign :: rest =>
    if sign = '+' || sign = '-' then do
      let (hours, rest) ← oneOrTwo rest
      match rest with
      | [] => some (some (sign = '-', hours, 0))
      | ':' :: rest =>
        let (minutes, rest) ← two rest
        if rest.isEmpty then some (some (sign = '-', hours, minutes)) else none
      | _ => none
    else none

/-- Reads a timestamp: a date, or a date and a time. `strict` asks for two digits of month and day
where there is no time. -/
def timestamp? (strict : Bool) (cs : List Char) : Option Timestamp := do
  let (century, rest) ← two cs
  let (years, rest) ← two rest
  let rest ← one (· = '-') rest
  let (month, afterMonth) ← oneOrTwo rest
  let monthDigits := rest.length - afterMonth.length
  let rest ← one (· = '-') afterMonth
  let (day, afterDay) ← oneOrTwo rest
  let dayDigits := rest.length - afterDay.length
  let date : Timestamp := { year := 100 * century + years, month, day }
  match afterDay with
  | [] => if strict && (monthDigits < 2 || dayDigits < 2) then none else return date
  | t :: more =>
    let rest ←
      if t = 'T' || t = 't' then some more
      else
        let trimmed := afterDay.dropWhile fun ch => ch = ' ' || ch = '\t'
        if trimmed.length < afterDay.length then some trimmed else none
    let (hour, rest) ← oneOrTwo rest
    let rest ← one (· = ':') rest
    let (minute, rest) ← two rest
    let rest ← one (· = ':') rest
    let (second, rest) ← two rest
    let (fraction, rest) :=
      match rest with
      | '.' :: ds => (ds.takeWhile Char.isDigit, ds.dropWhile Char.isDigit)
      | _ => ([], rest)
    return { date with time := some (hour, minute, second), fraction, zone := ← zone? rest }

/-- The kind that the text of a plain scalar says it is. -/
def ScalarKind.ofText (text : String) : ScalarKind :=
  let cs := text.toList
  if ["true", "True", "TRUE", "false", "False", "FALSE"].contains text then .bool
  else if ["", "~", "null", "Null", "NULL"].contains text then .null
  else if text = "<<" then .merge
  else if text = "=" then .default
  else
    match cs with
    | [] => .null
    | first :: _ =>
      if isFloat cs then .float
      else if (first.isDigit || first = '+' || first = '-') && isInt cs then .int
      else if (timestamp? true cs).isSome then .timestamp
      else .str

/-! ## Values of kinds -/

/-- The text without underscores. -/
def withoutLows (text : String) : List Char :=
  text.toList.filter (· ≠ '_')

/-- Whether a number is written with a minus. -/
def isNegative (cs : List Char) : Bool :=
  cs.head? = some '-'

/-- The value of a digit in bases up to sixteen. -/
def digitIn? (base : Nat) (ch : Char) : Option Nat :=
  let n :=
    if ch.isDigit then ch.toNat - 48
    else if 'a' ≤ ch ∧ ch ≤ 'f' then ch.toNat - 87
    else if 'A' ≤ ch ∧ ch ≤ 'F' then ch.toNat - 55
    else base
  if n < base then some n else none

/-- The number of some digits. -/
def digitsIn (base : Nat) (cs : List Char) : Except YamlError Nat :=
  match cs, cs.mapM (digitIn? base) with
  | _ :: _, some ds => .ok (ds.foldl (fun n d => base * n + d) 0)
  | _, _ => .error (.badInteger (String.ofList cs) base)

/-- The number of a decimal text. -/
def decimal (cs : List Char) : Except YamlError Int :=
  let digits := (cs.filter fun c => (Text.digitValue? c).isSome).length
  match Text.readInt? (String.ofList cs) with
  | some n => .ok n
  | none =>
    if Text.mostDigits < digits then .error (.tooLong digits)
    else .error (.badInteger (String.ofList cs) 10)

/-- The integer of a text. -/
def intValue (text : String) : Except YamlError Value := do
  let cs := withoutLows text
  let n : Int ←
    match unsigned cs with
    | '0' :: 'b' :: ds => do pure (Int.ofNat (← digitsIn 2 ds))
    | '0' :: 'x' :: ds => do pure (Int.ofNat (← digitsIn 16 ds))
    | '0' :: 'o' :: ds => do pure (Int.ofNat (← digitsIn 8 ds))
    | ds => decimal ds
  return .int (if isNegative cs then -n else n)

/-- The float of a text. -/
def floatValue (text : String) : Except YamlError Value :=
  let cs := (withoutLows text).map Char.toLower
  let size := String.ofList (unsigned cs)
  if size = ".nan" then .ok (.float .nan)
  else if size = ".inf" then .ok (.float (.infinite (isNegative cs)))
  else
    match Binary64.read? size with
    | none => .error (.badFloat size)
    | some x =>
      match x with
      | .nan => .ok (.float .nan)
      | .infinite _ => .ok (.float (.infinite (isNegative cs)))
      | .finite _ m e => .ok (.float (.finite (isNegative cs) m e))

/-- The boolean of a word. -/
def boolValue (text : String) : Except YamlError Value :=
  let word := String.ofList (text.toList.map Char.toLower)
  if ["true", "yes", "y", "on"].contains word then .ok (.bool true)
  else if ["false", "no", "n", "off"].contains word then .ok (.bool false)
  else .error (.badBoolean word)

/-- The microseconds of the digits after a point, rounded. -/
def microseconds (digits : List Char) : Nat :=
  let six := (digits ++ List.replicate 6 '0').take 6
  let whole := six.foldl (fun n d => 10 * n + (d.toNat - 48)) 0
  match digits.drop 6 with
  | d :: _ => if '4' < d then whole + 1 else whole
  | [] => whole

/-- The date or moment of a timestamp. -/
def Timestamp.value (t : Timestamp) : Except YamlError Value :=
  match Date.of t.year t.month t.day with
  | .error e => .error (.badDate e)
  | .ok date =>
    match t.time with
    | none => .ok (.date date)
    | some (hour, minute, second) =>
      if 23 < hour then .error (.badDate .hour)
      else if 59 < minute then .error (.badDate .minute)
      else if 59 < second then .error (.badDate .second)
      else
        let zone := t.zone.map fun (negative, hours, minutes) =>
          let offset : Int := 60 * hours + minutes
          ("UTC", if negative then -offset else offset)
        .ok (.moment
          { date, hour, minute, second, microsecond := microseconds t.fraction % 1000000, zone })

/-- The value of a text as a timestamp. -/
def timestampValue (text : String) : Except YamlError Value :=
  match timestamp? false text.toList with
  | none => .error .malformed
  | some t => t.value

end EntryLint.Yaml
