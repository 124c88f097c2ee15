import EntryLint.Text.Blank

/-!
# Integers in texts

How integers are read from the command line: blanks around them, a sign, and decimal digits of any
script with single underscores between them.
-/

namespace EntryLint.Text

/-- The longest integer that is read or written, in digits. -/
def mostDigits : Nat := 4300

/-- The values of digits with single underscores between them. `started` tells whether a digit came
last. -/
def digitValues? (started : Bool) : List Char → Option (List Nat)
  | [] => if started then some [] else none
  | c :: cs =>
    if c = '_' then (if started then digitValues? false cs else none)
    else
      match digitValue? c with
      | some d => (digitValues? true cs).map (d :: ·)
      | none => none

/-- The natural number of some digits, if there are any and not too many. -/
def natOf? (cs : List Char) : Option Nat := do
  let ds ← digitValues? false cs
  if mostDigits < ds.length then none else some (ds.foldl (fun n d => 10 * n + d) 0)

/-- The integer that a text spells. -/
def readInt? (s : String) : Option Int :=
  match (trim s).toList with
  | '-' :: cs => (natOf? cs).map fun n => -(n : Int)
  | '+' :: cs => (natOf? cs).map Int.ofNat
  | cs => (natOf? cs).map Int.ofNat

end EntryLint.Text
