import EntryLint.Text.Blank

/-!
# Binary floating-point numbers

Double-precision numbers as exact values `± m · 2 ^ e`, with the rounding of a quotient to the
nearest of them, the reading of decimal text, and the shortest decimal that reads back. All
arithmetic is on natural numbers.
-/

namespace EntryLint

/-- A double-precision number. A finite number is `± mantissa · 2 ^ exponent`. -/
inductive Binary64 where
  | nan
  | infinite (negative : Bool)
  | finite (negative : Bool) (mantissa : Nat) (exponent : Int)
  deriving DecidableEq, Repr

namespace Binary64

/-- The least exponent, that of the subnormal numbers. -/
def minExponent : Int := -1074

/-- The greatest exponent of a finite number. -/
def maxExponent : Int := 971

/-- The quotient of two naturals, rounded to the nearest integer, a half to the even one. -/
def roundDiv (num den : Nat) : Nat :=
  let q := num / den
  let r := num % den
  if 2 * r > den || (2 * r = den && q % 2 = 1) then q + 1 else q

/-- `num / den` as a fraction in units of `2 ^ e`. -/
def scaled (num den : Nat) (e : Int) : Nat × Nat :=
  if 0 ≤ e then (num, den * Nat.pow 2 e.toNat) else (num * Nat.pow 2 (-e).toNat, den)

/-- The exponent that gives the quotient a mantissa of 53 bits, or the least exponent. -/
def exponentFor (num den : Nat) : Int :=
  let guess : Int := (num.log2 : Int) - (den.log2 : Int) - 52
  let (n, d) := scaled num den guess
  let e := if n / d < Nat.pow 2 52 then guess - 1 else guess
  max e minExponent

/-- The double nearest to `± num / den`, ties to an even mantissa. -/
def ofRatio (negative : Bool) (num den : Nat) : Binary64 :=
  if num = 0 then finite negative 0 minExponent
  else
    let e := exponentFor num den
    let (n, d) := scaled num den e
    let m := roundDiv n d
    let (m, e) := if m = Nat.pow 2 53 then (Nat.pow 2 52, e + 1) else (m, e)
    if e > maxExponent then infinite negative else finite negative m e

/-- The double nearest to `± digits · 10 ^ exponent`. Exponents far out of range are cut off before
any power is computed. -/
def ofDecimal (negative : Bool) (digits : Nat) (exponent : Int) : Binary64 :=
  let places : Int := (digits.log2 : Int) / 3 + 1
  if digits = 0 then finite negative 0 minExponent
  else if exponent > 400 then infinite negative
  else if exponent + places < -400 then finite negative 0 minExponent
  else if 0 ≤ exponent then ofRatio negative (digits * Nat.pow 10 exponent.toNat) 1
  else ofRatio negative digits (Nat.pow 10 (-exponent).toNat)

/-- Whether two doubles are equal as numbers: zeros are equal whatever their signs, and a number
that is no number equals nothing. -/
def sameNumber : Binary64 → Binary64 → Bool
  | nan, _ => false
  | _, nan => false
  | infinite s, infinite t => s = t
  | finite s m e, finite t n f => (m = 0 && n = 0) || (s = t && m = n && e = f)
  | _, _ => false

/-- The integer that a double is, if it is one. -/
def toInt? : Binary64 → Option Int
  | finite negative m e =>
    let magnitude? : Option Nat :=
      if 0 ≤ e then some (m * Nat.pow 2 e.toNat)
      else if m % Nat.pow 2 (-e).toNat = 0 then some (m / Nat.pow 2 (-e).toNat)
      else none
    magnitude?.map fun (n : Nat) => if negative then -(n : Int) else n
  | _ => none

/-! ## Shortest decimals -/

/-- The value of a decimal `digits · 10 ^ exponent` as a fraction. -/
def decimalRatio (digits : Nat) (exponent : Int) : Nat × Nat :=
  if 0 ≤ exponent then (digits * Nat.pow 10 exponent.toNat, 1)
  else (digits, Nat.pow 10 (-exponent).toNat)

/-- The number of decimal digits before the point of `num / den`, at least for values above
`10 ^ -400`: the least `k` with `num / den < 10 ^ k`. -/
def decimalMagnitude (num den : Nat) : Int :=
  let guess : Int := ((num.log2 : Int) - (den.log2 : Int)) * 30103 / 100000
  let fits (k : Int) : Bool :=
    let (n, d) := decimalRatio 1 k
    num * d < n * den
  if fits (guess - 1) then guess - 1
  else if fits guess then guess
  else if fits (guess + 1) then guess + 1
  else guess + 2

/-- The absolute difference of two fractions, as a fraction. -/
def distance (a b : Nat × Nat) : Nat × Nat :=
  let x := a.1 * b.2
  let y := b.1 * a.2
  (if x < y then y - x else x - y, a.2 * b.2)

/-- Whether the first fraction is smaller than the second. -/
def fractionLt (a b : Nat × Nat) : Bool :=
  a.1 * b.2 < b.1 * a.2

/-- The decimal of the given number of digits that reads back as the number: of the two neighbours
of the number on that grid the one that does, and of two the nearer, the even one in a tie. -/
def decimalWith? (m : Nat) (e : Int) (places : Nat) : Option (Nat × Int) :=
  let value := if 0 ≤ e then (m * Nat.pow 2 e.toNat, 1) else (m, Nat.pow 2 (-e).toNat)
  let exponent := decimalMagnitude value.1 value.2 - places
  let (n, d) :=
    if 0 ≤ exponent then (value.1, value.2 * Nat.pow 10 exponent.toNat)
    else (value.1 * Nat.pow 10 (-exponent).toNat, value.2)
  let low := n / d
  let readsBack (digits : Nat) : Bool :=
    let (a, b) := decimalRatio digits exponent
    decide (ofRatio false a b = finite false m e)
  let candidates := [low, low + 1].filter readsBack
  match candidates with
  | [] => none
  | [digits] => some (digits, exponent)
  | a :: b :: _ =>
    let da := distance (decimalRatio a exponent) value
    let db := distance (decimalRatio b exponent) value
    if fractionLt da db then some (a, exponent)
    else if fractionLt db da then some (b, exponent)
    else if a % 2 = 0 then some (a, exponent) else some (b, exponent)

/-- The decimal with the fewest digits that reads back as the number, at most seventeen. -/
def shortest (m : Nat) (e : Int) : Nat × Int :=
  (((List.range 17).map (· + 1)).findSome? (decimalWith? m e)).getD (m, e)

/-- A decimal without trailing zeros in its digits. -/
def dropZeros : Nat → Nat × Int → Nat × Int
  | 0, d => d
  | fuel + 1, (digits, exponent) =>
    if digits ≠ 0 && digits % 10 = 0 then dropZeros fuel (digits / 10, exponent + 1)
    else (digits, exponent)

/-! ## Text -/

/-- From sixteen digits before the point on, and below one ten-thousandth, a number is written with
an exponent of at least two digits; all others are positional and show a fraction. -/
def positional (point : Int) : Bool :=
  -4 < point && point ≤ 16

/-- The text of a number with the given digits and the point after the first `point` of them. -/
def writeDigits (digits : List Char) (point : Int) : List Char :=
  if positional point then
    if point ≤ 0 then "0.".toList ++ List.replicate (-point).toNat '0' ++ digits
    else if digits.length ≤ point.toNat then
      digits ++ List.replicate (point.toNat - digits.length) '0' ++ ".0".toList
    else digits.take point.toNat ++ '.' :: digits.drop point.toNat
  else
    let exponent := point - 1
    let shown := (Nat.toDigits 10 exponent.natAbs)
    let padded := if shown.length < 2 then '0' :: shown else shown
    let fraction :=
      match digits with
      | d :: [] => [d]
      | d :: ds => d :: '.' :: ds
      | [] => []
    fraction ++ 'e' :: (if exponent < 0 then '-' else '+') :: padded

/-- The text of a double: the fewest digits that read back. -/
def text : Binary64 → String
  | nan => "nan"
  | infinite negative => if negative then "-inf" else "inf"
  | finite negative m e =>
    let body :=
      if m = 0 then "0.0".toList
      else
        let (digits, exponent) := dropZeros 20 (shortest m e)
        let shown := Nat.toDigits 10 digits
        writeDigits shown (shown.length + exponent)
    String.ofList (if negative then '-' :: body else body)

/-! ## Reading -/

/-- The number that ASCII digits spell, with single underscores allowed between them. -/
def digitRun? (cs : List Char) : Option (List Char) :=
  let rec go : Bool → List Char → Option (List Char)
    | last, [] => if last then some [] else none
    | last, c :: rest =>
      if c.isDigit then (go true rest).map (c :: ·)
      else if c = '_' && last then go false rest
      else none
  match cs with
  | [] => some []
  | _ => go false cs

/-- The number that a list of ASCII digits spells. -/
def digitsValue (cs : List Char) : Nat :=
  cs.foldl (fun n c => 10 * n + (c.toNat - 48)) 0

/-- The value of an exponent with an optional sign; `none` when it is no number. -/
def exponentValue? (cs : List Char) : Option Int :=
  let read (ds : List Char) : Option Nat :=
    match digitRun? ds with
    | some (d :: rest) => some (digitsValue (d :: rest))
    | _ => none
  match cs with
  | '-' :: ds => (read ds).map fun n => -(n : Int)
  | '+' :: ds => (read ds).map Int.ofNat
  | ds => (read ds).map Int.ofNat

/-- Reads an unsigned decimal number: digits with an optional point and exponent. -/
def readUnsigned? (negative : Bool) (cs : List Char) : Option Binary64 := do
  let isExponentMark (c : Char) : Bool := c = 'e' || c = 'E'
  let mantissa := cs.takeWhile fun c => !isExponentMark c
  let exponent ←
    match cs.dropWhile fun c => !isExponentMark c with
    | [] => some 0
    | _ :: rest => exponentValue? rest
  let whole := mantissa.takeWhile (· ≠ '.')
  let fraction := (mantissa.dropWhile (· ≠ '.')).drop 1
  let whole ← digitRun? whole
  let fraction ← digitRun? fraction
  if whole.isEmpty && fraction.isEmpty then none
  else some (ofDecimal negative (digitsValue (whole ++ fraction)) (exponent - fraction.length))

/-- Reads a number from text: blanks around it, a sign, and a decimal or one of the words for
infinity and for no number, in any case. -/
def read? (s : String) : Option Binary64 :=
  let unsigned (negative : Bool) (cs : List Char) : Option Binary64 :=
    let word := String.ofList (cs.map Char.toLower)
    if word = "inf" || word = "infinity" then some (infinite negative)
    else if word = "nan" then some nan
    else readUnsigned? negative cs
  match (Text.trim s).toList with
  | '-' :: cs => unsigned true cs
  | '+' :: cs => unsigned false cs
  | cs => unsigned false cs

end Binary64

end EntryLint
