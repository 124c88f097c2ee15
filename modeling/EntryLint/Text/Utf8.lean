import EntryLint.Text.Segments

/-!
# UTF-8

Texts are encoded character by character, and bytes are decoded one at a time. A sequence is refused
at the first byte that cannot continue it, and the error names the bytes that were a valid start.
`decode` stops there; `decodeLossy` drops the refused bytes and goes on.
-/

namespace EntryLint.Text

/-- The bytes of a text. -/
def encode (s : String) : List UInt8 :=
  s.toList.flatMap String.utf8EncodeChar

/-- Why bytes are no text. -/
inductive DecodeCause where
  | invalidStart
  | invalidContinuation
  | unexpectedEnd
  deriving DecidableEq, Repr

namespace DecodeCause

/-- The text of a cause. -/
def text : DecodeCause → String
  | invalidStart => "invalid start byte"
  | invalidContinuation => "invalid continuation byte"
  | unexpectedEnd => "unexpected end of data"

end DecodeCause

/-- A place where bytes are no text: the offset of the first refused byte, that byte, how many
bytes are refused, and why. -/
structure DecodeError where
  offset : Nat
  first : UInt8
  count : Nat
  cause : DecodeCause
  deriving DecidableEq, Repr

namespace DecodeError

/-- The text of a decode error. -/
def message (e : DecodeError) : String :=
  let place :=
    if e.count = 1 then
      s!"byte 0x{String.ofList (byteDigits e.first)} in position {e.offset}"
    else s!"bytes in position {e.offset}-{e.offset + e.count - 1}"
  "'utf-8' codec can't decode " ++ place ++ ": " ++ e.cause.text
where
  /-- The two hexadecimal digits of a byte. -/
  byteDigits (b : UInt8) : List Char :=
    let digits := Nat.toDigits 16 b.toNat
    List.replicate (2 - digits.length) '0' ++ digits

end DecodeError

/-- An unfinished sequence: where it started, its bytes so far, how many are missing, the bounds of
the next one, and the bits collected. -/
structure PendingChar where
  offset : Nat
  first : UInt8
  seen : Nat
  missing : Nat
  low : Nat
  high : Nat
  bits : Nat
  deriving DecidableEq, Repr

/-- What a byte between characters is. -/
inductive LeadByte where
  | single (c : Char)
  | multi (missing low high bits : Nat)
  | invalid

/-- Reads a byte between characters. The bounds of the second byte rule out overlong forms,
surrogates and numbers beyond the last code point. -/
def leadByte (b : UInt8) : LeadByte :=
  let n := b.toNat
  if n < 0x80 then .single (Char.ofNat n)
  else if n < 0xc2 then .invalid
  else if n < 0xe0 then .multi 1 0x80 0xbf (n - 0xc0)
  else if n = 0xe0 then .multi 2 0xa0 0xbf 0
  else if n = 0xed then .multi 2 0x80 0x9f 0xd
  else if n < 0xf0 then .multi 2 0x80 0xbf (n - 0xe0)
  else if n = 0xf0 then .multi 3 0x90 0xbf 0
  else if n = 0xf4 then .multi 3 0x80 0x8f 4
  else if n < 0xf4 then .multi 3 0x80 0xbf (n - 0xf0)
  else .invalid

/-- The refusal of an unfinished sequence. -/
def PendingChar.refuse (p : PendingChar) (cause : DecodeCause) : DecodeError :=
  { offset := p.offset, first := p.first, count := p.seen, cause }

/-- One step of decoding: the characters and refusals that a byte completes, and the unfinished
sequence after it. -/
def decodeByte (offset : Nat) (pending : Option PendingChar) (b : UInt8) :
    List (Except DecodeError Char) × Option PendingChar :=
  let start : List (Except DecodeError Char) × Option PendingChar :=
    match leadByte b with
    | .single c => ([.ok c], none)
    | .multi missing low high bits =>
      ([], some { offset, first := b, seen := 1, missing, low, high, bits })
    | .invalid => ([.error { offset, first := b, count := 1, cause := .invalidStart }], none)
  match pending with
  | none => start
  | some p =>
    if p.low ≤ b.toNat && b.toNat ≤ p.high then
      let bits := p.bits * 64 + (b.toNat - 0x80)
      if p.missing = 1 then ([.ok (Char.ofNat bits)], none)
      else
        ([], some
          { p with seen := p.seen + 1, missing := p.missing - 1, low := 0x80, high := 0xbf, bits })
    else (.error (p.refuse .invalidContinuation) :: start.1, start.2)

/-- The characters and refusals of bytes, in order, put before the ones collected so far in reverse
order. -/
def decodeFrom : Nat → Option PendingChar → List (Except DecodeError Char) → List UInt8 →
    List (Except DecodeError Char)
  | _, none, done, [] => done.reverse
  | _, some p, done, [] => (.error (p.refuse .unexpectedEnd) :: done).reverse
  | offset, pending, done, b :: bs =>
    let (out, next) := decodeByte offset pending b
    decodeFrom (offset + 1) next (out.reverse ++ done) bs

/-- The text of bytes, or the first place where they are no text. -/
def decode (bytes : List UInt8) : Except DecodeError String :=
  match (decodeFrom 0 none [] bytes).mapM id with
  | .ok cs => .ok (String.ofList cs)
  | .error e => .error e

/-- The text of bytes without the parts that are no text. -/
def decodeLossy (bytes : List UInt8) : String :=
  String.ofList ((decodeFrom 0 none [] bytes).filterMap Except.toOption)

end EntryLint.Text
