import EntryLint.Text.Utf8
import Mathlib.Tactic.Common

/-!
# Decoding is inverse to encoding

`decode` reads bytes one at a time. It gives a text exactly when the bytes are the UTF-8 encoding of
that text (`decode_eq_ok_iff`).

Encoded characters are read as they were written: `exists_decodeFrom_char` follows the bytes of one
character. For the other direction `Expects` says which bytes an unfinished sequence waits for:
whatever it accepts completes the encoding of a character. One byte keeps this up
(`decodeByte_spec`), and so do all bytes of a run (`decodeFrom_sound`).

Of bytes that end inside a character `decodeLossy` keeps the characters before it
(`decodeLossy_append_cutShort`): what has been read of the last one would have gone on to be that
character, and so it is neither a character yet nor refused before the end.
-/

namespace EntryLint.Text

open String (utf8EncodeChar)

/-! ## Encoded characters -/

lemma toNat_ofNat {n : Nat} (h : n < 256) : (UInt8.ofNat n).toNat = n :=
  UInt8.toNat_ofNat_of_lt' h

lemma val_ofNat {n : Nat} (h : n.isValidChar) : (Char.ofNat n).val.toNat = n := by
  rw [Char.ofNat, dif_pos h]
  rfl

lemma eq_ofNat {b : UInt8} {n : Nat} (h : b.toNat = n) : UInt8.ofNat n = b := by
  rw [← h, UInt8.ofNat_toNat]

lemma utf8EncodeChar_one {n : Nat} {b : UInt8} (h : b.toNat = n) (hhigh : n < 0x80) :
    utf8EncodeChar (Char.ofNat n) = [b] := by
  have hval : (Char.ofNat n).val.toNat = n := val_ofNat (.inl (by omega))
  unfold utf8EncodeChar
  simp only [hval]
  rw [if_pos (by omega), eq_ofNat h]

lemma utf8EncodeChar_two {n : Nat} {b t : UInt8} (hlow : 0x80 ≤ n) (hhigh : n < 0x800)
    (hb : b.toNat = n / 64 + 0xc0) (ht : t.toNat = n % 64 + 0x80) :
    utf8EncodeChar (Char.ofNat n) = [b, t] := by
  have hval : (Char.ofNat n).val.toNat = n := val_ofNat (.inl (by omega))
  unfold utf8EncodeChar
  simp only [hval]
  rw [if_neg (by omega), if_pos (by omega), Nat.mod_eq_of_lt (by omega), eq_ofNat hb, eq_ofNat ht]

lemma utf8EncodeChar_three {n : Nat} {b t u : UInt8} (hvalid : n.isValidChar) (hlow : 0x800 ≤ n)
    (hhigh : n < 0x10000) (hb : b.toNat = n / 4096 + 0xe0) (ht : t.toNat = n / 64 % 64 + 0x80)
    (hu : u.toNat = n % 64 + 0x80) :
    utf8EncodeChar (Char.ofNat n) = [b, t, u] := by
  have hval : (Char.ofNat n).val.toNat = n := val_ofNat hvalid
  unfold utf8EncodeChar
  simp only [hval]
  rw [if_neg (by omega), if_neg (by omega), if_pos (by omega), Nat.mod_eq_of_lt (by omega),
    eq_ofNat hb, eq_ofNat ht, eq_ofNat hu]

lemma utf8EncodeChar_four {n : Nat} {b t u w : UInt8} (hlow : 0x10000 ≤ n) (hhigh : n < 0x110000)
    (hb : b.toNat = n / 262144 + 0xf0) (ht : t.toNat = n / 4096 % 64 + 0x80)
    (hu : u.toNat = n / 64 % 64 + 0x80) (hw : w.toNat = n % 64 + 0x80) :
    utf8EncodeChar (Char.ofNat n) = [b, t, u, w] := by
  have hval : (Char.ofNat n).val.toNat = n := val_ofNat (.inr ⟨by omega, hhigh⟩)
  unfold utf8EncodeChar
  simp only [hval]
  rw [if_neg (by omega), if_neg (by omega), if_neg (by omega), Nat.mod_eq_of_lt (by omega),
    eq_ofNat hb, eq_ofNat ht, eq_ofNat hu, eq_ofNat hw]

/-! ## From bytes to characters -/

/-- The unfinished sequence `seen` waits for so many bytes, the next of them between bounds:
whatever these are, together they encode the character with the bits collected. -/
def Expects : Nat → Nat → Nat → Nat → List UInt8 → Prop
  | 0, _, _, _, _ => False
  | 1, low, high, bits, seen => ∀ b : UInt8, low ≤ b.toNat → b.toNat ≤ high →
      utf8EncodeChar (Char.ofNat (bits * 64 + (b.toNat - 0x80))) = seen ++ [b]
  | missing + 2, low, high, bits, seen => ∀ b : UInt8, low ≤ b.toNat → b.toNat ≤ high →
      Expects (missing + 1) 0x80 0xbf (bits * 64 + (b.toNat - 0x80)) (seen ++ [b])

lemma expects_one {b : UInt8} (hlow : 0xc2 ≤ b.toNat) (hhigh : b.toNat < 0xe0) :
    Expects 1 0x80 0xbf (b.toNat - 0xc0) [b] := by
  intro t hl hh
  exact utf8EncodeChar_two (by omega) (by omega) (by omega) (by omega)

/-- Three bytes: the bounds of the second keep out overlong forms and surrogates. -/
lemma expects_two {b : UInt8} {low high bits : Nat} (hlow : 0xe0 ≤ b.toNat) (hhigh : b.toNat < 0xf0)
    (hl : 0x80 ≤ low) (hh : high ≤ 0xbf) (hoverlong : b.toNat = 0xe0 → 0xa0 ≤ low)
    (hsurrogate : b.toNat = 0xed → high ≤ 0x9f) (hbits : bits = b.toNat - 0xe0) :
    Expects 2 low high bits [b] := by
  intro t htl hth u hul huh
  apply utf8EncodeChar_three
  · by_cases hb : b.toNat < 0xee
    · exact .inl (by omega)
    · exact .inr ⟨by omega, by omega⟩
  all_goals omega

/-- Four bytes: the bounds of the second keep out overlong forms and what is no code point. -/
lemma expects_three {b : UInt8} {low high bits : Nat} (hlow : 0xf0 ≤ b.toNat)
    (hhigh : b.toNat < 0xf5) (hl : 0x80 ≤ low) (hh : high ≤ 0xbf)
    (hoverlong : b.toNat = 0xf0 → 0x90 ≤ low) (hlast : b.toNat = 0xf4 → high ≤ 0x8f)
    (hbits : bits = b.toNat - 0xf0) :
    Expects 3 low high bits [b] := by
  intro t htl hth u hul huh w hwl hwh
  apply utf8EncodeChar_four
  all_goals omega

/-- What a byte that opens a sequence tells: the number of bytes still missing, the bounds of the
next and its own bits, by the range that it is in. -/
lemma multi_cases {b : UInt8} {missing low high bits : Nat}
    (h : leadByte b = .multi missing low high bits) :
    (0xc2 ≤ b.toNat ∧ b.toNat < 0xe0 ∧ missing = 1 ∧ low = 0x80 ∧ high = 0xbf ∧
      bits = b.toNat - 0xc0) ∨
    (0xe0 ≤ b.toNat ∧ b.toNat < 0xf0 ∧ missing = 2 ∧ 0x80 ≤ low ∧ high ≤ 0xbf ∧
      bits = b.toNat - 0xe0 ∧ (b.toNat = 0xe0 → 0xa0 ≤ low) ∧ (b.toNat = 0xed → high ≤ 0x9f)) ∨
    (0xf0 ≤ b.toNat ∧ b.toNat < 0xf5 ∧ missing = 3 ∧ 0x80 ≤ low ∧ high ≤ 0xbf ∧
      bits = b.toNat - 0xf0 ∧ (b.toNat = 0xf0 → 0x90 ≤ low) ∧ (b.toNat = 0xf4 → high ≤ 0x8f)) := by
  unfold leadByte at h
  grind

/-- A byte that opens a sequence of several has the rest of the sequence to expect. -/
lemma expects_of_leadByte {b : UInt8} {missing low high bits : Nat}
    (h : leadByte b = .multi missing low high bits) : Expects missing low high bits [b] := by
  rcases multi_cases h with ⟨hlow, hhigh, rfl, rfl, rfl, hbits⟩ |
    ⟨hlow, hhigh, rfl, hl, hh, hbits, hoverlong, hsurrogate⟩ |
    ⟨hlow, hhigh, rfl, hl, hh, hbits, hoverlong, hlast⟩
  · rw [hbits]
    exact expects_one hlow hhigh
  · exact expects_two hlow hhigh hl hh hoverlong hsurrogate hbits
  · exact expects_three hlow hhigh hl hh hoverlong hlast hbits

lemma leadByte_one {b : UInt8} (h : b.toNat < 0x80) : leadByte b = .single (Char.ofNat b.toNat) :=
  if_pos h

lemma lt_of_leadByte {b : UInt8} {c : Char} (h : leadByte b = .single c) : b.toNat < 0x80 := by
  unfold leadByte at h
  grind

lemma utf8EncodeChar_of_leadByte {b : UInt8} {c : Char} (h : leadByte b = .single c) :
    utf8EncodeChar c = [b] := by
  have hlow := lt_of_leadByte h
  rw [leadByte_one hlow] at h
  obtain rfl := LeadByte.single.inj h
  exact utf8EncodeChar_one rfl (by omega)

/-! ## Runs -/

/-- The bytes of an unfinished sequence, if there is one, and what they wait for. -/
def Waits : Option PendingChar → List UInt8 → Prop
  | none, seen => seen = []
  | some p, seen => Expects p.missing p.low p.high p.bits seen

/-- A byte between characters is refused, opens a sequence or is a character. -/
lemma decodeByte_start (offset : Nat) (b : UInt8) :
    (∃ e, decodeByte offset none b = ([.error e], none)) ∨
      (∃ p, decodeByte offset none b = ([], some p) ∧ Waits (some p) [b]) ∨
      ∃ c, decodeByte offset none b = ([.ok c], none) ∧ utf8EncodeChar c = [b] := by
  unfold decodeByte
  cases hlead : leadByte b with
  | single c => exact .inr (.inr ⟨c, rfl, utf8EncodeChar_of_leadByte hlead⟩)
  | multi missing low high bits => exact .inr (.inl ⟨_, rfl, expects_of_leadByte hlead⟩)
  | invalid => exact .inl ⟨_, rfl⟩

/-- A byte is refused, leaves the sequence unfinished or completes a character. -/
lemma decodeByte_spec (offset : Nat) {pending : Option PendingChar} {seen : List UInt8} (b : UInt8)
    (h : Waits pending seen) :
    (∃ e out next, decodeByte offset pending b = (.error e :: out, next)) ∨
      (∃ next, decodeByte offset pending b = ([], next) ∧ Waits next (seen ++ [b])) ∨
      ∃ c, decodeByte offset pending b = ([.ok c], none) ∧ utf8EncodeChar c = seen ++ [b] := by
  cases pending with
  | none =>
    obtain rfl : seen = [] := h
    rcases decodeByte_start offset b with ⟨e, heq⟩ | ⟨p, heq, hp⟩ | ⟨c, heq, hc⟩
    · exact .inl ⟨e, [], none, heq⟩
    · exact .inr (.inl ⟨some p, heq, hp⟩)
    · exact .inr (.inr ⟨c, heq, hc⟩)
  | some p =>
    unfold decodeByte
    simp only
    split
    · rename_i hbounds
      obtain ⟨hl, hh⟩ : p.low ≤ b.toNat ∧ b.toNat ≤ p.high := by simpa using hbounds
      have hexpects : Expects p.missing p.low p.high p.bits seen := h
      match hm : p.missing with
      | 0 =>
        rw [hm] at hexpects
        exact hexpects.elim
      | 1 =>
        rw [hm] at hexpects
        exact .inr (.inr ⟨_, rfl, hexpects b hl hh⟩)
      | missing + 2 =>
        rw [hm] at hexpects
        exact .inr (.inl ⟨_, rfl, hexpects b hl hh⟩)
    · exact .inl ⟨_, _, _, rfl⟩

lemma decodeFrom_cons (offset : Nat) (pending : Option PendingChar)
    (done : List (Except DecodeError Char)) (b : UInt8) (bs : List UInt8) :
    decodeFrom offset pending done (b :: bs) =
      decodeFrom (offset + 1) (decodeByte offset pending b).2
        ((decodeByte offset pending b).1.reverse ++ done) bs := by
  cases pending <;> rfl

/-- What has been decoded stays. -/
lemma exists_decodeFrom (bs : List UInt8) :
    ∀ offset pending done, ∃ more, decodeFrom offset pending done bs = done.reverse ++ more := by
  induction bs with
  | nil =>
    intro offset pending done
    cases pending with
    | none => exact ⟨[], by rw [decodeFrom, List.append_nil]⟩
    | some p => exact ⟨[.error (p.refuse .unexpectedEnd)], by rw [decodeFrom, List.reverse_cons]⟩
  | cons b bs ih =>
    intro offset pending done
    rw [decodeFrom_cons]
    obtain ⟨more, hmore⟩ := ih (offset + 1) (decodeByte offset pending b).2
      ((decodeByte offset pending b).1.reverse ++ done)
    refine ⟨(decodeByte offset pending b).1 ++ more, ?_⟩
    rw [hmore, List.reverse_append, List.reverse_reverse, List.append_assoc]

/-- Bytes without a refusal are the encoding of the characters that they give. -/
lemma decodeFrom_sound (bs : List UInt8) :
    ∀ offset pending seen done (cs : List Char), Waits pending seen →
      decodeFrom offset pending done bs = done.reverse ++ cs.map .ok →
      cs.flatMap utf8EncodeChar = seen ++ bs := by
  induction bs with
  | nil =>
    intro offset pending seen done cs hwaits h
    cases pending with
    | none =>
      obtain rfl : seen = [] := hwaits
      rw [decodeFrom] at h
      have hcs : cs = [] := by simpa using h
      rw [hcs]
      rfl
    | some p =>
      rw [decodeFrom, List.reverse_cons] at h
      cases cs with
      | nil => simp at h
      | cons c cs => simp at h
  | cons b bs ih =>
    intro offset pending seen done cs hwaits h
    rw [decodeFrom_cons] at h
    rcases decodeByte_spec offset b hwaits with
      ⟨e, out, next, heq⟩ | ⟨next, heq, hnext⟩ | ⟨c, heq, hc⟩
    · -- a refusal would stay
      rw [heq] at h
      obtain ⟨more, hmore⟩ := exists_decodeFrom bs (offset + 1) next
        ((.error e :: out).reverse ++ done)
      rw [hmore] at h
      cases cs with
      | nil => simp at h
      | cons c cs => simp at h
    · -- the sequence goes on
      rw [heq] at h
      have hrest := ih _ next (seen ++ [b]) done cs hnext h
      rw [hrest, List.append_assoc]
      rfl
    · -- a character is complete: it is the next one, and the rest starts afresh
      rw [heq] at h
      obtain ⟨more, hmore⟩ := exists_decodeFrom bs (offset + 1) none ([.ok c].reverse ++ done)
      cases cs with
      | nil =>
        rw [hmore] at h
        simp at h
      | cons c' cs =>
        obtain ⟨rfl, hcs⟩ : c = c' ∧ more = cs.map .ok := by
          rw [hmore] at h
          simpa using h
        have hrest := ih _ none [] _ cs rfl (hmore.trans (by rw [hcs]))
        rw [List.flatMap_cons, hc, hrest, List.nil_append, List.append_assoc]
        rfl

/-! ## From characters to bytes -/

/-- A byte between bounds continues a sequence that waits for more than one. -/
lemma decodeFrom_continue (offset : Nat) (p : PendingChar) (done : List (Except DecodeError Char))
    {b : UInt8} (bs : List UInt8) (hlow : p.low ≤ b.toNat) (hhigh : b.toNat ≤ p.high)
    (hmissing : p.missing ≠ 1) :
    decodeFrom offset (some p) done (b :: bs) =
      decodeFrom (offset + 1)
        (some { p with
          seen := p.seen + 1, missing := p.missing - 1, low := 0x80, high := 0xbf,
          bits := p.bits * 64 + (b.toNat - 0x80) }) done bs := by
  rw [decodeFrom_cons]
  simp [decodeByte, hlow, hhigh, hmissing]

/-- A byte between bounds ends a sequence that waits for one. -/
lemma decodeFrom_finish (offset : Nat) (p : PendingChar) (done : List (Except DecodeError Char))
    {b : UInt8} (bs : List UInt8) (hlow : p.low ≤ b.toNat) (hhigh : b.toNat ≤ p.high)
    (hmissing : p.missing = 1) :
    decodeFrom offset (some p) done (b :: bs) =
      decodeFrom (offset + 1) none
        (.ok (Char.ofNat (p.bits * 64 + (b.toNat - 0x80))) :: done) bs := by
  rw [decodeFrom_cons]
  simp [decodeByte, hlow, hhigh, hmissing]

lemma decodeFrom_multi (offset : Nat) (done : List (Except DecodeError Char)) {b : UInt8}
    (bs : List UInt8) {missing low high bits : Nat}
    (h : leadByte b = .multi missing low high bits) :
    decodeFrom offset none done (b :: bs) =
      decodeFrom (offset + 1)
        (some { offset, first := b, seen := 1, missing, low, high, bits }) done
        bs := by
  rw [decodeFrom_cons]
  simp [decodeByte, h]

lemma leadByte_two {b : UInt8} (hlow : 0xc2 ≤ b.toNat) (hhigh : b.toNat < 0xe0) :
    leadByte b = .multi 1 0x80 0xbf (b.toNat - 0xc0) := by
  unfold leadByte
  simp only
  rw [if_neg (by omega), if_neg (by omega), if_pos (by omega)]

/-- The bounds after the first of three bytes let the second byte of every character pass. -/
lemma exists_leadByte_three {b : UInt8} {n : Nat} (hvalid : n.isValidChar) (hlow : 0x800 ≤ n)
    (hhigh : n < 0x10000) (hb : b.toNat = n / 4096 + 0xe0) :
    ∃ low high, leadByte b = .multi 2 low high (n / 4096) ∧
      low ≤ n / 64 % 64 + 0x80 ∧ n / 64 % 64 + 0x80 ≤ high := by
  have hsurrogate : n < 0xd800 ∨ 0xdfff < n := by
    rcases hvalid with h | h
    · exact .inl h
    · exact .inr h.1
  unfold leadByte
  simp only [hb]
  rw [if_neg (by omega), if_neg (by omega), if_neg (by omega)]
  split
  · exact ⟨_, _, by rw [show n / 4096 = 0 by omega], by omega, by omega⟩
  split
  · exact ⟨_, _, by rw [show n / 4096 = 0xd by omega], by omega, by omega⟩
  · rw [if_pos (by omega)]
    exact ⟨_, _, by rw [Nat.add_sub_cancel], by omega, by omega⟩

/-- The bounds after the first of four bytes let the second byte of every character pass. -/
lemma exists_leadByte_four {b : UInt8} {n : Nat} (hlow : 0x10000 ≤ n) (hhigh : n < 0x110000)
    (hb : b.toNat = n / 262144 + 0xf0) :
    ∃ low high, leadByte b = .multi 3 low high (n / 262144) ∧
      low ≤ n / 4096 % 64 + 0x80 ∧ n / 4096 % 64 + 0x80 ≤ high := by
  unfold leadByte
  simp only [hb]
  rw [if_neg (by omega), if_neg (by omega), if_neg (by omega), if_neg (by omega),
    if_neg (by omega), if_neg (by omega)]
  split
  · exact ⟨_, _, by rw [show n / 262144 = 0 by omega], by omega, by omega⟩
  split
  · exact ⟨_, _, by rw [show n / 262144 = 4 by omega], by omega, by omega⟩
  · rw [if_pos (by omega)]
    exact ⟨_, _, by rw [Nat.add_sub_cancel], by omega, by omega⟩

section Char

variable (offset : Nat) (done : List (Except DecodeError Char)) (rest : List UInt8) {n : Nat}

lemma toNat_continuation (m : Nat) : (UInt8.ofNat (m % 64 + 0x80)).toNat = m % 64 + 0x80 :=
  toNat_ofNat (by omega)

lemma decodeFrom_one (h : n < 0x80) :
    decodeFrom offset none done (utf8EncodeChar (Char.ofNat n) ++ rest) =
      decodeFrom (offset + 1) none (.ok (Char.ofNat n) :: done) rest := by
  have hb : (UInt8.ofNat n).toNat = n := toNat_ofNat (by omega)
  have hlead : leadByte (UInt8.ofNat n) = .single (Char.ofNat n) := by
    rw [leadByte_one (by omega), hb]
  rw [utf8EncodeChar_one hb h, List.singleton_append, decodeFrom_cons]
  simp [decodeByte, hlead]

lemma decodeFrom_two (hlow : 0x80 ≤ n) (hhigh : n < 0x800) :
    decodeFrom offset none done (utf8EncodeChar (Char.ofNat n) ++ rest) =
      decodeFrom (offset + 2) none (.ok (Char.ofNat n) :: done) rest := by
  have hb : (UInt8.ofNat (n / 64 + 0xc0)).toNat = n / 64 + 0xc0 := toNat_ofNat (by omega)
  have hu := toNat_continuation n
  have hlead : leadByte (UInt8.ofNat (n / 64 + 0xc0)) = .multi 1 0x80 0xbf (n / 64) := by
    rw [leadByte_two (by omega) (by omega), hb, Nat.add_sub_cancel]
  have hbits : n / 64 * 64 + (n % 64 + 0x80 - 0x80) = n := by omega
  rw [utf8EncodeChar_two hlow hhigh hb hu]
  show decodeFrom offset none done (_ :: _ :: rest) = _
  rw [decodeFrom_multi offset done _ hlead,
    decodeFrom_finish _ _ done rest (by simp only; omega) (by simp only; omega) rfl]
  simp only [hu, hbits]

lemma decodeFrom_three (hvalid : n.isValidChar) (hlow : 0x800 ≤ n) (hhigh : n < 0x10000) :
    decodeFrom offset none done (utf8EncodeChar (Char.ofNat n) ++ rest) =
      decodeFrom (offset + 3) none (.ok (Char.ofNat n) :: done) rest := by
  have hb : (UInt8.ofNat (n / 4096 + 0xe0)).toNat = n / 4096 + 0xe0 := toNat_ofNat (by omega)
  have ht := toNat_continuation (n / 64)
  have hu := toNat_continuation n
  obtain ⟨low, high, hlead, hl, hh⟩ := exists_leadByte_three hvalid hlow hhigh hb
  have hbits : (n / 4096 * 64 + (n / 64 % 64 + 0x80 - 0x80)) * 64 + (n % 64 + 0x80 - 0x80) = n := by
    omega
  rw [utf8EncodeChar_three hvalid hlow hhigh hb ht hu]
  show decodeFrom offset none done (_ :: _ :: _ :: rest) = _
  rw [decodeFrom_multi offset done _ hlead,
    decodeFrom_continue _ _ done _ (by rw [ht]; exact hl) (by rw [ht]; exact hh) (by simp),
    decodeFrom_finish _ _ done rest (by simp only; omega) (by simp only; omega) rfl]
  simp only [ht, hu, hbits]

lemma decodeFrom_four (hlow : 0x10000 ≤ n) (hhigh : n < 0x110000) :
    decodeFrom offset none done (utf8EncodeChar (Char.ofNat n) ++ rest) =
      decodeFrom (offset + 4) none (.ok (Char.ofNat n) :: done) rest := by
  have hb : (UInt8.ofNat (n / 262144 + 0xf0)).toNat = n / 262144 + 0xf0 := toNat_ofNat (by omega)
  have hs := toNat_continuation (n / 4096)
  have ht := toNat_continuation (n / 64)
  have hu := toNat_continuation n
  obtain ⟨low, high, hlead, hl, hh⟩ := exists_leadByte_four hlow hhigh hb
  have hbits : ((n / 262144 * 64 + (n / 4096 % 64 + 0x80 - 0x80)) * 64 +
      (n / 64 % 64 + 0x80 - 0x80)) * 64 + (n % 64 + 0x80 - 0x80) = n := by omega
  rw [utf8EncodeChar_four hlow hhigh hb hs ht hu]
  show decodeFrom offset none done (_ :: _ :: _ :: _ :: rest) = _
  rw [decodeFrom_multi offset done _ hlead,
    decodeFrom_continue _ _ done _ (by rw [hs]; exact hl) (by rw [hs]; exact hh) (by simp),
    decodeFrom_continue _ _ done _ (by simp only; omega) (by simp only; omega) (by simp),
    decodeFrom_finish _ _ done rest (by simp only; omega) (by simp only; omega) rfl]
  simp only [hs, ht, hu, hbits]

/-- The bytes of a character are read as that character. -/
lemma exists_decodeFrom_char (c : Char) :
    ∃ offset', decodeFrom offset none done (utf8EncodeChar c ++ rest) =
      decodeFrom offset' none (.ok c :: done) rest := by
  obtain ⟨n, hvalid, rfl⟩ : ∃ n : Nat, n.isValidChar ∧ c = Char.ofNat n :=
    ⟨c.toNat, c.valid, (Char.ofNat_toNat c).symm⟩
  have hmax : n < 0x110000 := by
    rcases hvalid with h | h <;> omega
  by_cases h₁ : n < 0x80
  · exact ⟨_, decodeFrom_one offset done rest h₁⟩
  by_cases h₂ : n < 0x800
  · exact ⟨_, decodeFrom_two offset done rest (by omega) h₂⟩
  by_cases h₃ : n < 0x10000
  · exact ⟨_, decodeFrom_three offset done rest hvalid (by omega) h₃⟩
  · exact ⟨_, decodeFrom_four offset done rest (by omega) hmax⟩

end Char

lemma exists_decodeFrom_chars (cs : List Char) (rest : List UInt8) :
    ∀ offset done, ∃ offset', decodeFrom offset none done (cs.flatMap utf8EncodeChar ++ rest) =
      decodeFrom offset' none ((cs.map .ok).reverse ++ done) rest := by
  induction cs with
  | nil => exact fun offset done => ⟨offset, rfl⟩
  | cons c cs ih =>
    intro offset done
    obtain ⟨offset₁, h₁⟩ := exists_decodeFrom_char offset done (cs.flatMap utf8EncodeChar ++ rest) c
    obtain ⟨offset₂, h₂⟩ := ih offset₁ (.ok c :: done)
    refine ⟨offset₂, ?_⟩
    rw [List.flatMap_cons, List.append_assoc, h₁, h₂, List.map_cons, List.reverse_cons,
      List.append_assoc]
    rfl

/-! ## Texts -/

lemma decodeFrom_eq_ok_iff {bytes : List UInt8} {cs : List Char} :
    decodeFrom 0 none [] bytes = cs.map .ok ↔ cs.flatMap utf8EncodeChar = bytes := by
  constructor
  · intro h
    exact decodeFrom_sound bytes 0 none [] [] cs rfl h
  · rintro rfl
    obtain ⟨offset, h⟩ := exists_decodeFrom_chars cs [] 0 []
    rw [List.append_nil] at h
    rw [h, List.append_nil, decodeFrom, List.reverse_reverse]

lemma mapM_id_eq_ok_iff {ε α : Type} {xs : List (Except ε α)} {ys : List α} :
    xs.mapM id = .ok ys ↔ xs = ys.map .ok := by
  constructor
  · intro h
    induction xs generalizing ys with
    | nil =>
      obtain rfl : [] = ys := Except.ok.inj h
      rfl
    | cons x xs ih =>
      rw [List.mapM_cons] at h
      cases x with
      | error e => cases h
      | ok a =>
        cases hxs : xs.mapM id with
        | error e =>
          rw [hxs] at h
          cases h
        | ok bs =>
          rw [hxs] at h
          obtain rfl : a :: bs = ys := Except.ok.inj h
          rw [ih hxs, List.map_cons]
  · rintro rfl
    induction ys with
    | nil => rfl
    | cons y ys ih =>
      rw [List.map_cons, List.mapM_cons, ih]
      rfl

lemma toUTF8_eq_flatMap (s : String) : s.toUTF8.data.toList = s.toList.flatMap utf8EncodeChar := by
  show s.toByteArray.data.toList = _
  rw [← String.utf8Encode_toList, List.utf8Encode, List.toList_data_toByteArray]

/-- Bytes are decoded exactly when they are the encoding of a text, and give that text. -/
lemma decode_eq_ok_iff {bytes : List UInt8} {s : String} :
    decode bytes = .ok s ↔ s.toUTF8.data.toList = bytes := by
  rw [toUTF8_eq_flatMap, ← decodeFrom_eq_ok_iff, ← mapM_id_eq_ok_iff]
  unfold decode
  cases (decodeFrom 0 none [] bytes).mapM id with
  | error e => simp
  | ok cs =>
    simp only [Except.ok.injEq]
    constructor
    · rintro rfl
      exact String.toList_ofList.symm
    · rintro rfl
      exact String.ofList_toList

/-! ## Encodings that are cut short -/

/-- The start of the encoding of a character, without the last byte of it. -/
def CutShort (bytes : List UInt8) : Prop :=
  ∃ c rest, utf8EncodeChar c = bytes ++ rest ∧ rest ≠ []

lemma cutShort_nil : CutShort [] :=
  ⟨'a', utf8EncodeChar 'a', rfl, String.utf8EncodeChar_ne_nil⟩

/-- What follows some bytes does not change how they are read. -/
lemma exists_decodeFrom_append (xs : List UInt8) :
    ∀ offset pending done, ∃ offset' pending' out, ∀ ys,
      decodeFrom offset pending done (xs ++ ys) = decodeFrom offset' pending' (out ++ done) ys := by
  induction xs with
  | nil => exact fun offset pending done => ⟨offset, pending, [], fun _ => rfl⟩
  | cons x xs ih =>
    intro offset pending done
    obtain ⟨offset', pending', out, h⟩ := ih (offset + 1) (decodeByte offset pending x).2
      ((decodeByte offset pending x).1.reverse ++ done)
    refine ⟨offset', pending', out ++ (decodeByte offset pending x).1.reverse, fun ys => ?_⟩
    rw [List.cons_append, decodeFrom_cons, h, List.append_assoc]

/-- A byte after an unfinished sequence completes or refuses something, or the sequence goes on. -/
lemma decodeByte_pending (offset : Nat) (p : PendingChar) (b : UInt8) :
    (∃ x out next, decodeByte offset (some p) b = (x :: out, next)) ∨
      ∃ p', decodeByte offset (some p) b = ([], some p') := by
  unfold decodeByte
  simp only
  split
  · split
    · exact .inl ⟨_, _, _, rfl⟩
    · exact .inr ⟨_, rfl⟩
  · exact .inl ⟨_, _, _, rfl⟩

/-- An unfinished sequence ends with a character or a refusal. -/
lemma exists_decodeFrom_pending (bs : List UInt8) :
    ∀ offset p done, ∃ x more, decodeFrom offset (some p) done bs = done.reverse ++ x :: more := by
  induction bs with
  | nil => exact fun offset p done => ⟨_, [], List.reverse_cons⟩
  | cons b bs ih =>
    intro offset p done
    rw [decodeFrom_cons]
    rcases decodeByte_pending offset p b with ⟨x, out, next, heq⟩ | ⟨p', heq⟩
    · obtain ⟨more, hmore⟩ := exists_decodeFrom bs (offset + 1) next ((x :: out).reverse ++ done)
      refine ⟨x, out ++ more, ?_⟩
      rw [heq, hmore]
      simp
    · rw [heq]
      exact ih (offset + 1) p' done

/-- Nothing is read of a character that is cut short. -/
lemma filterMap_decodeFrom_cutShort (offset : Nat) (done : List (Except DecodeError Char))
    {bytes : List UInt8} (h : CutShort bytes) :
    (decodeFrom offset none done bytes).filterMap Except.toOption =
      done.reverse.filterMap Except.toOption := by
  obtain ⟨c, rest, hc, hrest⟩ := h
  obtain ⟨offset', pending, out, hout⟩ := exists_decodeFrom_append bytes offset none done
  -- with the bytes that are missing, it is just the character that is read
  obtain ⟨offset₁, hchar⟩ := exists_decodeFrom_char offset done [] c
  rw [List.append_nil, hc, hout, decodeFrom, List.reverse_cons] at hchar
  have hbytes := hout []
  rw [List.append_nil] at hbytes
  cases pending with
  | none =>
    obtain ⟨more, hmore⟩ := exists_decodeFrom rest offset' none (out ++ done)
    rw [hmore, List.reverse_append, List.append_assoc] at hchar
    have hread := List.append_cancel_left hchar
    rcases List.append_eq_singleton_iff.mp hread with ⟨hnil, -⟩ | ⟨hone, -⟩
    · rw [hbytes, List.reverse_eq_nil_iff.mp hnil]
      rfl
    · -- the character would be complete already
      have hsound := decodeFrom_sound bytes offset none [] done [c] rfl
        (by rw [hbytes, decodeFrom, List.reverse_append, hone]; rfl)
      rw [List.flatMap_singleton, hc, List.nil_append] at hsound
      exact absurd (List.append_right_eq_self.mp hsound) hrest
  | some p =>
    obtain ⟨x, more, hmore⟩ := exists_decodeFrom_pending rest offset' p (out ++ done)
    rw [hmore, List.reverse_append, List.append_assoc] at hchar
    have hread := List.append_cancel_left hchar
    have hnil : out.reverse = [] := by
      rcases List.append_eq_singleton_iff.mp hread with ⟨hnil, -⟩ | ⟨-, hcons⟩
      · exact hnil
      · cases hcons
    rw [hbytes, List.reverse_eq_nil_iff.mp hnil, decodeFrom]
    simp [Except.toOption]

/-- Without its refusals, an encoding that ends in a character cut short is read as the characters
before that one. -/
lemma decodeLossy_append_cutShort (cs : List Char) {bytes : List UInt8} (h : CutShort bytes) :
    decodeLossy (cs.flatMap utf8EncodeChar ++ bytes) = String.ofList cs := by
  obtain ⟨offset, hchars⟩ := exists_decodeFrom_chars cs bytes 0 []
  rw [decodeLossy, hchars, filterMap_decodeFrom_cutShort offset _ h, List.append_nil,
    List.reverse_reverse, List.filterMap_map]
  have hid : Except.toOption ∘ Except.ok (ε := DecodeError) = some (α := Char) := rfl
  rw [hid, List.filterMap_some]

/-! ## Line feeds -/

lemma utf8EncodeChar_newline : utf8EncodeChar '\n' = [0x0a] := by decide

lemma newline_eq_ofNat_iff {n : Nat} (h : n < 256) : 0x0a = UInt8.ofNat n ↔ n = 0x0a := by
  rw [← UInt8.toNat_inj, toNat_ofNat h]
  exact eq_comm

/-- The byte of a line feed belongs to no other character. -/
lemma eq_newline_of_mem {c : Char} (h : 0x0a ∈ utf8EncodeChar c) : c = '\n' := by
  have hnewline : c.val.toNat = 0x0a := by
    unfold utf8EncodeChar at h
    simp only at h
    -- the bytes of longer encodings are all beyond those of single ones
    split_ifs at h
    all_goals
      simp (disch := omega) only [List.mem_cons, List.not_mem_nil, or_false,
        newline_eq_ofNat_iff] at h
      omega
  rw [← Char.ofNat_toNat c]
  exact congrArg Char.ofNat hnewline

lemma count_flatMap_utf8EncodeChar (cs : List Char) :
    (cs.flatMap utf8EncodeChar).count 0x0a = cs.count '\n' := by
  induction cs with
  | nil => rfl
  | cons c cs ih =>
    rw [List.flatMap_cons, List.count_append, ih, List.count_cons]
    by_cases hc : c = '\n'
    · subst hc
      simp [utf8EncodeChar_newline, Nat.add_comm]
    · have hmem : (0x0a : UInt8) ∉ utf8EncodeChar c := fun hmem => hc (eq_newline_of_mem hmem)
      simp [List.count_eq_zero.mpr hmem, hc]

lemma newline_not_mem_of_cutShort {bytes : List UInt8} (h : CutShort bytes) : 0x0a ∉ bytes := by
  obtain ⟨c, rest, hc, hrest⟩ := h
  intro hmem
  obtain rfl : c = '\n' := eq_newline_of_mem (hc ▸ List.mem_append_left rest hmem)
  rw [utf8EncodeChar_newline] at hc
  rcases List.append_eq_singleton_iff.mp hc.symm with ⟨rfl, -⟩ | ⟨-, rfl⟩
  · exact absurd hmem List.not_mem_nil
  · exact hrest rfl

end EntryLint.Text
