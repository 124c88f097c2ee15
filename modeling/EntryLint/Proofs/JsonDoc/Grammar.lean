import EntryLint.JsonDoc.Basic
import EntryLint.Proofs.Text.Segments
import Mathlib.Data.List.Nodup

/-!
# The grammar of JSON

`Spells` is the grammar of JSON: which characters are a spelling of a document. Blanks may stand
around every value and every key, and the characters of a string may be escaped in several ways, so
that a document has many spellings. The main result is `Spells.determined`: what is spelled is
determined by the spelling, and a spelling is found again in front of whatever may follow it. So a
text is the text of one document at most (`IsText.unique`).
-/

namespace EntryLint.JsonDoc

/-! ## Blanks and numbers -/

/-- The blanks of the grammar. -/
def isBlank (c : Char) : Bool :=
  c = ' ' || c = '\t' || c = '\n' || c = '\r'

/-- Any number of blanks. -/
def Blank (cs : List Char) : Prop :=
  ∀ c ∈ cs, isBlank c = true

/-- One digit or more. -/
def Digits (cs : List Char) : Prop :=
  cs ≠ [] ∧ ∀ c ∈ cs, c.isDigit = true

/-- The whole part of a number starts with a zero only if it is zero. -/
def WholePart (cs : List Char) : Prop :=
  cs = ['0'] ∨ Digits cs ∧ cs.head? ≠ some '0'

/-- A fraction, if there is one. -/
def FractionPart (cs : List Char) : Prop :=
  cs = [] ∨ ∃ ds, Digits ds ∧ cs = '.' :: ds

/-- An exponent, if there is one. -/
def ExponentPart (cs : List Char) : Prop :=
  cs = [] ∨ ∃ e sign ds, (e = 'e' ∨ e = 'E') ∧ (sign = [] ∨ sign = ['+'] ∨ sign = ['-']) ∧
    Digits ds ∧ cs = e :: sign ++ ds

/-- A number: a sign, a whole part, a fraction and an exponent. -/
def NumberText (cs : List Char) : Prop :=
  ∃ sign whole fraction exponent, (sign = [] ∨ sign = ['-']) ∧ WholePart whole ∧
    FractionPart fraction ∧ ExponentPart exponent ∧ cs = sign ++ whole ++ fraction ++ exponent

/-! ## Strings -/

/-- The value of a hexadecimal digit. -/
def hexValue? (c : Char) : Option Nat :=
  if '0' ≤ c ∧ c ≤ '9' then some (c.toNat - '0'.toNat)
  else if 'a' ≤ c ∧ c ≤ 'f' then some (c.toNat - 'a'.toNat + 10)
  else if 'A' ≤ c ∧ c ≤ 'F' then some (c.toNat - 'A'.toNat + 10)
  else none

/-- The number that hexadecimal digits stand for. -/
def hexNumber? (ds : List Char) : Option Nat :=
  (ds.mapM hexValue?).map fun vs => vs.foldl (fun n v => 16 * n + v) 0

/-- Four hexadecimal digits and their number. -/
def CodeText (ds : List Char) (n : Nat) : Prop :=
  ds.length = 4 ∧ hexNumber? ds = some n

/-- The letters of short escapes, with the characters they stand for. -/
def shortEscapes : List (Char × Char) :=
  [('"', '"'), ('\\', '\\'), ('/', '/'), ('b', '\x08'), ('f', '\x0c'), ('n', '\n'), ('r', '\r'),
    ('t', '\t')]

/-- A character in a string: as it is, by a letter, by its code, or by the codes of two surrogates.
-/
inductive CharText : List Char → Char → Prop
  | plain {c : Char} (hcontrol : 0x20 ≤ c.toNat) (hquote : c ≠ '"') (hslash : c ≠ '\\') :
      CharText [c] c
  | short {letter c : Char} (h : (letter, c) ∈ shortEscapes) : CharText ['\\', letter] c
  | code {ds : List Char} {c : Char} (h : CodeText ds c.toNat) : CharText ('\\' :: 'u' :: ds) c
  | pair {ds ds' : List Char} {high low : Nat} {c : Char} (h : CodeText ds high)
      (h' : CodeText ds' low) (hhigh : 0xd800 ≤ high ∧ high < 0xdc00)
      (hlow : 0xdc00 ≤ low ∧ low < 0xe000)
      (hc : c.toNat = 0x10000 + (high - 0xd800) * 0x400 + (low - 0xdc00)) :
      CharText ('\\' :: 'u' :: ds ++ '\\' :: 'u' :: ds') c

/-- The characters of a string, one after the other. -/
inductive BodyText : List Char → List Char → Prop
  | nil : BodyText [] []
  | cons {t ts cs : List Char} {c : Char} (h : CharText t c) (hs : BodyText ts cs) :
      BodyText (t ++ ts) (c :: cs)

/-- A string between quotation marks. -/
def StringText (cs : List Char) (s : String) : Prop :=
  ∃ body, BodyText body s.toList ∧ cs = '"' :: body ++ ['"']

/-! ## Values -/

/-- A value with blanks around it. -/
structure Element where
  before : List Char
  text : List Char
  doc : JsonDoc
  after : List Char

/-- A key, a colon and a value, with blanks around each. -/
structure Member where
  before : List Char
  keyText : List Char
  key : String
  after : List Char
  value : Element

namespace Element

/-- The characters of an element. -/
def chars (e : Element) : List Char :=
  e.before ++ e.text ++ e.after

/-- There is nothing but blanks around the value. -/
def Spaced (e : Element) : Prop :=
  Blank e.before ∧ Blank e.after

end Element

namespace Member

/-- The characters of a member. -/
def chars (m : Member) : List Char :=
  m.before ++ m.keyText ++ m.after ++ ':' :: m.value.chars

/-- The key is a string, and there is nothing but blanks around it and around the value. -/
structure Spaced (m : Member) : Prop where
  before : Blank m.before
  key : StringText m.keyText m.key
  after : Blank m.after
  value : m.value.Spaced

/-- What a member adds to an object. -/
def entry (m : Member) : String × JsonDoc :=
  (m.key, m.value.doc)

end Member

/-- `Spells cs d`: the characters `cs` are a spelling of the document `d`. -/
inductive Spells : List Char → JsonDoc → Prop
  | null : Spells "null".toList .null
  | yes : Spells "true".toList (.bool true)
  | no : Spells "false".toList (.bool false)
  | number {cs : List Char} (h : NumberText cs) : Spells cs (.number (String.ofList cs))
  | string {cs : List Char} {s : String} (h : StringText cs s) : Spells cs (.string s)
  | emptyArray {ws : List Char} (h : Blank ws) : Spells ('[' :: ws ++ [']']) (.array [])
  | array {items : List Element} (hne : items ≠ []) (hspaced : ∀ e ∈ items, e.Spaced)
      (htext : ∀ e ∈ items, Spells e.text e.doc) :
      Spells ('[' :: [','].intercalate (items.map Element.chars) ++ [']'])
        (.array (items.map Element.doc))
  | emptyObject {ws : List Char} (h : Blank ws) : Spells ('\x7b' :: ws ++ ['\x7d']) (.object [])
  | object {members : List Member} (hne : members ≠ []) (hspaced : ∀ m ∈ members, m.Spaced)
      (htext : ∀ m ∈ members, Spells m.value.text m.value.doc) :
      Spells ('\x7b' :: [','].intercalate (members.map Member.chars) ++ ['\x7d'])
        (.object (members.map Member.entry))

/-- A text is a spelling of a document with blanks around it. -/
def IsText (t : String) (d : JsonDoc) : Prop :=
  ∃ before cs after, Blank before ∧ Blank after ∧ Spells cs d ∧ t.toList = before ++ cs ++ after

/-! ## Runs of characters -/

/-- A run of characters of a class is dropped from what does not start with one of them. -/
lemma dropWhile_run {p : Char → Bool} {xs rest : List Char} (hxs : ∀ c ∈ xs, p c = true)
    (hrest : ∀ c ∈ rest.head?, p c = false) : (xs ++ rest).dropWhile p = rest := by
  rw [List.dropWhile_append_of_pos hxs]
  cases rest with
  | nil => rfl
  | cons c rest => rw [List.dropWhile_cons_of_neg (by simp [hrest c rfl])]

/-- Where a run of characters of a class ends is determined by what follows it. -/
lemma run_determined {p : Char → Bool} {xs ys rest rest' : List Char} (hxs : ∀ c ∈ xs, p c = true)
    (hys : ∀ c ∈ ys, p c = true) (hrest : ∀ c ∈ rest.head?, p c = false)
    (hrest' : ∀ c ∈ rest'.head?, p c = false) (h : xs ++ rest = ys ++ rest') :
    xs = ys ∧ rest = rest' := by
  have heq : rest = rest' := by
    rw [← dropWhile_run hxs hrest, h, dropWhile_run hys hrest']
  rw [heq] at h
  exact ⟨List.append_cancel_right h, heq⟩

/-- The characters that numbers are made of. -/
def isNumberChar (c : Char) : Bool :=
  c.isDigit || c = '-' || c = '+' || c = '.' || c = 'e' || c = 'E'

lemma isNumberChar_of_digits {cs : List Char} (h : Digits cs) :
    ∀ c ∈ cs, isNumberChar c = true := by
  intro c hc
  simp [isNumberChar, h.2 c hc]

lemma isNumberChar_of_numberText {cs : List Char} (h : NumberText cs) :
    ∀ c ∈ cs, isNumberChar c = true := by
  obtain ⟨sign, whole, fraction, exponent, hsign, hwhole, hfraction, hexponent, rfl⟩ := h
  have hsigns : ∀ c ∈ sign, isNumberChar c = true := by
    rcases hsign with rfl | rfl
    · simp
    · simp [isNumberChar]
  have hwholes : ∀ c ∈ whole, isNumberChar c = true := by
    rcases hwhole with rfl | ⟨hdigits, -⟩
    · simp [isNumberChar]
    · exact isNumberChar_of_digits hdigits
  have hfractions : ∀ c ∈ fraction, isNumberChar c = true := by
    rcases hfraction with rfl | ⟨ds, hdigits, rfl⟩
    · simp
    · rw [List.forall_mem_cons]
      exact ⟨rfl, isNumberChar_of_digits hdigits⟩
  have hexponents : ∀ c ∈ exponent, isNumberChar c = true := by
    rcases hexponent with rfl | ⟨e, mark, ds, he, hmark, hdigits, rfl⟩
    · simp
    · rw [List.forall_mem_append, List.forall_mem_cons]
      refine ⟨⟨?_, ?_⟩, isNumberChar_of_digits hdigits⟩
      · rcases he with rfl | rfl
        · rfl
        · rfl
      · rcases hmark with rfl | rfl | rfl
        · simp
        · simp [isNumberChar]
        · simp [isNumberChar]
  rw [List.forall_mem_append, List.forall_mem_append, List.forall_mem_append]
  exact ⟨⟨⟨hsigns, hwholes⟩, hfractions⟩, hexponents⟩

/-- A number starts with a digit or a minus sign. -/
lemma head_of_numberText {cs : List Char} (h : NumberText cs) :
    ∃ c tail, cs = c :: tail ∧ (c.isDigit = true ∨ c = '-') := by
  obtain ⟨sign, whole, fraction, exponent, hsign, hwhole, -, -, rfl⟩ := h
  rcases hsign with rfl | rfl
  · rcases hwhole with rfl | ⟨⟨hne, hdigits⟩, -⟩
    · exact ⟨'0', _, rfl, .inl rfl⟩
    · obtain ⟨d, ds, rfl⟩ := List.exists_cons_of_ne_nil hne
      exact ⟨d, _, rfl, .inl (hdigits d List.mem_cons_self)⟩
  · exact ⟨'-', _, rfl, .inr rfl⟩

/-! ## Strings are determined by their texts -/

lemma shortEscapes_determined {letter c c' : Char} (h : (letter, c) ∈ shortEscapes)
    (h' : (letter, c') ∈ shortEscapes) : c = c' := by
  have hnodup : (shortEscapes.map Prod.fst).Nodup := by decide
  exact congrArg Prod.snd (List.inj_on_of_nodup_map hnodup h h' rfl)

lemma ne_u_of_mem_shortEscapes {letter c : Char} (h : (letter, c) ∈ shortEscapes) :
    letter ≠ 'u' := by
  rintro rfl
  simp [shortEscapes] at h

lemma CodeText.determined {ds ds' rest rest' : List Char} {n n' : Nat} (h : CodeText ds n)
    (h' : CodeText ds' n') (heq : ds ++ rest = ds' ++ rest') : n = n' ∧ rest = rest' := by
  obtain ⟨rfl, rfl⟩ := List.append_inj heq (h.1.trans h'.1.symm)
  exact ⟨Option.some.inj (h.2.symm.trans h'.2), rfl⟩

/-- No character has the code of a surrogate. -/
lemma toNat_not_surrogate (c : Char) : ¬(0xd800 ≤ c.toNat ∧ c.toNat < 0xdc00) := by
  have hvalid : c.toNat < 0xd800 ∨ 0xdfff < c.toNat ∧ c.toNat < 0x110000 := c.valid
  omega

/-- A text of a character tells by its first character whether it is an escape, and by its second
one which kind of escape. -/
lemma CharText.determined {t t' rest rest' : List Char} {c c' : Char} (h : CharText t c)
    (h' : CharText t' c') (heq : t ++ rest = t' ++ rest') : c = c' ∧ rest = rest' := by
  cases h with
  | plain _ _ hslash =>
    cases h' with
    | plain => exact List.cons.inj heq
    | short => exact absurd (List.cons.inj heq).1 hslash
    | code => exact absurd (List.cons.inj heq).1 hslash
    | pair => exact absurd (List.cons.inj heq).1 hslash
  | short hmem =>
    cases h' with
    | plain _ _ hslash => exact absurd (List.cons.inj heq).1.symm hslash
    | short hmem' =>
      obtain ⟨hletter, hrest⟩ := List.cons.inj (List.cons.inj heq).2
      exact ⟨shortEscapes_determined hmem (hletter ▸ hmem'), hrest⟩
    | code =>
      exact absurd (List.cons.inj (List.cons.inj heq).2).1 (ne_u_of_mem_shortEscapes hmem)
    | pair =>
      exact absurd (List.cons.inj (List.cons.inj heq).2).1 (ne_u_of_mem_shortEscapes hmem)
  | code hcode =>
    cases h' with
    | plain _ _ hslash => exact absurd (List.cons.inj heq).1.symm hslash
    | short hmem' =>
      exact absurd (List.cons.inj (List.cons.inj heq).2).1.symm (ne_u_of_mem_shortEscapes hmem')
    | code hcode' =>
      obtain ⟨hc, hrest⟩ := hcode.determined hcode' (List.cons.inj (List.cons.inj heq).2).2
      exact ⟨Char.toNat_inj.mp hc, hrest⟩
    | pair hhigh' _ hhighs' =>
      rw [List.append_assoc] at heq
      obtain ⟨hc, -⟩ := hcode.determined hhigh' (List.cons.inj (List.cons.inj heq).2).2
      exact absurd (hc ▸ hhighs') (toNat_not_surrogate c)
  | pair hhigh hlow hhighs hlows hc =>
    rw [List.append_assoc] at heq
    cases h' with
    | plain _ _ hslash => exact absurd (List.cons.inj heq).1.symm hslash
    | short hmem' =>
      exact absurd (List.cons.inj (List.cons.inj heq).2).1.symm (ne_u_of_mem_shortEscapes hmem')
    | code hcode' =>
      obtain ⟨hc', -⟩ := hhigh.determined hcode' (List.cons.inj (List.cons.inj heq).2).2
      exact absurd (hc' ▸ hhighs) (toNat_not_surrogate c')
    | pair hhigh' hlow' hhighs' hlows' hc' =>
      rw [List.append_assoc] at heq
      obtain ⟨rfl, htail⟩ := hhigh.determined hhigh' (List.cons.inj (List.cons.inj heq).2).2
      obtain ⟨rfl, hrest⟩ := hlow.determined hlow' (List.cons.inj (List.cons.inj htail).2).2
      exact ⟨Char.toNat_inj.mp (hc.trans hc'.symm), hrest⟩

/-- No character of a string starts with a quotation mark. -/
lemma CharText.head_ne_quote {t : List Char} {c : Char} (h : CharText t c) :
    ∃ first tail, t = first :: tail ∧ first ≠ '"' := by
  cases h with
  | plain _ hquote _ => exact ⟨c, [], rfl, hquote⟩
  | short => exact ⟨'\\', _, rfl, by decide⟩
  | code => exact ⟨'\\', _, rfl, by decide⟩
  | pair => exact ⟨'\\', _, rfl, by decide⟩

/-- The first quotation mark that stands for itself ends a string. -/
lemma BodyText.determined {ts ts' cs cs' rest rest' : List Char} (h : BodyText ts cs)
    (h' : BodyText ts' cs') (heq : ts ++ '"' :: rest = ts' ++ '"' :: rest') :
    cs = cs' ∧ rest = rest' := by
  induction h generalizing ts' cs' with
  | nil =>
    cases h' with
    | nil => exact ⟨rfl, (List.cons.inj heq).2⟩
    | cons hchar' _ =>
      obtain ⟨first, tail, rfl, hne⟩ := hchar'.head_ne_quote
      exact absurd (List.cons.inj heq).1.symm hne
  | cons hchar _ ih =>
    cases h' with
    | nil =>
      obtain ⟨first, tail, rfl, hne⟩ := hchar.head_ne_quote
      exact absurd (List.cons.inj heq).1 hne
    | cons hchar' hbody' =>
      rw [List.append_assoc, List.append_assoc] at heq
      obtain ⟨rfl, htail⟩ := hchar.determined hchar' heq
      obtain ⟨rfl, hrest⟩ := ih hbody' htail
      exact ⟨rfl, hrest⟩

lemma StringText.determined {cs cs' rest rest' : List Char} {s s' : String} (h : StringText cs s)
    (h' : StringText cs' s') (heq : cs ++ rest = cs' ++ rest') : s = s' ∧ rest = rest' := by
  obtain ⟨body, hbody, rfl⟩ := h
  obtain ⟨body', hbody', rfl⟩ := h'
  rw [List.append_assoc, List.append_assoc] at heq
  obtain ⟨hs, hrest⟩ := hbody.determined hbody' (List.cons.inj heq).2
  exact ⟨String.toList_inj.mp hs, hrest⟩

/-! ## What may follow a value -/

/-- What follows does not continue a number. -/
def Ends (rest : List Char) : Prop :=
  ∀ c ∈ rest.head?, isNumberChar c = false

/-- What follows continues neither a number nor blanks. -/
def Closes (rest : List Char) : Prop :=
  ∀ c ∈ rest.head?, isBlank c = false ∧ isNumberChar c = false

lemma Closes.notBlank {rest : List Char} (h : Closes rest) : ∀ c ∈ rest.head?, isBlank c = false :=
  fun c hc => (h c hc).1

lemma isNumberChar_of_isBlank {c : Char} (h : isBlank c = true) : isNumberChar c = false := by
  simp only [isBlank, Bool.or_eq_true, decide_eq_true_eq] at h
  rcases h with ((rfl | rfl) | rfl) | rfl
  · rfl
  · rfl
  · rfl
  · rfl

/-- Blanks may stand between a value and what closes it. -/
lemma Closes.ends_append {ws rest : List Char} (hws : Blank ws) (h : Closes rest) :
    Ends (ws ++ rest) := by
  intro c hc
  cases ws with
  | nil => exact (h c hc).2
  | cons w ws =>
    obtain rfl := Option.some.inj hc
    exact isNumberChar_of_isBlank (hws w List.mem_cons_self)

/-! ## Shapes -/

/-- What the first character of a spelling tells about the document. -/
inductive Shape where
  | null
  | yes
  | no
  | number
  | string
  | array
  | object
  deriving DecidableEq

/-- The shape of a document. -/
def shape : JsonDoc → Shape
  | .null => .null
  | .bool b => if b then .yes else .no
  | .number _ => .number
  | .string _ => .string
  | .array _ => .array
  | .object _ => .object

/-- The shape of the documents whose spellings start with a character. -/
def Shape.ofChar? (c : Char) : Option Shape :=
  if c = 'n' then some .null
  else if c = 't' then some .yes
  else if c = 'f' then some .no
  else if c = '"' then some .string
  else if c = '[' then some .array
  else if c = '\x7b' then some .object
  else if c.isDigit || c = '-' then some .number
  else none

lemma Shape.ofChar?_of_digit {c : Char} (h : c.isDigit = true ∨ c = '-') :
    ofChar? c = some .number := by
  -- no other shape is told by a digit or a minus sign
  have hne : ∀ x : Char, (x.isDigit || x = '-') = false → c ≠ x := by
    rintro x hx rfl
    rcases h with h | h
    · simp [h] at hx
    · simp [h] at hx
  rw [ofChar?, if_neg (hne _ rfl), if_neg (hne _ rfl), if_neg (hne _ rfl), if_neg (hne _ rfl),
    if_neg (hne _ rfl), if_neg (hne _ rfl), if_pos (by simpa using h)]

lemma Shape.ofChar?_of_isBlank {c : Char} (h : isBlank c = true) : ofChar? c = none := by
  simp only [isBlank, Bool.or_eq_true, decide_eq_true_eq] at h
  rcases h with ((rfl | rfl) | rfl) | rfl
  · rfl
  · rfl
  · rfl
  · rfl

lemma Shape.isBlank_eq_false {c : Char} {k : Shape} (h : ofChar? c = some k) :
    isBlank c = false := by
  rw [← Bool.not_eq_true]
  intro hblank
  rw [ofChar?_of_isBlank hblank] at h
  cases h

lemma Spells.exists_head {cs : List Char} {d : JsonDoc} (h : Spells cs d) :
    ∃ c tail, cs = c :: tail ∧ Shape.ofChar? c = some d.shape := by
  cases h with
  | null => exact ⟨'n', _, rfl, rfl⟩
  | yes => exact ⟨'t', _, rfl, rfl⟩
  | no => exact ⟨'f', _, rfl, rfl⟩
  | number h =>
    obtain ⟨c, tail, rfl, hc⟩ := head_of_numberText h
    exact ⟨c, tail, rfl, Shape.ofChar?_of_digit hc⟩
  | string h =>
    obtain ⟨body, -, rfl⟩ := h
    exact ⟨'"', _, rfl, rfl⟩
  | emptyArray => exact ⟨'[', _, rfl, rfl⟩
  | array => exact ⟨'[', _, rfl, rfl⟩
  | emptyObject => exact ⟨'\x7b', _, rfl, rfl⟩
  | object => exact ⟨'\x7b', _, rfl, rfl⟩

section

variable {cs cs' rest rest' : List Char} {d d' : JsonDoc}

/-- Blanks before a spelling are not part of it. -/
lemma Spells.notBlank (h : Spells cs d) (rest : List Char) :
    ∀ c ∈ (cs ++ rest).head?, isBlank c = false := by
  obtain ⟨first, tail, rfl, hshape⟩ := h.exists_head
  intro c hc
  obtain rfl := Option.some.inj hc
  exact Shape.isBlank_eq_false hshape

lemma Spells.shape_eq (h : Spells cs d) (h' : Spells cs' d') (heq : cs ++ rest = cs' ++ rest') :
    d.shape = d'.shape := by
  obtain ⟨c, tail, rfl, hshape⟩ := h.exists_head
  obtain ⟨c', tail', rfl, hshape'⟩ := h'.exists_head
  rw [(List.cons.inj heq).1] at hshape
  exact Option.some.inj (hshape.symm.trans hshape')

lemma Spells.of_null (h : Spells cs d) (hshape : d.shape = .null) :
    cs = "null".toList ∧ d = .null := by
  cases h with
  | null => exact ⟨rfl, rfl⟩
  | _ => cases hshape

lemma Spells.of_yes (h : Spells cs d) (hshape : d.shape = .yes) :
    cs = "true".toList ∧ d = .bool true := by
  cases h with
  | yes => exact ⟨rfl, rfl⟩
  | _ => cases hshape

lemma Spells.of_no (h : Spells cs d) (hshape : d.shape = .no) :
    cs = "false".toList ∧ d = .bool false := by
  cases h with
  | no => exact ⟨rfl, rfl⟩
  | _ => cases hshape

lemma Spells.of_number (h : Spells cs d) (hshape : d.shape = .number) :
    NumberText cs ∧ d = .number (String.ofList cs) := by
  cases h with
  | number h => exact ⟨h, rfl⟩
  | _ => cases hshape

lemma Spells.of_string (h : Spells cs d) (hshape : d.shape = .string) :
    ∃ s, StringText cs s ∧ d = .string s := by
  cases h with
  | string h => exact ⟨_, h, rfl⟩
  | _ => cases hshape

/-- What is spelled is determined by the spelling, whatever follows it. -/
def Determined (cs : List Char) (d : JsonDoc) : Prop :=
  ∀ ⦃cs' rest rest' : List Char⦄ ⦃d' : JsonDoc⦄, Spells cs' d' → cs ++ rest = cs' ++ rest' →
    Ends rest → Ends rest' → d = d' ∧ rest = rest'

end

/-! ## Sequences -/

section Sequence

variable {α β : Type} {chars : α → List Char} {value : α → β} {Good : α → Prop} {close : Char}
  {rest rest' : List Char}

/-- What stands between brackets: blanks, or good pieces with commas between them. -/
inductive Body (chars : α → List Char) (Good : α → Prop) : List α → List Char → Prop
  | blank {ws : List Char} (h : Blank ws) : Body chars Good [] ws
  | pieces {xs : List α} (hne : xs ≠ []) (h : ∀ x ∈ xs, Good x) :
      Body chars Good xs ([','].intercalate (xs.map chars))

/-- A piece tells what it stands for and where it ends, among good pieces. -/
def PieceDetermined (chars : α → List Char) (value : α → β) (Good : α → Prop) (x : α) : Prop :=
  ∀ ⦃y : α⦄ ⦃rest rest' : List Char⦄, Good y → chars x ++ rest = chars y ++ rest' → Closes rest →
    Closes rest' → value x = value y ∧ rest = rest'

/-- Behind blanks, a piece starts with something else than the bracket that closes. -/
def Opens (close : Char) (cs : List Char) : Prop :=
  ∃ before c tail, Blank before ∧ isBlank c = false ∧ c ≠ close ∧ cs = before ++ c :: tail

lemma closes_separated (hclose : Closes [close]) (texts : List (List Char)) (rest : List Char) :
    Closes (texts.flatMap ([','] ++ ·) ++ close :: rest) := by
  intro c hc
  cases texts with
  | nil => exact hclose c hc
  | cons t texts =>
    obtain rfl := Option.some.inj hc
    exact ⟨rfl, rfl⟩

/-- The pieces behind the first one each have a comma in front, and the last one is closed. -/
lemma separated_determined (hclose : Closes [close]) (hcomma : close ≠ ',') {xs ys : List α}
    (hxs : ∀ x ∈ xs, PieceDetermined chars value Good x) (hys : ∀ y ∈ ys, Good y)
    (heq : (xs.map chars).flatMap ([','] ++ ·) ++ close :: rest =
      (ys.map chars).flatMap ([','] ++ ·) ++ close :: rest') :
    xs.map value = ys.map value ∧ rest = rest' := by
  induction xs generalizing ys with
  | nil =>
    cases ys with
    | nil => exact ⟨rfl, (List.cons.inj heq).2⟩
    | cons y ys => exact absurd (List.cons.inj heq).1 hcomma
  | cons x xs ih =>
    cases ys with
    | nil => exact absurd (List.cons.inj heq).1.symm hcomma
    | cons y ys =>
      rw [List.forall_mem_cons] at hxs hys
      simp only [List.map_cons, List.flatMap_cons, List.append_assoc] at heq
      obtain ⟨hvalue, htail⟩ := hxs.1 hys.1 (List.cons.inj heq).2 (closes_separated hclose _ _)
        (closes_separated hclose _ _)
      obtain ⟨hvalues, hrest⟩ := ih hxs.2 hys.2 htail
      exact ⟨by rw [List.map_cons, List.map_cons, hvalue, hvalues], hrest⟩

lemma pieces_determined (hclose : Closes [close]) (hcomma : close ≠ ',') {xs ys : List α}
    (hne : xs ≠ []) (hne' : ys ≠ []) (hxs : ∀ x ∈ xs, PieceDetermined chars value Good x)
    (hys : ∀ y ∈ ys, Good y)
    (heq : [','].intercalate (xs.map chars) ++ close :: rest =
      [','].intercalate (ys.map chars) ++ close :: rest') :
    xs.map value = ys.map value ∧ rest = rest' := by
  obtain ⟨x, xs, rfl⟩ := List.exists_cons_of_ne_nil hne
  obtain ⟨y, ys, rfl⟩ := List.exists_cons_of_ne_nil hne'
  rw [List.forall_mem_cons] at hxs hys
  simp only [List.map_cons, Text.intercalate_cons_eq, List.append_assoc] at heq
  obtain ⟨hvalue, htail⟩ := hxs.1 hys.1 heq (closes_separated hclose _ _)
    (closes_separated hclose _ _)
  obtain ⟨hvalues, hrest⟩ := separated_determined hclose hcomma hxs.2 hys.2 htail
  exact ⟨by rw [List.map_cons, List.map_cons, hvalue, hvalues], hrest⟩

lemma Closes.notBlank_cons (hclose : Closes [close]) (rest : List Char) :
    ∀ c ∈ (close :: rest).head?, isBlank c = false :=
  fun c hc => (hclose c hc).1

/-- Brackets with nothing but blanks between them have no piece between them. -/
lemma blank_ne_pieces (hclose : Closes [close]) {ws : List Char} (hws : Blank ws) {xs : List α}
    (hne : xs ≠ []) (hxs : ∀ x ∈ xs, Opens close (chars x)) :
    ws ++ close :: rest ≠ [','].intercalate (xs.map chars) ++ close :: rest' := by
  intro heq
  obtain ⟨x, xs, rfl⟩ := List.exists_cons_of_ne_nil hne
  obtain ⟨before, c, tail, hbefore, hblank, hc, hchars⟩ := hxs x List.mem_cons_self
  simp only [List.map_cons, Text.intercalate_cons_eq, hchars, List.append_assoc,
    List.cons_append] at heq
  obtain ⟨-, htail⟩ := run_determined hws hbefore (hclose.notBlank_cons _)
    (by simpa using hblank) heq
  exact hc (List.cons.inj htail).1.symm

/-- What stands between brackets is determined if its pieces are. -/
lemma Body.determined (hclose : Closes [close]) (hcomma : close ≠ ',')
    (hopens : ∀ x, Good x → Opens close (chars x)) {xs ys : List α} {cs cs' : List Char}
    (h : Body chars Good xs cs) (hxs : ∀ x ∈ xs, PieceDetermined chars value Good x)
    (h' : Body chars Good ys cs') (heq : cs ++ close :: rest = cs' ++ close :: rest') :
    xs.map value = ys.map value ∧ rest = rest' := by
  cases h with
  | blank hws =>
    cases h' with
    | blank hws' =>
      obtain ⟨-, htail⟩ := run_determined hws hws' (hclose.notBlank_cons _)
        (hclose.notBlank_cons _) heq
      exact ⟨rfl, (List.cons.inj htail).2⟩
    | pieces hne' hys =>
      exact absurd heq (blank_ne_pieces hclose hws hne' fun y hy => hopens y (hys y hy))
  | pieces hne hgood =>
    cases h' with
    | blank hws' =>
      exact absurd heq.symm (blank_ne_pieces hclose hws' hne fun x hx => hopens x (hgood x hx))
    | pieces hne' hys => exact pieces_determined hclose hcomma hne hne' hxs hys heq

end Sequence

/-! ## Elements and members -/

section

variable {cs rest rest' : List Char} {d : JsonDoc}

/-- A value that is spelled, with blanks around it. -/
def Element.Spelled (e : Element) : Prop :=
  Spells e.text e.doc ∧ e.Spaced

/-- A key and a value that are spelled, with blanks around them. -/
def Member.Spelled (m : Member) : Prop :=
  Spells m.value.text m.value.doc ∧ m.Spaced

lemma Element.determined {e : Element} (h : Determined e.text e.doc) (he : e.Spelled) :
    PieceDetermined chars doc Spelled e := by
  intro e' rest rest' he' heq hrest hrest'
  obtain ⟨htext, hspaced⟩ := he
  obtain ⟨htext', hspaced'⟩ := he'
  simp only [chars, List.append_assoc] at heq
  obtain ⟨-, htail⟩ := run_determined hspaced.1 hspaced'.1 (htext.notBlank _)
    (htext'.notBlank _) heq
  obtain ⟨hdoc, hafter⟩ := h htext' htail (hrest.ends_append hspaced.2)
    (hrest'.ends_append hspaced'.2)
  exact ⟨hdoc, (run_determined hspaced.2 hspaced'.2 hrest.notBlank hrest'.notBlank hafter).2⟩

lemma Member.determined {m : Member} (h : Determined m.value.text m.value.doc) (hm : m.Spelled) :
    PieceDetermined chars entry Spelled m := by
  intro m' rest rest' hm' heq hrest hrest'
  obtain ⟨htext, hspaced⟩ := hm
  obtain ⟨htext', hspaced'⟩ := hm'
  simp only [chars, List.append_assoc, List.cons_append] at heq
  obtain ⟨-, hkey⟩ := run_determined hspaced.before hspaced'.before
    ((Spells.string hspaced.key).notBlank _) ((Spells.string hspaced'.key).notBlank _) heq
  obtain ⟨hname, hafter⟩ := hspaced.key.determined hspaced'.key hkey
  -- a colon is no blank
  have hcolon : ∀ tail : List Char, ∀ c ∈ (':' :: tail).head?, isBlank c = false := by
    intro tail c hc
    obtain rfl := Option.some.inj hc
    rfl
  obtain ⟨-, hvalue⟩ := run_determined hspaced.after hspaced'.after (hcolon _) (hcolon _) hafter
  obtain ⟨hdoc, hrests⟩ := Element.determined h ⟨htext, hspaced.value⟩ ⟨htext', hspaced'.value⟩
    (List.cons.inj hvalue).2 hrest hrest'
  exact ⟨Prod.ext hname hdoc, hrests⟩

/-- Behind the blanks, a spelling does not start with a closing bracket. -/
lemma Spells.opens {before : List Char} {close : Char} (h : Spells cs d) (hbefore : Blank before)
    (hclose : Shape.ofChar? close = none) (after : List Char) :
    Opens close (before ++ cs ++ after) := by
  obtain ⟨c, tail, rfl, hshape⟩ := h.exists_head
  refine ⟨before, c, tail ++ after, hbefore, Shape.isBlank_eq_false hshape, ?_, by simp⟩
  rintro rfl
  rw [hclose] at hshape
  cases hshape

lemma Element.Spelled.opens {e : Element} (h : e.Spelled) : Opens ']' e.chars :=
  h.1.opens h.2.1 rfl e.after

lemma Member.Spelled.opens {m : Member} (h : m.Spelled) : Opens '\x7d' m.chars := by
  rw [Member.chars, List.append_assoc]
  exact (Spells.string h.2.key).opens h.2.before rfl _

/-! ## Arrays and objects -/

lemma closes_bracket : Closes [']'] := by
  intro c hc
  obtain rfl := Option.some.inj hc
  exact ⟨rfl, rfl⟩

lemma closes_brace : Closes ['\x7d'] := by
  intro c hc
  obtain rfl := Option.some.inj hc
  exact ⟨rfl, rfl⟩

lemma Spells.of_array (h : Spells cs d) (hshape : d.shape = .array) :
    ∃ items body, Body Element.chars Element.Spelled items body ∧ cs = '[' :: body ++ [']'] ∧
      d = .array (items.map Element.doc) := by
  cases h with
  | emptyArray h => exact ⟨[], _, .blank h, rfl, rfl⟩
  | array hne hspaced htext =>
    exact ⟨_, _, .pieces hne fun e he => ⟨htext e he, hspaced e he⟩, rfl, rfl⟩
  | _ => cases hshape

lemma Spells.of_object (h : Spells cs d) (hshape : d.shape = .object) :
    ∃ members body, Body Member.chars Member.Spelled members body ∧
      cs = '\x7b' :: body ++ ['\x7d'] ∧ d = .object (members.map Member.entry) := by
  cases h with
  | emptyObject h => exact ⟨[], _, .blank h, rfl, rfl⟩
  | object hne hspaced htext =>
    exact ⟨_, _, .pieces hne fun m hm => ⟨htext m hm, hspaced m hm⟩, rfl, rfl⟩
  | _ => cases hshape

/-- What stands between brackets makes an array. -/
lemma Body.spells_array {items : List Element} {body : List Char}
    (h : Body Element.chars Element.Spelled items body) :
    Spells ('[' :: body ++ [']']) (.array (items.map Element.doc)) := by
  cases h with
  | blank hws => exact .emptyArray hws
  | pieces hne h => exact .array hne (fun e he => (h e he).2) fun e he => (h e he).1

/-- What stands between braces makes an object. -/
lemma Body.spells_object {members : List Member} {body : List Char}
    (h : Body Member.chars Member.Spelled members body) :
    Spells ('\x7b' :: body ++ ['\x7d']) (.object (members.map Member.entry)) := by
  cases h with
  | blank hws => exact .emptyObject hws
  | pieces hne h => exact .object hne (fun m hm => (h m hm).2) fun m hm => (h m hm).1

lemma Body.determined_array {items : List Element} {body : List Char}
    (hbody : Body Element.chars Element.Spelled items body)
    (hitems : ∀ e ∈ items, PieceDetermined Element.chars Element.doc Element.Spelled e) :
    Determined ('[' :: body ++ [']']) (.array (items.map Element.doc)) := by
  intro cs' rest rest' d' h' heq _ _
  obtain ⟨items', body', hbody', rfl, rfl⟩ := h'.of_array (hbody.spells_array.shape_eq h' heq).symm
  simp only [List.cons_append, List.append_assoc, List.nil_append] at heq
  obtain ⟨hdocs, htail⟩ := hbody.determined closes_bracket (by decide)
    (fun _ he => Element.Spelled.opens he) hitems hbody' (List.cons.inj heq).2
  exact ⟨by rw [hdocs], htail⟩

lemma Body.determined_object {members : List Member} {body : List Char}
    (hbody : Body Member.chars Member.Spelled members body)
    (hmembers : ∀ m ∈ members, PieceDetermined Member.chars Member.entry Member.Spelled m) :
    Determined ('\x7b' :: body ++ ['\x7d']) (.object (members.map Member.entry)) := by
  intro cs' rest rest' d' h' heq _ _
  obtain ⟨members', body', hbody', rfl, rfl⟩ :=
    h'.of_object (hbody.spells_object.shape_eq h' heq).symm
  simp only [List.cons_append, List.append_assoc, List.nil_append] at heq
  obtain ⟨hentries, htail⟩ := hbody.determined closes_brace (by decide)
    (fun _ hm => Member.Spelled.opens hm) hmembers hbody' (List.cons.inj heq).2
  exact ⟨by rw [hentries], htail⟩

end

/-! ## Documents are determined by their texts -/

/-- A spelling determines the document, and where it ends, before anything that may follow it. -/
lemma Spells.determined {cs : List Char} {d : JsonDoc} (h : Spells cs d) : Determined cs d := by
  induction h with
  | null =>
    intro cs' rest rest' d' h' heq _ _
    obtain ⟨rfl, rfl⟩ := h'.of_null (Spells.null.shape_eq h' heq).symm
    exact ⟨rfl, List.append_cancel_left heq⟩
  | yes =>
    intro cs' rest rest' d' h' heq _ _
    obtain ⟨rfl, rfl⟩ := h'.of_yes (Spells.yes.shape_eq h' heq).symm
    exact ⟨rfl, List.append_cancel_left heq⟩
  | no =>
    intro cs' rest rest' d' h' heq _ _
    obtain ⟨rfl, rfl⟩ := h'.of_no (Spells.no.shape_eq h' heq).symm
    exact ⟨rfl, List.append_cancel_left heq⟩
  | number h =>
    intro cs' rest rest' d' h' heq hrest hrest'
    obtain ⟨hnumber, rfl⟩ := h'.of_number ((Spells.number h).shape_eq h' heq).symm
    obtain ⟨rfl, htail⟩ := run_determined (isNumberChar_of_numberText h)
      (isNumberChar_of_numberText hnumber) hrest hrest' heq
    exact ⟨rfl, htail⟩
  | string h =>
    intro cs' rest rest' d' h' heq _ _
    obtain ⟨s', hstring, rfl⟩ := h'.of_string ((Spells.string h).shape_eq h' heq).symm
    obtain ⟨rfl, htail⟩ := h.determined hstring heq
    exact ⟨rfl, htail⟩
  | emptyArray hws =>
    exact (Body.blank hws).determined_array fun e he => absurd he List.not_mem_nil
  | array hne hspaced htext ih =>
    exact (Body.pieces hne fun e he => ⟨htext e he, hspaced e he⟩).determined_array
      fun e he => Element.determined (ih e he) ⟨htext e he, hspaced e he⟩
  | emptyObject hws =>
    exact (Body.blank hws).determined_object fun m hm => absurd hm List.not_mem_nil
  | object hne hspaced htext ih =>
    exact (Body.pieces hne fun m hm => ⟨htext m hm, hspaced m hm⟩).determined_object
      fun m hm => Member.determined (ih m hm) ⟨htext m hm, hspaced m hm⟩

/-- A text is the text of one document at most. -/
lemma IsText.unique {t : String} {d d' : JsonDoc} (h : IsText t d) (h' : IsText t d') : d = d' := by
  obtain ⟨before, cs, after, hbefore, hafter, hspells, ht⟩ := h
  obtain ⟨before', cs', after', hbefore', hafter', hspells', ht'⟩ := h'
  have heq : before ++ (cs ++ after) = before' ++ (cs' ++ after') := by
    rw [← List.append_assoc, ← List.append_assoc, ← ht, ← ht']
  obtain ⟨-, htail⟩ := run_determined hbefore hbefore' (hspells.notBlank _)
    (hspells'.notBlank _) heq
  have hends : ∀ ws, Blank ws → Ends ws := by
    intro ws hws
    have hnil : Closes [] := by simp [Closes]
    simpa using hnil.ends_append hws
  exact (hspells.determined hspells' htail (hends _ hafter) (hends _ hafter')).1

end EntryLint.JsonDoc
