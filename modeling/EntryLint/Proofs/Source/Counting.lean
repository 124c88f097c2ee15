import EntryLint.Parser.Library
import EntryLint.Proofs.Source.Position
import EntryLint.Proofs.Text.Utf8
import Mathlib.Data.List.GetD
import Mathlib.Data.Nat.Find
import Mathlib.Order.Interval.Finset.Nat

/-!
# Positions by counting

A document looks up the start of the line of a byte and decodes what stands between the two
(`SourceDocument.point`). Its answer is the position that is met while the text is read up to that
byte (`point_eq_positionAt`), and can be told by counting line feeds and whole characters
(`newlinesBefore`, `wholeChars`). The main result is `point_counts`.

All of these are compared at one cut. At any byte a text falls into the characters that end there or
before and those that do not (`CutAtByte`), and of the first ones the last line is split off
(`exists_lastLine`). The bytes up to the cut are then those of whole characters and a part of the
next one, which holds no line feed and is dropped when it is decoded (`LineBefore`).
-/

namespace EntryLint

open String (utf8EncodeChar)

/-! ## Counts -/

/-- The bytes of a text. -/
def bytesOf (text : String) : List UInt8 :=
  text.toUTF8.data.toList

/-- How many line feeds stand before a byte. -/
def newlinesBefore (text : String) (b : Nat) : Nat :=
  ((bytesOf text).take b).count 0x0a

/-- A line starts at the first byte, and at each byte behind a line feed. -/
def StartsLine (text : String) (i : Nat) : Prop :=
  i = 0 ∨ (bytesOf text)[i - 1]? = some 0x0a

instance (text : String) : DecidablePred (StartsLine text) :=
  fun _ => inferInstanceAs (Decidable (_ ∨ _))

/-- The start of the line of a byte: behind the last line feed before it, or at the first byte. -/
def lineStart (text : String) (b : Nat) : Nat :=
  Nat.findGreatest (StartsLine text) b

/-- The byte at which the character with an index starts. -/
def charStart (text : String) (i : Nat) : Nat :=
  (String.ofList (text.toList.take i)).utf8ByteSize

/-- How many characters of a text lie wholly between two bytes. -/
def wholeChars (text : String) (start stop : Nat) : Nat :=
  {i ∈ Finset.range text.length | start ≤ charStart text i ∧ charStart text (i + 1) ≤ stop}.card

lemma bytesOf_eq (text : String) : bytesOf text = text.toList.flatMap utf8EncodeChar :=
  Text.toUTF8_eq_flatMap text

lemma length_flatMap_utf8EncodeChar (cs : List Char) :
    (cs.flatMap utf8EncodeChar).length = (String.ofList cs).utf8ByteSize := by
  induction cs with
  | nil => rfl
  | cons c cs ih =>
    rw [List.flatMap_cons, List.length_append, String.length_utf8EncodeChar, ih,
      utf8ByteSize_ofList_cons]

lemma utf8ByteSize_ofList_append (xs ys : List Char) :
    (String.ofList (xs ++ ys)).utf8ByteSize =
      (String.ofList xs).utf8ByteSize + (String.ofList ys).utf8ByteSize := by
  rw [String.ofList_append, String.utf8ByteSize_append]

/-- Characters start one behind the other. -/
lemma charStart_lt {text : String} {i j : Nat} (h : i < j) (hj : j ≤ text.length) :
    charStart text i < charStart text j := by
  have hsplit := List.take_append_drop i (text.toList.take j)
  rw [List.take_take, Nat.min_eq_left h.le] at hsplit
  have hrest : (text.toList.take j).drop i ≠ [] := by
    rw [← String.length_toList] at hj
    rw [Ne, List.drop_eq_nil_iff, List.length_take]
    omega
  obtain ⟨c, rest, hc⟩ := List.exists_cons_of_ne_nil hrest
  have hpos := c.utf8Size_pos
  rw [charStart, charStart, ← hsplit, utf8ByteSize_ofList_append, hc, utf8ByteSize_ofList_cons]
  omega

lemma charStart_le {text : String} {i j : Nat} (h : i ≤ j) (hj : j ≤ text.length) :
    charStart text i ≤ charStart text j := by
  rcases Nat.eq_or_lt_of_le h with rfl | hlt
  · exact Nat.le_refl _
  · exact (charStart_lt hlt hj).le

lemma charStart_append {text : String} {xs ys : List Char} (h : text.toList = xs ++ ys) :
    charStart text xs.length = (String.ofList xs).utf8ByteSize := by
  rw [charStart, h, List.take_left]

lemma charStart_succ {text : String} {xs rest : List Char} {c : Char}
    (h : text.toList = xs ++ c :: rest) :
    charStart text (xs.length + 1) = (String.ofList xs).utf8ByteSize + c.utf8Size := by
  have hnext : text.toList = (xs ++ [c]) ++ rest := by
    rw [h, List.append_assoc, List.singleton_append]
  have hstart := charStart_append hnext
  rwa [List.length_append, utf8ByteSize_ofList_append, utf8ByteSize_ofList_cons, String.ofList_nil,
    String.utf8ByteSize_empty] at hstart

/-! ## The bytes before a cut -/

/-- The bytes before a cut are those of the characters before it, and a part of the next one. -/
lemma CutAtByte.exists_take {text : String} {b : Nat} {xs ys : List Char}
    (h : CutAtByte text.toList b xs ys) :
    ∃ part, Text.CutShort part ∧ (bytesOf text).take b = xs.flatMap utf8EncodeChar ++ part := by
  obtain ⟨hchars, hbefore, hbehind⟩ := h
  rw [← length_flatMap_utf8EncodeChar] at hbefore hbehind
  rw [bytesOf_eq, hchars, List.flatMap_append, List.take_append, List.take_of_length_le hbefore]
  refine ⟨_, ?_, rfl⟩
  cases ys with
  | nil =>
    rw [List.flatMap_nil, List.take_nil]
    exact Text.cutShort_nil
  | cons c rest =>
    have hlt := hbehind c rest rfl
    rw [← String.length_utf8EncodeChar] at hlt
    rw [List.flatMap_cons, List.take_append_of_le_length (by omega)]
    refine ⟨c, _, (List.take_append_drop _ _).symm, ?_⟩
    rw [Ne, List.drop_eq_nil_iff]
    omega

/-- The characters before a cut fall into lines that have ended and a last line. -/
lemma exists_lastLine (xs : List Char) :
    ∃ ended line, xs = ended ++ line ∧ '\n' ∉ line ∧ (ended = [] ∨ ∃ init, ended = init ++ ['\n']) ∧
      Position.after {} xs = { line := 1 + xs.count '\n', column := 1 + line.length } := by
  obtain ⟨init, last, hpieces⟩ :=
    (List.eq_nil_or_concat' (Text.pieces '\n' xs)).resolve_left (Text.pieces_ne_nil '\n' xs)
  have hlast : last ∈ Text.pieces '\n' xs := by
    rw [hpieces]
    exact List.mem_append_right init List.mem_cons_self
  refine ⟨init.flatMap (· ++ ['\n']), last, ?_, Text.not_mem_of_mem_pieces hlast, ?_, ?_⟩
  · rw [← Text.intercalate_concat, ← hpieces, Text.intercalate_pieces]
  · rcases List.eq_nil_or_concat' init with rfl | ⟨init, line, rfl⟩
    · exact .inl rfl
    · refine .inr ⟨init.flatMap (· ++ ['\n']) ++ line, ?_⟩
      simp
  · have hlength := Text.length_pieces '\n' xs
    rw [hpieces, List.length_append, List.length_singleton] at hlength
    rw [Position.after_eq hpieces, Nat.succ.inj hlength, Nat.add_comm, Nat.add_comm last.length]

/-- What stands before a byte: lines that have ended, characters of its own line, and the first
bytes of the character that it cuts. -/
structure LineBefore (text : String) (b : Nat) (ended line : List Char) (part : List UInt8) :
    Prop where
  complete : ended = [] ∨ ∃ init, ended = init ++ ['\n']
  newline_not_mem : '\n' ∉ line
  cutShort : Text.CutShort part
  bytes : (bytesOf text).take b =
    ended.flatMap utf8EncodeChar ++ (line.flatMap utf8EncodeChar ++ part)

namespace LineBefore

variable {text : String} {b : Nat} {ended line : List Char} {part : List UInt8}

lemma newline_not_mem_bytes (h : LineBefore text b ended line part) :
    0x0a ∉ line.flatMap utf8EncodeChar ++ part := by
  intro hmem
  rcases List.mem_append.mp hmem with hmem | hmem
  · obtain ⟨c, hc, hnewline⟩ := List.mem_flatMap.mp hmem
    exact h.newline_not_mem (Text.eq_newline_of_mem hnewline ▸ hc)
  · exact Text.newline_not_mem_of_cutShort h.cutShort hmem

lemma bytes_ended (h : LineBefore text b ended line part) :
    ended.flatMap utf8EncodeChar = [] ∨
      ∃ init, ended.flatMap utf8EncodeChar = init ++ [0x0a] := by
  rcases h.complete with rfl | ⟨init, rfl⟩
  · exact .inl rfl
  · refine .inr ⟨init.flatMap utf8EncodeChar, ?_⟩
    rw [List.flatMap_append, List.flatMap_singleton, Text.utf8EncodeChar_newline]

lemma length_ended_le (h : LineBefore text b ended line part) :
    (ended.flatMap utf8EncodeChar).length ≤ b := by
  have hlength := List.length_take_le b (bytesOf text)
  rw [h.bytes, List.length_append] at hlength
  omega

/-- The line of a byte starts behind the lines that have ended before it. -/
lemma lineStart_eq (h : LineBefore text b ended line part) :
    lineStart text b = (ended.flatMap utf8EncodeChar).length := by
  have hbytes := h.bytes
  have hle := h.length_ended_le
  rw [lineStart, Nat.findGreatest_eq_iff]
  refine ⟨hle, fun hne => ?_, fun n hlt hn hstarts => ?_⟩
  · rcases h.bytes_ended with hnil | ⟨init, hinit⟩
    · exact absurd (congrArg List.length hnil) hne
    · -- the line feed that ends the last of these lines
      rw [hinit] at hle hbytes ⊢
      rw [List.length_append, List.length_singleton] at hle ⊢
      refine .inr ?_
      rw [Nat.add_sub_cancel, ← List.getElem?_take_of_lt (show _ < b from hle), hbytes]
      simp
  · -- no line feed comes after them
    have hbyte : ((bytesOf text).take b)[n - 1]? = some 0x0a := by
      rw [List.getElem?_take_of_lt (by omega)]
      exact hstarts.resolve_left (by omega)
    rw [hbytes, List.getElem?_append_right (by omega)] at hbyte
    exact h.newline_not_mem_bytes (List.mem_of_getElem? hbyte)

end LineBefore

/-- Between the start of its line and a byte lie the characters of the line before the cut. -/
lemma CutAtByte.wholeChars_eq {text : String} {b : Nat} {ended line ys : List Char}
    (h : CutAtByte text.toList b (ended ++ line) ys) :
    wholeChars text (String.ofList ended).utf8ByteSize b = line.length := by
  obtain ⟨hchars, hbefore, hbehind⟩ := h
  have hlength : text.length = (ended ++ line).length + ys.length := by
    rw [← String.length_toList, hchars, List.length_append]
  rw [← charStart_append hchars] at hbefore
  have hfirst : charStart text ended.length = (String.ofList ended).utf8ByteSize :=
    charStart_append (by rw [hchars, List.append_assoc])
  have hset : {i ∈ Finset.range text.length |
      (String.ofList ended).utf8ByteSize ≤ charStart text i ∧
      charStart text (i + 1) ≤ b} = Finset.Ico ended.length (ended ++ line).length := by
    ext i
    rw [Finset.mem_filter, Finset.mem_range, Finset.mem_Ico, ← hfirst]
    constructor
    · rintro ⟨hi, hstart, hstop⟩
      refine ⟨not_lt.mp fun hlt => ?_, not_le.mp fun hle => ?_⟩
      · have hearlier := charStart_lt hlt (by rw [hlength, List.length_append]; omega)
        omega
      · -- the character behind the cut ends beyond the byte
        cases ys with
        | nil =>
          rw [hlength, List.length_nil] at hi
          omega
        | cons c rest =>
          have hbeyond := hbehind c rest rfl
          have hlater := charStart_le (Nat.add_le_add_right hle 1) hi
          rw [charStart_succ hchars] at hlater
          omega
    · rintro ⟨hstart, hstop⟩
      refine ⟨by omega, charStart_le hstart (by omega), ?_⟩
      exact (charStart_le hstop (by omega)).trans hbefore
  rw [wholeChars, hset, Nat.card_Ico, List.length_append, Nat.add_sub_cancel_left]

/-! ## Looking up lines -/

section LineStarts

open SourceDocument (lineStartsAfter)

variable {xs ys : List UInt8} {offset n : Nat}

lemma lineStartsAfter_append (offset : Nat) (xs ys : List UInt8) :
    lineStartsAfter offset (xs ++ ys) =
      lineStartsAfter offset xs ++ lineStartsAfter (offset + xs.length) ys := by
  induction xs generalizing offset with
  | nil => rfl
  | cons b xs ih =>
    rw [List.cons_append, lineStartsAfter, lineStartsAfter, ih, List.length_cons,
      Nat.add_right_comm, Nat.add_assoc]
    split
    · rw [List.cons_append]
    · rfl

lemma length_lineStartsAfter (offset : Nat) (xs : List UInt8) :
    (lineStartsAfter offset xs).length = xs.count 0x0a := by
  induction xs generalizing offset with
  | nil => rfl
  | cons b xs ih =>
    rw [lineStartsAfter]
    split
    · rename_i hb
      rw [List.length_cons, ih, hb, List.count_cons_self]
    · rename_i hb
      rw [ih, List.count_cons_of_ne hb]

lemma lineStartsAfter_of_not_mem (h : 0x0a ∉ xs) : lineStartsAfter offset xs = [] := by
  rw [← List.length_eq_zero_iff, length_lineStartsAfter, List.count_eq_zero]
  exact h

/-- A line starts behind a byte of the data, and so not before the second one. -/
lemma bounds_of_mem_lineStartsAfter (h : n ∈ lineStartsAfter offset xs) :
    offset < n ∧ n ≤ offset + xs.length := by
  induction xs generalizing offset with
  | nil => cases h
  | cons b xs ih =>
    have hrest : n ∈ lineStartsAfter (offset + 1) xs → offset < n ∧
        n ≤ offset + (b :: xs).length := by
      intro hmem
      have hbounds := ih hmem
      rw [List.length_cons]
      omega
    rw [lineStartsAfter] at h
    split at h
    · rcases List.mem_cons.mp h with rfl | hmem
      · rw [List.length_cons]
        omega
      · exact hrest hmem
    · exact hrest h

/-- Where data ends with a line, the next line starts last. -/
lemma getLast?_lineStarts (h : xs = [] ∨ ∃ init, xs = init ++ [0x0a]) :
    (0 :: lineStartsAfter 0 xs).getLast? = some xs.length := by
  rcases h with rfl | ⟨init, rfl⟩
  · rfl
  · rw [lineStartsAfter_append, lineStartsAfter, if_pos rfl, lineStartsAfter, Nat.zero_add,
      ← List.cons_append, List.getLast?_concat, List.length_append, List.length_singleton]

end LineStarts

/-- Halving finds where the entries that are at most `x` end. The bounds close in on that place. -/
lemma bisectRight_eq {xs : Array Nat} {x k : Nat} (hle : ∀ i < k, xs.getD i 0 ≤ x)
    (hgt : ∀ i, k ≤ i → i < xs.size → x < xs.getD i 0) :
    ∀ low high, low ≤ k → k ≤ high → high ≤ xs.size → bisectRight xs x low high = k := by
  intro low high hlow hhigh hsize
  fun_induction bisectRight xs x low high with
  | case1 low high h middle hlt ih =>
    -- the entry in the middle is too large, so the place is not behind it
    have hk : k ≤ middle := by
      by_contra hk
      exact absurd (hle middle (by omega)) (by omega)
    exact ih hlow hk (by omega)
  | case2 low high h middle hnot ih =>
    have hk : middle + 1 ≤ k := by
      by_contra hk
      exact hnot (hgt middle (by omega) (by omega))
    exact ih hk hhigh hsize
  | case3 low high h => omega

lemma bisectRight_append {xs ys : List Nat} {x : Nat} (hle : ∀ n ∈ xs, n ≤ x)
    (hgt : ∀ n ∈ ys, x < n) :
    bisectRight (xs ++ ys).toArray x 0 (xs ++ ys).toArray.size = xs.length := by
  have hget : ∀ i, (xs ++ ys).toArray.getD i 0 = (xs ++ ys).getD i 0 := by simp
  apply bisectRight_eq
  · intro i hi
    rw [hget, List.getD_append _ _ _ _ hi, List.getD_eq_getElem _ _ hi]
    exact hle _ (List.getElem_mem hi)
  · intro i hi hlt
    rw [List.size_toArray, List.length_append] at hlt
    have hrest : i - xs.length < ys.length := by omega
    rw [hget, List.getD_append_right _ _ _ _ hi, List.getD_eq_getElem _ _ hrest]
    exact hgt _ (List.getElem_mem hrest)
  · exact Nat.zero_le _
  · simp
  · exact Nat.le_refl _

namespace LineBefore

open SourceDocument (lineStartsAfter)

variable {text : String} {b : Nat} {ended line : List Char} {part : List UInt8}

/-- The starts of the lines up to a byte come first. -/
lemma lineStarts_eq (h : LineBefore text b ended line part) :
    0 :: lineStartsAfter 0 (bytesOf text) =
      (0 :: lineStartsAfter 0 (ended.flatMap utf8EncodeChar)) ++
        lineStartsAfter ((bytesOf text).take b).length ((bytesOf text).drop b) := by
  have hsplit := lineStartsAfter_append 0 ((bytesOf text).take b) ((bytesOf text).drop b)
  rw [List.take_append_drop, Nat.zero_add] at hsplit
  rw [hsplit, h.bytes, lineStartsAfter_append, lineStartsAfter_of_not_mem h.newline_not_mem_bytes,
    List.append_nil, List.cons_append]

lemma length_lineStarts (h : LineBefore text b ended line part) :
    (lineStartsAfter 0 (ended.flatMap utf8EncodeChar)).length = newlinesBefore text b := by
  rw [length_lineStartsAfter, newlinesBefore, h.bytes, List.count_append,
    List.count_eq_zero.mpr h.newline_not_mem_bytes, Nat.add_zero]

/-- Halving finds the line of a byte. -/
lemma bisectRight_lineStarts (h : LineBefore text b ended line part) :
    bisectRight (0 :: lineStartsAfter 0 (bytesOf text)).toArray b 0
      (0 :: lineStartsAfter 0 (bytesOf text)).toArray.size = newlinesBefore text b + 1 := by
  rw [h.lineStarts_eq, bisectRight_append, List.length_cons, h.length_lineStarts]
  · intro n hn
    rcases List.mem_cons.mp hn with rfl | hn
    · exact Nat.zero_le b
    · have hbounds := bounds_of_mem_lineStartsAfter hn
      have hle := h.length_ended_le
      omega
  · intro n hn
    have hbounds := bounds_of_mem_lineStartsAfter hn
    -- there is something behind the byte, so that many bytes stand before it
    have hne : (bytesOf text).drop b ≠ [] := by
      intro hnil
      rw [hnil] at hn
      cases hn
    rw [Ne, List.drop_eq_nil_iff, Nat.not_le] at hne
    rw [List.length_take_of_le hne.le] at hbounds
    exact hbounds.1

/-- The line of a byte is listed with its start. -/
lemma getD_lineStarts (h : LineBefore text b ended line part) :
    (0 :: lineStartsAfter 0 (bytesOf text)).toArray.getD (newlinesBefore text b) 0 =
      (ended.flatMap utf8EncodeChar).length := by
  have hget := getLast?_lineStarts h.bytes_ended
  rw [List.getLast?_eq_getElem?, List.length_cons, h.length_lineStarts, Nat.add_sub_cancel] at hget
  have hgetD : ∀ (l : List Nat) i, l.toArray.getD i 0 = l[i]?.getD 0 := by simp
  rw [h.lineStarts_eq, hgetD, List.getElem?_append_left, hget]
  · rfl
  · rw [List.length_cons, h.length_lineStarts]
    exact Nat.lt_succ_self _

end LineBefore

/-! ## The laws -/

/-- The column of a byte counts the characters of its line that end before it, which are the whole
ones since the start of the line. -/
lemma exists_lineBefore (text : String) (b : Nat) : ∃ (ended line : List Char) (part : List UInt8),
    LineBefore text b ended line part ∧
    positionAt text b = { line := 1 + newlinesBefore text b, column := 1 + line.length } ∧
    wholeChars text (lineStart text b) b = line.length := by
  obtain ⟨xs, ys, hcut⟩ := exists_cutAtByte text.toList b
  obtain ⟨part, hpart, hbytes⟩ := hcut.exists_take
  obtain ⟨ended, line, rfl, hline, hended, hafter⟩ := exists_lastLine xs
  have hnewlines : newlinesBefore text b = (ended ++ line).count '\n' := by
    rw [newlinesBefore, hbytes, List.count_append, Text.count_flatMap_utf8EncodeChar,
      List.count_eq_zero.mpr (Text.newline_not_mem_of_cutShort hpart), Nat.add_zero]
  have hbefore : LineBefore text b ended line part :=
    ⟨hended, hline, hpart, by rw [hbytes, List.flatMap_append, List.append_assoc]⟩
  refine ⟨ended, line, part, hbefore, ?_, ?_⟩
  · rw [hnewlines, ← hafter]
    exact hcut.atByte_eq {}
  · rw [hbefore.lineStart_eq, length_flatMap_utf8EncodeChar, hcut.wholeChars_eq]

lemma positionAt_eq (text : String) (b : Nat) :
    positionAt text b =
      { line := 1 + newlinesBefore text b
        column := 1 + wholeChars text (lineStart text b) b } := by
  obtain ⟨-, line, -, -, hposition, hwhole⟩ := exists_lineBefore text b
  rw [hposition, hwhole]

namespace SourceDocument

variable (parser : ParserLibrary) (text ext : String)

lemma data_ofText : (ofText parser text ext).data = bytesOf text :=
  (bytesOf_eq text).symm

lemma slice_ofText (start stop : Nat) :
    (ofText parser text ext).slice start stop = ((bytesOf text).take stop).drop start := by
  rw [slice, data_ofText]

/-- A document finds the position that is met while its text is read. -/
lemma point_eq_positionAt (b : Nat) :
    (ofText parser text ext).point b = positionAt text b := by
  obtain ⟨ended, line, part, h, hposition, -⟩ := exists_lineBefore text b
  have hstarts : (ofText parser text ext).lineStarts =
      (0 :: lineStartsAfter 0 (bytesOf text)).toArray := by
    rw [← data_ofText parser text ext]
    rfl
  rw [hposition, point, hstarts, h.bisectRight_lineStarts, Nat.add_sub_cancel, h.getD_lineStarts,
    slice_ofText, h.bytes, List.drop_left, Text.decodeLossy_append_cutShort line h.cutShort,
    String.length_ofList, Nat.add_comm, Nat.add_comm line.length]

end SourceDocument

/-- Bytes past the end have the position of the end. -/
lemma positionAt_min (text : String) (b : Nat) :
    positionAt text (min b text.utf8ByteSize) = positionAt text b := by
  obtain ⟨xs, ys, hcut⟩ := exists_cutAtByte text.toList b
  have hsize : text.utf8ByteSize =
      (String.ofList xs).utf8ByteSize + (String.ofList ys).utf8ByteSize := by
    rw [← utf8ByteSize_ofList_append, ← hcut.chars, String.ofList_toList]
  have hmin : CutAtByte text.toList (min b text.utf8ByteSize) xs ys := by
    refine ⟨hcut.chars, ?_, fun c rest hys => ?_⟩
    · have hbefore := hcut.before
      omega
    · exact (Nat.min_le_left _ _).trans_lt (hcut.behind c rest hys)
  exact (hmin.atByte_eq {}).trans (hcut.atByte_eq {}).symm

/-- Two ends of characters cut a text into three parts. -/
lemma exists_parts {text : String} {b b' : Nat} (hb : String.Pos.Raw.IsValid text ⟨b⟩)
    (hb' : String.Pos.Raw.IsValid text ⟨b'⟩) (h : b ≤ b') :
    ∃ xs ys zs : List Char, text.toList = xs ++ ys ++ zs ∧ b = (String.ofList xs).utf8ByteSize ∧
      b' = (String.ofList (xs ++ ys)).utf8ByteSize := by
  obtain ⟨s, t, htext, hs⟩ := String.Pos.Raw.isValid_iff_exists_append.mp hb
  obtain ⟨s', t', htext', hs'⟩ := String.Pos.Raw.isValid_iff_exists_append.mp hb'
  obtain rfl : b = s.utf8ByteSize := congrArg String.Pos.Raw.byteIdx hs
  obtain rfl : b' = s'.utf8ByteSize := congrArg String.Pos.Raw.byteIdx hs'
  have hchars : s.toList ++ t.toList = s'.toList ++ t'.toList := by
    rw [← String.toList_append, ← String.toList_append, ← htext, ← htext']
  -- the longer part of the text goes on where the shorter one ends
  obtain ⟨more, hmore⟩ : ∃ more, s'.toList = s.toList ++ more := by
    rcases List.append_eq_append_iff.mp hchars with ⟨more, hmore, -⟩ | ⟨more, hmore, -⟩
    · exact ⟨more, hmore⟩
    · have hsize := utf8ByteSize_ofList_append s'.toList more
      rw [← hmore, String.ofList_toList, String.ofList_toList] at hsize
      cases more with
      | nil => exact ⟨[], by rw [hmore]; simp⟩
      | cons c more =>
        have hpos := c.utf8Size_pos
        rw [utf8ByteSize_ofList_cons] at hsize
        omega
  refine ⟨s.toList, more, t'.toList, ?_, by rw [String.ofList_toList], ?_⟩
  · rw [← hmore, ← String.toList_append, ← htext']
  · rw [← hmore, String.ofList_toList]

/-- At the ends of characters, later bytes have later positions. -/
lemma positionAt_lt {text : String} {b b' : Nat} (hb : String.Pos.Raw.IsValid text ⟨b⟩)
    (hb' : String.Pos.Raw.IsValid text ⟨b'⟩) (h : b < b') :
    positionAt text b < positionAt text b' := by
  obtain ⟨xs, ys, zs, htext, rfl, rfl⟩ := exists_parts hb hb' h.le
  have hne : ys ≠ [] := by
    rintro rfl
    rw [List.append_nil] at h
    exact Nat.lt_irrefl _ h
  have hstart : positionAt text (String.ofList xs).utf8ByteSize = Position.after {} xs :=
    positionAt_append (by rw [htext, List.append_assoc])
  rw [hstart, positionAt_append htext, Position.after_append]
  exact Position.lt_after _ hne

/-- At the ends of characters, different bytes have different positions. -/
lemma positionAt_inj {text : String} {b b' : Nat} (hb : String.Pos.Raw.IsValid text ⟨b⟩)
    (hb' : String.Pos.Raw.IsValid text ⟨b'⟩) (h : positionAt text b = positionAt text b') :
    b = b' := by
  rcases Nat.lt_trichotomy b b' with hlt | heq | hgt
  · exact absurd (h ▸ positionAt_lt hb hb' hlt) (Position.lt_irrefl _)
  · exact heq
  · exact absurd (h ▸ positionAt_lt hb' hb hgt) (Position.lt_irrefl _)

/-- The position that a document finds for a byte, inside a character and past the end too, is what
counting gives: the line feeds before it, and the whole characters since the last of them. At the
ends of characters positions grow with the bytes, and so no two of these share one. -/
theorem SourceDocument.point_counts (parser : ParserLibrary) (text ext : String) :
    let doc := ofText parser text ext
    (∀ b, doc.point b =
      { line := 1 + newlinesBefore text b
        column := 1 + wholeChars text (lineStart text b) b }) ∧
    (∀ b, doc.point b = positionAt text b) ∧
    (∀ b, doc.point (min b text.utf8ByteSize) = doc.point b) ∧
    ∀ b b', String.Pos.Raw.IsValid text ⟨b⟩ → String.Pos.Raw.IsValid text ⟨b'⟩ →
      (b < b' → doc.point b < doc.point b') ∧ (doc.point b = doc.point b' → b = b') := by
  intro doc
  have hpoint : ∀ b, doc.point b = positionAt text b := point_eq_positionAt parser text ext
  simp only [hpoint]
  exact ⟨positionAt_eq text, fun _ => trivial, positionAt_min text,
    fun b b' hb hb' => ⟨positionAt_lt hb hb', positionAt_inj hb hb'⟩⟩

/-- Characters of one to four bytes in two lines. -/
def wideText : String := "é\n€😀x"

/-- A byte inside the character of four bytes, one past the end, and the bytes before and behind
that character. -/
theorem SourceDocument.point_counts_wideText :
    let doc := ofText Lexer.library wideText "ts"
    newlinesBefore wideText 8 = 1 ∧ lineStart wideText 8 = 3 ∧ wholeChars wideText 3 8 = 1 ∧
    doc.point 8 = { line := 2, column := 2 } ∧ doc.point 99 = doc.point 11 ∧
    String.Pos.Raw.IsValid wideText ⟨6⟩ ∧ String.Pos.Raw.IsValid wideText ⟨10⟩ ∧
    doc.point 6 < doc.point 10 := by
  have hnewlines : newlinesBefore wideText 8 = 1 := by decide +kernel
  have hstart : lineStart wideText 8 = 3 := by decide +kernel
  have hwhole : wholeChars wideText 3 8 = 1 := by decide +kernel
  have hbefore : String.Pos.Raw.IsValid wideText ⟨6⟩ :=
    String.Pos.Raw.isValid_iff_exists_append.mpr ⟨"é\n€", "😀x", rfl, rfl⟩
  have hbehind : String.Pos.Raw.IsValid wideText ⟨10⟩ :=
    String.Pos.Raw.isValid_iff_exists_append.mpr ⟨"é\n€😀", "x", rfl, rfl⟩
  obtain ⟨hcounts, -, hend, hboundaries⟩ := point_counts Lexer.library wideText "ts"
  refine ⟨hnewlines, hstart, hwhole, ?_, (hend 99).symm, hbefore, hbehind, ?_⟩
  · rw [hcounts, hstart, hnewlines, hwhole]
  · exact (hboundaries 6 10 hbefore hbehind).1 (by decide)

end EntryLint
