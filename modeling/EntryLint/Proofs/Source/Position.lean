import EntryLint.Proofs.Text.Segments
import EntryLint.Source.Position
import Mathlib.Data.List.Induction

/-!
# Places in a text

`Position.after` counts lines and columns while a text is read, and `positionAt` does so up to a
byte. This file compares that with a text that is cut into its lines: the position after a part of a
text is a place of the text (`isPlace_after`), two such places have between them what was read on
the way (`textBetween_after`), and reading on leads to later positions (`Position.lt_after`).
Counting bytes up to the end of a part leads to the same place (`positionAt_append`), and counting
to any byte leads to where the whole characters before it end (`CutAtByte.atByte_eq`).
-/

namespace EntryLint

namespace Position

/-! ## Positions by reading -/

/-- The position after a character. -/
def next (p : Position) (c : Char) : Position :=
  if c = '\n' then { line := p.line + 1, column := 1 } else { p with column := p.column + 1 }

/-- The position after some characters. -/
def after (p : Position) (cs : List Char) : Position :=
  cs.foldl next p

/-- The position of a byte of a text that starts at a position: a byte inside a character has the
position of the character, and bytes past the end have that of the end. -/
def atByte : List Char → Nat → Position → Position
  | [], _, p => p
  | c :: cs, n, p => if n < c.utf8Size then p else atByte cs (n - c.utf8Size) (p.next c)

end Position

/-- The position of a byte of a text. -/
def positionAt (text : String) (offset : Nat) : Position :=
  Position.atByte text.toList offset {}

namespace Position

/-! ## Order -/

instance : LT Position :=
  ⟨fun p q => p.line < q.line ∨ p.line = q.line ∧ p.column < q.column⟩

instance : LE Position :=
  ⟨fun p q => p.line < q.line ∨ p.line = q.line ∧ p.column ≤ q.column⟩

lemma lt_def {p q : Position} :
    p < q ↔ p.line < q.line ∨ p.line = q.line ∧ p.column < q.column := Iff.rfl

lemma le_def {p q : Position} :
    p ≤ q ↔ p.line < q.line ∨ p.line = q.line ∧ p.column ≤ q.column := Iff.rfl

lemma lt_of_lt_of_le {p q r : Position} (hpq : p < q) (hqr : q ≤ r) : p < r := by
  rw [lt_def] at hpq ⊢
  rw [le_def] at hqr
  omega

lemma lt_irrefl (p : Position) : ¬p < p := by
  rw [lt_def]
  omega

lemma lt_next (p : Position) (c : Char) : p < p.next c := by
  rw [lt_def, next]
  split
  · exact .inl (Nat.lt_succ_self _)
  · exact .inr ⟨rfl, Nat.lt_succ_self _⟩

/-! ## Reading on -/

@[simp] lemma after_nil (p : Position) : p.after [] = p := rfl

@[simp] lemma after_cons (p : Position) (c : Char) (cs : List Char) :
    p.after (c :: cs) = (p.next c).after cs := rfl

lemma after_append (p : Position) (xs ys : List Char) :
    p.after (xs ++ ys) = (p.after xs).after ys :=
  List.foldl_append

lemma le_after (p : Position) (cs : List Char) : p ≤ p.after cs := by
  induction cs generalizing p with
  | nil => exact .inr ⟨rfl, Nat.le_refl _⟩
  | cons c cs ih =>
    have hlt := lt_of_lt_of_le (lt_next p c) (ih (p.next c))
    rw [lt_def] at hlt
    rw [le_def, after_cons]
    omega

/-- Whatever is read, the position after it is a later one. -/
lemma lt_after (p : Position) {cs : List Char} (h : cs ≠ []) : p < p.after cs := by
  obtain ⟨c, rest, rfl⟩ := List.exists_cons_of_ne_nil h
  exact lt_of_lt_of_le (lt_next p c) (le_after (p.next c) rest)

lemma after_of_newline_not_mem (p : Position) {cs : List Char} (h : '\n' ∉ cs) :
    p.after cs = { p with column := p.column + cs.length } := by
  induction cs generalizing p with
  | nil => rfl
  | cons c cs ih =>
    have hc : c ≠ '\n' := fun hc => h (hc ▸ List.mem_cons_self)
    have hcs : '\n' ∉ cs := fun hmem => h (List.mem_cons_of_mem _ hmem)
    rw [after_cons, ih _ hcs, next, if_neg hc, List.length_cons]
    simp only [Position.mk.injEq, true_and]
    omega

/-- After a line comes the start of the next one. -/
lemma after_line (p : Position) {cs : List Char} (h : '\n' ∉ cs) :
    p.after (cs ++ ['\n']) = { line := p.line + 1, column := 1 } := by
  rw [after_append, after_of_newline_not_mem p h]
  rfl

/-- Lines are counted by line feeds, and columns by what stands after the last of them. -/
lemma after_eq {cs last : List Char} {init : List (List Char)}
    (h : Text.pieces '\n' cs = init ++ [last]) :
    after {} cs = { line := init.length + 1, column := last.length + 1 } := by
  induction cs using List.reverseRecOn generalizing init last with
  | nil =>
    have hsame : [] ++ [[]] = init ++ [last] := h
    obtain ⟨hinit, hlast⟩ := List.append_inj' hsame rfl
    rw [← hinit, ← List.singleton_inj.mp hlast]
    rfl
  | append_singleton cs c ih =>
    rw [after_append]
    by_cases hc : c = '\n'
    -- a line feed closes a piece and opens an empty one
    · subst hc
      obtain ⟨init', last', hcs, happend⟩ :=
        Text.pieces_append (show Text.pieces '\n' ['\n'] = [] :: [[]] from rfl) cs
      have hsame : (init' ++ [last']) ++ [[]] = init ++ [last] := by
        rw [← h, happend]
        simp
      obtain ⟨hinit, hlast⟩ := List.append_inj' hsame rfl
      rw [ih hcs, ← hinit, ← List.singleton_inj.mp hlast]
      simp [next]
    -- any other character belongs to the last piece
    · have hpiece : Text.pieces '\n' [c] = [[c]] :=
        Text.pieces_of_not_mem (by simpa using Ne.symm hc)
      obtain ⟨init', last', hcs, happend⟩ := Text.pieces_append hpiece cs
      obtain ⟨hinit, hlast⟩ := List.append_inj' (happend.symm.trans h) rfl
      rw [ih hcs, ← hinit, ← List.singleton_inj.mp hlast]
      simp [next, hc]

end Position

/-! ## Places -/

/-- The lines of a text. Only line feeds separate them. -/
def linesOf (text : String) : List (List Char) :=
  Text.pieces '\n' text.toList

/-- A place in a text: a line of it, and a character of that line or its end. -/
structure IsPlace (text : String) (p : Position) : Prop where
  line : 1 ≤ p.line
  column : 1 ≤ p.column
  inside : ∃ cs, (linesOf text)[p.line - 1]? = some cs ∧ p.column ≤ cs.length + 1

/-- The lines of a text up to a place. -/
def linesUpTo (text : String) (p : Position) : List (List Char) :=
  (linesOf text).take (p.line - 1) ++
    [((linesOf text).getD (p.line - 1) []).take (p.column - 1)]

/-- The text between two places: of the lines up to the second place, those from the first one on.
-/
def textBetween (text : String) (start stop : Position) : String :=
  let lines := (linesUpTo text stop).drop (start.line - 1)
  String.ofList (['\n'].intercalate (lines.modifyHead (List.drop (start.column - 1))))

section

variable {text : String} {xs ys zs : List Char}

lemma isPlace_after (h : text.toList = xs ++ ys) : IsPlace text (Position.after {} xs) := by
  obtain ⟨first, rest, hys⟩ := List.exists_cons_of_ne_nil (Text.pieces_ne_nil '\n' ys)
  obtain ⟨init, last, hxs, happend⟩ := Text.pieces_append hys xs
  rw [Position.after_eq hxs]
  refine ⟨by simp, by simp, last ++ first, ?_, by simp⟩
  rw [linesOf, h, happend]
  simp

/-- The lines up to the end of a part of a text are the lines of that part. -/
lemma linesUpTo_after (h : text.toList = xs ++ ys) :
    linesUpTo text (Position.after {} xs) = Text.pieces '\n' xs := by
  obtain ⟨first, rest, hys⟩ := List.exists_cons_of_ne_nil (Text.pieces_ne_nil '\n' ys)
  obtain ⟨init, last, hxs, happend⟩ := Text.pieces_append hys xs
  rw [Position.after_eq hxs, hxs, linesUpTo, linesOf, h, happend]
  simp

/-- Between the places before and after a part of a text stands that part. -/
lemma textBetween_after (h : text.toList = xs ++ ys ++ zs) :
    textBetween text (Position.after {} xs) (Position.after {} (xs ++ ys)) = String.ofList ys := by
  obtain ⟨first, rest, hys⟩ := List.exists_cons_of_ne_nil (Text.pieces_ne_nil '\n' ys)
  obtain ⟨init, last, hxs, happend⟩ := Text.pieces_append hys xs
  have hlines : ((linesUpTo text (Position.after {} (xs ++ ys))).drop init.length).modifyHead
      (List.drop last.length) = Text.pieces '\n' ys := by
    rw [linesUpTo_after h, happend, hys]
    simp
  rw [Position.after_eq hxs, textBetween]
  simp only [Nat.add_sub_cancel, hlines, Text.intercalate_pieces]

end

/-! ## Bytes -/

lemma utf8ByteSize_ofList_cons (c : Char) (cs : List Char) :
    (String.ofList (c :: cs)).utf8ByteSize = c.utf8Size + (String.ofList cs).utf8ByteSize := by
  have hcons : String.ofList (c :: cs) = String.singleton c ++ String.ofList cs := by
    rw [← String.toList_inj]
    simp
  rw [hcons, String.utf8ByteSize_append, String.utf8ByteSize_singleton]

/-- Characters are cut at a byte: those that end there or before stand before the cut, and the one
behind it goes on beyond the byte. -/
structure CutAtByte (cs : List Char) (n : Nat) (xs ys : List Char) : Prop where
  chars : cs = xs ++ ys
  before : (String.ofList xs).utf8ByteSize ≤ n
  behind : ∀ c rest, ys = c :: rest → n < (String.ofList xs).utf8ByteSize + c.utf8Size

lemma exists_cutAtByte (cs : List Char) (n : Nat) : ∃ xs ys, CutAtByte cs n xs ys := by
  induction cs generalizing n with
  | nil => exact ⟨[], [], rfl, Nat.zero_le n, fun _ _ h => by cases h⟩
  | cons c cs ih =>
    by_cases hc : n < c.utf8Size
    · refine ⟨[], c :: cs, rfl, Nat.zero_le n, ?_⟩
      rintro c' rest ⟨⟩
      exact Nat.lt_add_left _ hc
    · obtain ⟨xs, ys, hcs, hbefore, hbehind⟩ := ih (n - c.utf8Size)
      refine ⟨c :: xs, ys, by rw [hcs, List.cons_append], ?_, fun c' rest hys => ?_⟩
      · rw [utf8ByteSize_ofList_cons]
        omega
      · have hlt := hbehind c' rest hys
        rw [utf8ByteSize_ofList_cons]
        omega

/-- The position of a byte is the one after the characters before its cut. -/
lemma CutAtByte.atByte_eq {cs xs ys : List Char} {n : Nat} (h : CutAtByte cs n xs ys)
    (p : Position) :
    Position.atByte cs n p = p.after xs := by
  obtain ⟨rfl, hbefore, hbehind⟩ := h
  induction xs generalizing n p with
  | nil =>
    cases ys with
    | nil => rfl
    | cons c rest =>
      have hlt := hbehind c rest rfl
      rw [String.ofList_nil, String.utf8ByteSize_empty, Nat.zero_add] at hlt
      exact if_pos hlt
  | cons c xs ih =>
    rw [utf8ByteSize_ofList_cons] at hbefore hbehind
    rw [List.cons_append, Position.atByte, if_neg (by omega), Position.after_cons]
    apply ih (p.next c) (by omega)
    intro c' rest hys
    have hlt := hbehind c' rest hys
    omega

/-- Counting bytes and reading characters lead to the same place. -/
lemma positionAt_append {text : String} {xs ys : List Char} (h : text.toList = xs ++ ys) :
    positionAt text (String.ofList xs).utf8ByteSize = Position.after {} xs := by
  have hcut : CutAtByte text.toList (String.ofList xs).utf8ByteSize xs ys :=
    ⟨h, Nat.le_refl _, fun c _ _ => Nat.lt_add_of_pos_right c.utf8Size_pos⟩
  exact hcut.atByte_eq {}

end EntryLint
