import EntryLint.Text.Segments
import Mathlib.Tactic.Common

/-!
# Decompositions of texts

`Text.pieces` is the standard library's `List.splitOn`; this file turns that into the vocabulary
that statements about paths are made of: a text without a separator, a text cut at its first
separator, two texts with one separator between them, and the number of separators.
-/

namespace EntryLint.Text

/-! ## Pieces -/

lemma pieces_eq_splitOn (sep : Char) (cs : List Char) : pieces sep cs = cs.splitOn sep := by
  induction cs with
  | nil => rfl
  | cons c cs ih =>
    rw [List.splitOn_cons_eq_if_modifyHead, ← ih]
    by_cases h : c = sep
    · simp [pieces, h]
    · have hne := pieces_ne_nil sep cs
      simp only [pieces, if_neg h, beq_iff_eq]
      cases hp : pieces sep cs with
      | nil => exact absurd hp hne
      | cons p ps => rfl

lemma pieces_of_not_mem {sep : Char} {cs : List Char} (h : sep ∉ cs) : pieces sep cs = [cs] := by
  rw [pieces_eq_splitOn, List.splitOn_eq_singleton h]

/-- The first piece ends at the first separator. -/
lemma pieces_append_cons {sep : Char} {cs : List Char} (h : sep ∉ cs) (rest : List Char) :
    pieces sep (cs ++ sep :: rest) = cs :: pieces sep rest := by
  rw [pieces_eq_splitOn, pieces_eq_splitOn, List.splitOn_append_cons_self_of_not_mem h]

/-- Separator-free pieces are found again in the text that they make. -/
lemma pieces_intercalate {sep : Char} {ps : List (List Char)} (hne : ps ≠ [])
    (h : ∀ p ∈ ps, sep ∉ p) : pieces sep ([sep].intercalate ps) = ps := by
  rw [pieces_eq_splitOn, List.splitOn_intercalate sep h hne]

lemma pieces_cons (sep c : Char) (cs : List Char) :
    pieces sep (c :: cs) =
      if c = sep then [] :: pieces sep cs else (pieces sep cs).modifyHead (c :: ·) := by
  rw [pieces_eq_splitOn, pieces_eq_splitOn, List.splitOn_cons_eq_if_modifyHead]
  simp

/-- Pieces have no separator in them. -/
lemma not_mem_of_mem_pieces {sep : Char} {cs p : List Char} (h : p ∈ pieces sep cs) : sep ∉ p := by
  induction cs generalizing p with
  | nil =>
    rw [pieces, List.mem_singleton] at h
    rw [h]
    exact List.not_mem_nil
  | cons c cs ih =>
    rw [pieces_cons] at h
    by_cases hc : c = sep
    · rw [if_pos hc, List.mem_cons] at h
      rcases h with rfl | h
      · exact List.not_mem_nil
      · exact ih h
    · rw [if_neg hc] at h
      cases hp : pieces sep cs with
      | nil => exact absurd hp (pieces_ne_nil sep cs)
      | cons first rest =>
        rw [hp] at h ih
        rw [List.modifyHead_cons, List.mem_cons] at h
        rcases h with rfl | h
        · -- the character in front of the first piece is no separator
          rw [List.mem_cons, not_or]
          exact ⟨Ne.symm hc, ih List.mem_cons_self⟩
        · exact ih (List.mem_cons_of_mem _ h)

/-- The last piece of a text and the first one of what follows it grow together. -/
lemma pieces_append {sep : Char} {ys first : List Char} {rest : List (List Char)}
    (hys : pieces sep ys = first :: rest) (xs : List Char) :
    ∃ init last, pieces sep xs = init ++ [last] ∧
      pieces sep (xs ++ ys) = init ++ (last ++ first) :: rest := by
  induction xs with
  | nil => exact ⟨[], [], rfl, hys⟩
  | cons c xs ih =>
    obtain ⟨init, last, hxs, happend⟩ := ih
    rw [List.cons_append, pieces_cons, pieces_cons, hxs, happend]
    by_cases hc : c = sep
    · exact ⟨[] :: init, last, by simp [hc]⟩
    · cases init with
      | nil => exact ⟨[], c :: last, by simp [hc]⟩
      | cons piece init => exact ⟨(c :: piece) :: init, last, by simp [hc]⟩

lemma length_pieces (sep : Char) (cs : List Char) :
    (pieces sep cs).length = cs.count sep + 1 := by
  induction cs with
  | nil => rfl
  | cons c cs ih =>
    rw [pieces_eq_splitOn, List.splitOn_cons_eq_if_modifyHead, ← pieces_eq_splitOn]
    by_cases h : c = sep
    · simp [h, ih]
    · simp [h, ih]

/-! ## Joined texts -/

lemma intercalate_cons_eq (sep p : List Char) (ps : List (List Char)) :
    sep.intercalate (p :: ps) = p ++ ps.flatMap (sep ++ ·) := by
  induction ps generalizing p with
  | nil => simp
  | cons q qs ih => rw [List.intercalate_cons_cons, ih, List.flatMap_cons]; simp

lemma intercalate_concat (sep : List Char) (ps : List (List Char)) (last : List Char) :
    sep.intercalate (ps ++ [last]) = ps.flatMap (· ++ sep) ++ last := by
  induction ps with
  | nil => simp
  | cons p ps ih =>
    rw [List.cons_append, List.intercalate_cons_of_ne_nil (by simp), ih]
    simp

@[simp] lemma toList_join (sep : String) (parts : List String) :
    (join sep parts).toList = sep.toList.intercalate (parts.map String.toList) := by
  simp [join]

@[simp] lemma join_nil (sep : String) : join sep [] = "" := rfl

lemma join_singleton (sep part : String) : join sep [part] = part := by
  rw [← String.toList_inj]
  simp

lemma join_append {sep : String} {xs ys : List String} (hxs : xs ≠ []) (hys : ys ≠ []) :
    join sep (xs ++ ys) = join sep xs ++ sep ++ join sep ys := by
  obtain ⟨x, xs, rfl⟩ := List.exists_cons_of_ne_nil hxs
  obtain ⟨y, ys, rfl⟩ := List.exists_cons_of_ne_nil hys
  rw [← String.toList_inj]
  simp only [List.cons_append, toList_join, List.map_cons, List.map_append, intercalate_cons_eq,
    List.flatMap_append, List.flatMap_cons, String.toList_append, List.append_assoc]

lemma join_concat {sep last : String} {parts : List String} (h : parts ≠ []) :
    join sep (parts ++ [last]) = join sep parts ++ sep ++ last := by
  rw [join_append h (by simp), join_singleton]

/-! ## Split texts -/

lemma split_of_not_mem {sep : Char} {s : String} (h : sep ∉ s.toList) : split sep s = [s] := by
  simp [split, pieces_of_not_mem h]

lemma length_split (sep : Char) (s : String) : (split sep s).length = s.toList.count sep + 1 := by
  simp [split, length_pieces]

/-- Separator-free parts are found again in the text that they make. -/
lemma split_join {sep : Char} {parts : List String} (hne : parts ≠ [])
    (h : ∀ p ∈ parts, sep ∉ p.toList) : split sep (join (String.singleton sep) parts) = parts := by
  rw [split, toList_join, String.toList_singleton, pieces_intercalate (by simpa using hne)]
  · simp
  · intro p hp
    obtain ⟨part, hpart, rfl⟩ := List.mem_map.mp hp
    exact h part hpart

lemma not_mem_of_mem_split {sep : Char} {s p : String} (h : p ∈ split sep s) : sep ∉ p.toList := by
  obtain ⟨cs, hcs, rfl⟩ := List.mem_map.mp h
  rw [String.toList_ofList]
  exact not_mem_of_mem_pieces hcs

lemma join_split (sep : Char) (s : String) : join (String.singleton sep) (split sep s) = s := by
  rw [← String.toList_inj, toList_join, split, List.map_map]
  have hid : String.toList ∘ String.ofList = id := funext fun cs => String.toList_ofList
  rw [hid, List.map_id, String.toList_singleton, intercalate_pieces]

/-- `CutAt sep s a b`: the first separator of `s` stands between `a` and `b`. -/
structure CutAt (sep : Char) (s a b : String) : Prop where
  eq : s = a ++ String.singleton sep ++ b
  not_mem : sep ∉ a.toList

namespace CutAt

variable {sep : Char} {s a b : String}

lemma toList_eq (h : CutAt sep s a b) : s.toList = a.toList ++ sep :: b.toList := by
  rw [h.eq]
  simp

lemma split_eq (h : CutAt sep s a b) : split sep s = a :: split sep b := by
  simp [split, h.toList_eq, pieces_append_cons h.not_mem]

lemma count_eq (h : CutAt sep s a b) : s.toList.count sep = b.toList.count sep + 1 := by
  rw [h.toList_eq, List.count_append, List.count_eq_zero.mpr h.not_mem, List.count_cons_self]
  omega

/-- What is added behind a text stands behind its first separator. -/
lemma append (h : CutAt sep s a b) (e : String) : CutAt sep (s ++ e) a (b ++ e) where
  eq := by rw [h.eq, String.append_assoc]
  not_mem := h.not_mem

/-- A text is cut in one way only. -/
lemma unique {a' b' : String} (h : CutAt sep s a b) (h' : CutAt sep s a' b') :
    a = a' ∧ b = b' := by
  have hsplit : a :: split sep b = a' :: split sep b' := h.split_eq.symm.trans h'.split_eq
  have ha : a = a' := (List.cons.inj hsplit).1
  have hb : a.toList ++ sep :: b.toList = a.toList ++ sep :: b'.toList := by
    rw [← h.toList_eq, h'.toList_eq, ha]
  exact ⟨ha, String.toList_inj.mp (List.cons.inj (List.append_cancel_left hb)).2⟩

end CutAt

/-- Separator-free parts are cut off a text that starts with them. -/
lemma split_join_append {sep : Char} {parts : List String} (hne : parts ≠ [])
    (h : ∀ p ∈ parts, sep ∉ p.toList) (rest : String) :
    split sep (join (String.singleton sep) parts ++ String.singleton sep ++ rest) =
      parts ++ split sep rest := by
  induction parts with
  | nil => exact absurd rfl hne
  | cons part parts ih =>
    rw [List.forall_mem_cons] at h
    by_cases hnil : parts = []
    · subst hnil
      rw [join_singleton]
      exact CutAt.split_eq ⟨rfl, h.1⟩
    · have hcut : CutAt sep
          (join (String.singleton sep) (part :: parts) ++ String.singleton sep ++ rest)
          part (join (String.singleton sep) parts ++ String.singleton sep ++ rest) := by
        refine ⟨?_, h.1⟩
        rw [show part :: parts = [part] ++ parts from rfl, join_append (by simp) hnil,
          join_singleton]
        simp only [String.append_assoc]
      rw [hcut.split_eq, ih hnil h.2, List.cons_append]

/-- A text that holds a separator is cut at the first one. -/
lemma exists_cutAt {sep : Char} {s : String} (h : sep ∈ s.toList) : ∃ a b, CutAt sep s a b := by
  obtain ⟨as, bs, hs, has⟩ := List.eq_append_cons_of_mem h
  refine ⟨String.ofList as, String.ofList bs, ?_, by simpa using has⟩
  rw [← String.toList_inj, hs]
  simp

/-- A text has no separator, exactly one, or at least two, and is cut accordingly. -/
lemma separator_cases (sep : Char) (s : String) :
    sep ∉ s.toList ∨ (∃ a b, CutAt sep s a b ∧ sep ∉ b.toList) ∨
      ∃ a b, CutAt sep s a b ∧ sep ∈ b.toList := by
  by_cases hs : sep ∈ s.toList
  · obtain ⟨a, b, hcut⟩ := exists_cutAt hs
    by_cases hb : sep ∈ b.toList
    · exact Or.inr (Or.inr ⟨a, b, hcut, hb⟩)
    · exact Or.inr (Or.inl ⟨a, b, hcut, hb⟩)
  · exact Or.inl hs

/-! ## Starts of texts -/

lemma startsWith_iff {start s : String} :
    startsWith start s = true ↔ ∃ rest, s = start ++ rest := by
  rw [startsWith, List.isPrefixOf_iff_prefix]
  constructor
  · rintro ⟨rest, hrest⟩
    refine ⟨String.ofList rest, ?_⟩
    rw [← String.toList_inj]
    simp [hrest]
  · rintro ⟨rest, rfl⟩
    exact ⟨rest.toList, by simp⟩

lemma endsWith_iff {ending s : String} :
    endsWith ending s = true ↔ ∃ start, s = start ++ ending := by
  rw [endsWith, List.isSuffixOf_iff_suffix]
  constructor
  · rintro ⟨start, hstart⟩
    refine ⟨String.ofList start, ?_⟩
    rw [← String.toList_inj]
    simp [hstart]
  · rintro ⟨start, rfl⟩
    exact ⟨start.toList, by simp⟩

/-- A start that ends with a separator does not come about by adding a text without one. -/
lemma exists_append_iff {sep : Char} {e : String} (he : sep ∉ e.toList) (start p : String) :
    (∃ r, p ++ e = start ++ String.singleton sep ++ r) ↔
      ∃ r, p = start ++ String.singleton sep ++ r := by
  constructor
  · rintro ⟨r, h⟩
    rw [← String.toList_inj] at h
    simp only [String.toList_append, String.toList_singleton] at h
    rcases List.append_eq_append_iff.mp h with ⟨added, hstart, hrest⟩ | ⟨rest, hp, -⟩
    · -- the start ends with the separator, which is not among what was added
      rcases List.eq_nil_or_concat added with rfl | ⟨init, last, rfl⟩
      · refine ⟨"", ?_⟩
        rw [← String.toList_inj]
        simpa using hstart.symm
      · rw [List.concat_eq_append, ← List.append_assoc] at hstart
        obtain ⟨-, rfl⟩ := List.append_singleton_inj.mp hstart
        exact absurd (by rw [hrest]; simp) he
    · refine ⟨String.ofList rest, ?_⟩
      rw [← String.toList_inj]
      simpa using hp
  · rintro ⟨r, rfl⟩
    exact ⟨r ++ e, String.append_assoc⟩

@[simp] lemma dropFirst_append (start rest : String) :
    dropFirst start.length (start ++ rest) = rest := by
  simp [dropFirst, ← String.length_toList]

lemma after?_append (start rest : String) : after? start (start ++ rest) = some rest := by
  have h : startsWith start (start ++ rest) = true := startsWith_iff.mpr ⟨rest, rfl⟩
  simp [after?, h, ← String.length_toList]

lemma after?_eq_none {start s : String} (h : ¬∃ rest, s = start ++ rest) :
    after? start s = none := by
  rw [← startsWith_iff] at h
  simp [after?, h]

end EntryLint.Text
