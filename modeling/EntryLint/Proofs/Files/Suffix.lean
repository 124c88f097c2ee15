import EntryLint.Proofs.Files.Path
import Mathlib.Data.List.TakeWhile

/-!
# Suffixes of file names

There are two readings of the end of a file name. `splitSuffix` passes over leading dots and takes
what the last dot opens, even when that is nothing; `nameSuffix` asks for something on either side
of the last dot. Both are read off the cut at the last dot (`LastDot`), and they agree wherever the
first finds more than a dot (`nameSuffix_eq_splitSuffix`). The last part of a path with an extension
is a proper name, so it is also the last part of the path as it is opened (`getLast?_under_ofText`).
-/

namespace EntryLint

/-! ## The last dot -/

/-- The last dot of a name stands between a stem and a tail. -/
structure LastDot (name : String) (stem tail : List Char) : Prop where
  eq : name.toList = stem ++ '.' :: tail
  noDot : '.' ∉ tail

lemma exists_lastDot {name : String} (h : '.' ∈ name.toList) :
    ∃ stem tail, LastDot name stem tail := by
  obtain ⟨as, bs, heq, hnot⟩ := List.eq_append_cons_of_mem (List.mem_reverse.mpr h)
  refine ⟨bs.reverse, as.reverse, ?_, mt List.mem_reverse.mp hnot⟩
  rw [← List.reverse_reverse name.toList, heq]
  simp

namespace LastDot

variable {name : String} {stem tail : List Char}

/-- What stands behind the last dot, read from the end. -/
lemma takeWhile_reverse (h : '.' ∉ tail) (stem : List Char) :
    ((stem ++ '.' :: tail).reverse.takeWhile (· ≠ '.')).reverse = tail := by
  have hall : ∀ c ∈ tail.reverse, decide (c ≠ '.') = true := by
    intro c hc
    rw [decide_eq_true_eq]
    rintro rfl
    exact h (List.mem_reverse.mp hc)
  rw [List.reverse_append, List.reverse_cons, List.append_assoc, List.takeWhile_append_of_pos hall]
  simp

/-- Leading dots are passed over; a dot behind another character opens an extension. -/
lemma splitSuffix_eq (h : LastDot name stem tail) (hstem : ∃ c ∈ stem, c ≠ '.') :
    splitSuffix name = String.ofList ('.' :: tail) := by
  have hne : (stem.dropWhile (· = '.')).isEmpty = false := by
    rw [List.isEmpty_eq_false_iff, Ne, List.dropWhile_eq_nil_iff]
    intro hall
    obtain ⟨c, hc, hne⟩ := hstem
    exact hne (of_decide_eq_true (hall c hc))
  have hrest : name.toList.dropWhile (· = '.') = stem.dropWhile (· = '.') ++ '.' :: tail := by
    rw [h.eq, List.dropWhile_append, hne, if_neg Bool.false_ne_true]
  simp only [splitSuffix, hrest, takeWhile_reverse h.noDot]
  rw [if_pos (by simp)]

/-- A name that is dots up to its last dot has no extension. -/
lemma splitSuffix_of_dots (h : LastDot name stem tail) (hstem : ∀ c ∈ stem, c = '.') :
    splitSuffix name = "" := by
  have hdots : stem.dropWhile (· = '.') = [] := by
    rw [List.dropWhile_eq_nil_iff]
    exact fun c hc => decide_eq_true (hstem c hc)
  have hrest : name.toList.dropWhile (· = '.') = tail.dropWhile (· = '.') := by
    rw [h.eq, List.dropWhile_append, hdots, List.isEmpty_nil, if_pos rfl,
      List.dropWhile_cons_of_pos (by decide)]
  have hnot : '.' ∉ tail.dropWhile (· = '.') :=
    fun hmem => h.noDot ((List.dropWhile_sublist _).subset hmem)
  simp only [splitSuffix, hrest]
  rw [if_neg (by simpa using hnot)]

/-- The suffix of a name needs a stem and a tail. -/
lemma nameSuffix_eq (h : LastDot name stem tail) (hstem : stem ≠ []) (htail : tail ≠ []) :
    nameSuffix name = String.ofList ('.' :: tail) := by
  have hread : (name.toList.reverse.takeWhile (· ≠ '.')).reverse = tail := by
    rw [h.eq, takeWhile_reverse h.noDot]
  have hlength : name.length - tail.length - 1 = stem.length := by
    rw [← String.length_toList, h.eq, List.length_append, List.length_cons]
    omega
  have hcontains : Text.contains '.' name = true := by
    rw [Text.contains, h.eq]
    simp
  simp only [nameSuffix, hread, hlength, hcontains]
  rw [if_pos (by simpa using ⟨List.length_pos_iff.mpr hstem, htail⟩)]

end LastDot

/-! ## Two readings of one name -/

/-- The extension of a name is empty, or a dot and what stands behind the last dot of the name. -/
lemma splitSuffix_cases (name : String) :
    splitSuffix name = "" ∨ ∃ stem tail, LastDot name stem tail ∧ (∃ c ∈ stem, c ≠ '.') ∧
      splitSuffix name = String.ofList ('.' :: tail) := by
  by_cases hdot : '.' ∈ name.toList
  · obtain ⟨stem, tail, hcut⟩ := exists_lastDot hdot
    by_cases hstem : ∃ c ∈ stem, c ≠ '.'
    · exact .inr ⟨stem, tail, hcut, hstem, hcut.splitSuffix_eq hstem⟩
    · push Not at hstem
      exact .inl (hcut.splitSuffix_of_dots hstem)
  · have hnot : '.' ∉ name.toList.dropWhile (· = '.') :=
      fun hmem => hdot ((List.dropWhile_sublist _).subset hmem)
    refine .inl ?_
    simp only [splitSuffix]
    rw [if_neg (by simpa using hnot)]

/-- Both readings agree where the first finds more than a dot. -/
lemma nameSuffix_eq_splitSuffix {name : String} (h : 2 ≤ (splitSuffix name).length) :
    nameSuffix name = splitSuffix name := by
  rcases splitSuffix_cases name with hempty | ⟨stem, tail, hcut, ⟨c, hc, -⟩, hsuffix⟩
  · rw [hempty] at h
    exact absurd h (by decide)
  · have htail : tail ≠ [] := by
      rintro rfl
      rw [hsuffix] at h
      exact absurd h (by decide)
    rw [hcut.nameSuffix_eq (List.ne_nil_of_mem hc) htail, hsuffix]

/-! ## The last part of a path -/

lemma exists_split_eq_concat (rel : String) :
    ∃ init, Text.split '/' rel = init ++ [lastSegment rel] := by
  have hne : Text.split '/' rel ≠ [] := by
    rw [Text.split, Ne, List.map_eq_nil_iff]
    exact Text.pieces_ne_nil _ _
  refine ⟨(Text.split '/' rel).dropLast, ?_⟩
  rw [lastSegment, List.getLast?_eq_some_getLast hne]
  exact (List.dropLast_concat_getLast hne).symm

/-- Where the last part of a path is a name, the path leads to that name from every base. -/
lemma getLast?_under_ofText (base : Path) {rel : String} (hempty : lastSegment rel ≠ "")
    (hdot : lastSegment rel ≠ ".") :
    (base.under (Path.ofText rel)).parts.getLast? = some (lastSegment rel) := by
  obtain ⟨init, hsplit⟩ := exists_split_eq_concat rel
  have hparts : ∃ before, (Path.ofText rel).parts = before ++ [lastSegment rel] := by
    refine ⟨init.filter fun part => part ≠ "" && part ≠ ".", ?_⟩
    rw [Path.ofText, hsplit, List.filter_append, List.filter_cons_of_pos (by simp [hempty, hdot]),
      List.filter_nil]
  obtain ⟨before, hparts⟩ := hparts
  rw [Path.under]
  split
  · rw [hparts, List.getLast?_concat]
  · simp only [hparts, ← List.append_assoc, List.getLast?_concat]

/-- A path whose extension is more than a dot is opened with that extension. -/
lemma nameSuffix_under_ofText (base : Path) {rel : String} (h : 2 ≤ (pathExtension rel).length) :
    nameSuffix ((base.under (Path.ofText rel)).parts.getLast?.getD "") = pathExtension rel := by
  have hname : ∀ name, splitSuffix name = "" → lastSegment rel ≠ name := by
    rintro name hnone rfl
    rw [pathExtension, hnone] at h
    exact absurd h (by decide)
  rw [getLast?_under_ofText base (hname "" rfl) (hname "." rfl), Option.getD_some, pathExtension,
    nameSuffix_eq_splitSuffix h]

end EntryLint
