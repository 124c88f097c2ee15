import EntryLint.Proofs.Text.Utf8
import EntryLint.Text.Lower
import Mathlib.Data.List.TakeWhile

/-!
# Texts in lower case

Capitals become small letters, which are no marks, and nothing else changes: a mark stands in a text
exactly if it stands there in lower case (`mem_lowerChars_iff`). What a letter becomes depends on
its surroundings only by the letters in them, so leading dots may be dropped before or after the
case (`dropWhile_lowerChars`).
-/

namespace EntryLint.Text

/-! ## Characters -/

/-- Capitals and their small letters stand behind the marks, and small letters are characters. -/
lemma capitalRanges_bounds : ∀ e ∈ capitalRanges,
    0x41 ≤ e.1 ∧ (0x61 : Int) ≤ e.1 + e.2.2.2 ∧
      ((e.2.1 + e.2.2.2 : Int) < 0xd800 ∨
        (0xdfff : Int) < e.1 + e.2.2.2 ∧ (e.2.1 + e.2.2.2 : Int) < 0x110000) := by
  decide +kernel

/-- A character is its own small letter, or both stand behind the marks. -/
lemma lowerChar_cases (c : Char) :
    lowerChar c = c ∨ 0x41 ≤ c.toNat ∧ 0x61 ≤ (lowerChar c).toNat := by
  unfold lowerChar
  simp only
  split
  · rename_i first last step distance hfind
    have hin := List.find?_some hfind
    simp only [Bool.and_eq_true, decide_eq_true_eq] at hin
    obtain ⟨hcapital, hsmall, hvalid⟩ :=
      capitalRanges_bounds _ (List.mem_of_find?_eq_some hfind)
    simp only at hcapital hsmall hvalid
    have hchar : ((c.toNat : Int) + distance).toNat.isValidChar := by
      unfold Nat.isValidChar
      omega
    have hnat : (Char.ofNat ((c.toNat : Int) + distance).toNat).toNat =
        ((c.toNat : Int) + distance).toNat := val_ofNat hchar
    rw [hnat]
    omega
  · exact .inl rfl

/-- A mark is the small form of itself only. -/
lemma lowerChar_eq_iff {c d : Char} (hd : d.toNat < 0x41) : lowerChar c = d ↔ c = d := by
  rcases lowerChar_cases c with heq | ⟨hcapital, hsmall⟩
  · rw [heq]
  · constructor
    · rintro rfl
      omega
    · rintro rfl
      omega

/-! ## Texts -/

/-- What a character becomes between others. -/
def small (before : List Char) (c : Char) (cs : List Char) : List Char :=
  if c = '\u0130' then ['i', '\u0307']
  else if c = '\u03a3' then
    if meetsCased before && !meetsCased cs then ['\u03c2'] else ['\u03c3']
  else [lowerChar c]

lemma lowerChars_cons (before : List Char) (c : Char) (cs : List Char) :
    lowerChars before (c :: cs) = small before c cs ++ lowerChars (c :: before) cs := rfl

lemma small_ne_nil (before : List Char) (c : Char) (cs : List Char) : small before c cs ≠ [] := by
  unfold small
  split_ifs
  all_goals exact List.cons_ne_nil _ _

lemma mem_small_iff {d : Char} (hd : d.toNat < 0x41) (before : List Char) (c : Char)
    (cs : List Char) : d ∈ small before c cs ↔ c = d := by
  have hne : ∀ e : Char, 0x41 ≤ e.toNat → d ≠ e := by
    rintro e he rfl
    omega
  unfold small
  split_ifs with hi hsigma hfinal
  · simp [hi, hne 'i' (by decide), hne '\u0307' (by decide), (hne '\u0130' (by decide)).symm]
  · simp [hsigma, hne '\u03c2' (by decide), (hne '\u03a3' (by decide)).symm]
  · simp [hsigma, hne '\u03c3' (by decide), (hne '\u03a3' (by decide)).symm]
  · rw [List.mem_singleton, eq_comm, lowerChar_eq_iff hd]

/-- A mark stands in a text exactly if it stands there in lower case. -/
lemma mem_lowerChars_iff {d : Char} (hd : d.toNat < 0x41) (before cs : List Char) :
    d ∈ lowerChars before cs ↔ d ∈ cs := by
  induction cs generalizing before with
  | nil => exact Iff.rfl
  | cons c cs ih =>
    rw [lowerChars_cons, List.mem_append, mem_small_iff hd, ih, List.mem_cons, eq_comm]

lemma lowerChars_eq_nil_iff {before cs : List Char} : lowerChars before cs = [] ↔ cs = [] := by
  cases cs with
  | nil => exact Iff.rfl
  | cons c cs => simp [lowerChars_cons, small_ne_nil]

lemma toList_lower (s : String) : (lower s).toList = lowerChars [] s.toList := by
  rw [lower, String.toList_ofList]

lemma lower_eq_empty_iff {s : String} : lower s = "" ↔ s = "" := by
  rw [← String.toList_inj, toList_lower, String.toList_empty, lowerChars_eq_nil_iff,
    String.toList_eq_nil_iff]

/-! ## Leading dots -/

lemma small_dot (before cs : List Char) : small before '.' cs = ['.'] := by
  unfold small
  rw [if_neg (by decide), if_neg (by decide), (lowerChar_eq_iff (by decide)).mpr rfl]

/-- Dots behind a text are no letters. -/
lemma meetsCased_append_dots (cs : List Char) {dots : List Char} (h : ∀ c ∈ dots, c = '.') :
    meetsCased (cs ++ dots) = meetsCased cs := by
  have hdot : isInRanges passedRanges '.' = true := by decide
  induction cs with
  | nil =>
    have hpassed : dots.dropWhile (isInRanges passedRanges) = [] := by
      refine List.dropWhile_eq_nil_iff.mpr fun c hc => ?_
      rw [h c hc, hdot]
    unfold meetsCased
    rw [List.nil_append, hpassed]
    rfl
  | cons c cs ih =>
    unfold meetsCased at ih ⊢
    by_cases hc : isInRanges passedRanges c = true
    · rw [List.cons_append, List.dropWhile_cons_of_pos hc, List.dropWhile_cons_of_pos hc, ih]
    · rw [List.cons_append, List.dropWhile_cons_of_neg hc, List.dropWhile_cons_of_neg hc]

/-- Dots at the very front change nothing behind them. -/
lemma lowerChars_append_dots (before cs : List Char) {dots : List Char} (h : ∀ c ∈ dots, c = '.') :
    lowerChars (before ++ dots) cs = lowerChars before cs := by
  induction cs generalizing before with
  | nil => rfl
  | cons c cs ih =>
    rw [lowerChars_cons, lowerChars_cons, small, meetsCased_append_dots before h,
      ← List.cons_append, ih]
    rfl

/-- Leading dots stay as they are. -/
lemma lowerChars_dots {dots : List Char} (h : ∀ c ∈ dots, c = '.') (cs : List Char) :
    lowerChars [] (dots ++ cs) = dots ++ lowerChars [] cs := by
  suffices hbefore : ∀ before, (∀ c ∈ before, c = '.') →
      lowerChars before (dots ++ cs) = dots ++ lowerChars [] cs from
    hbefore [] fun _ hc => absurd hc List.not_mem_nil
  induction dots with
  | nil => exact fun before hbefore => lowerChars_append_dots [] cs hbefore
  | cons c dots ih =>
    intro before hbefore
    obtain ⟨rfl, hdots⟩ := List.forall_mem_cons.mp h
    rw [List.cons_append, lowerChars_cons, small_dot,
      ih hdots ('.' :: before) (List.forall_mem_cons.mpr ⟨rfl, hbefore⟩)]
    rfl

/-- Leading dots may be dropped before or after the case. -/
lemma dropWhile_lowerChars (cs : List Char) :
    (lowerChars [] cs).dropWhile (· = '.') = lowerChars [] (cs.dropWhile (· = '.')) := by
  induction cs with
  | nil => rfl
  | cons c cs ih =>
    by_cases hc : c = '.'
    · have hdot : ∀ d ∈ [c], d = '.' := List.forall_mem_singleton.mpr hc
      rw [← List.singleton_append, lowerChars_dots hdot, List.singleton_append,
        List.dropWhile_cons_of_pos (by simpa using hc), ih, List.singleton_append,
        List.dropWhile_cons_of_pos (by simpa using hc)]
    · obtain ⟨d, ds, hsmall⟩ := List.exists_cons_of_ne_nil (small_ne_nil [] c cs)
      have hd : d ≠ '.' := by
        rintro rfl
        exact hc ((mem_small_iff (by decide) [] c cs).mp (hsmall ▸ List.mem_cons_self))
      rw [lowerChars_cons, hsmall, List.cons_append, List.dropWhile_cons_of_neg (by simpa using hd),
        List.dropWhile_cons_of_neg (by simpa using hc), lowerChars_cons, hsmall, List.cons_append]

end EntryLint.Text
