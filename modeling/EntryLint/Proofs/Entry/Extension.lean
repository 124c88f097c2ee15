import EntryLint.Entry.Policy
import EntryLint.Proofs.Text.Segments

/-!
# Extensions cut off file names

`stripExtension` cuts the longest configured extension that ends a name, once. `Stripped` says so by
decompositions of the name, whatever the order of the extensions is. Trying the extensions one after
the other, the longest first, comes to the same (`eq_append_find?`), and extensions in another
order, repeated ones and empty ones make no difference (`stripExtension_rearranged`).
-/

namespace EntryLint

/-- `rest` is `name` without the longest non-empty extension that ends it, and `name` itself when
none does. -/
def Stripped (extensions : List String) (name rest : String) : Prop :=
  (∃ e ∈ extensions, e ≠ "" ∧ name = rest ++ e ∧
    ∀ e' ∈ extensions, (∃ start, name = start ++ e') → e'.length ≤ e.length) ∨
  (rest = name ∧ ∀ e ∈ extensions, e ≠ "" → ¬∃ start, name = start ++ e)

/-- The fold behind `extensionLength`, from any length found so far. -/
def longerExtension (name : String) (n : Nat) (e : String) : Nat :=
  if Text.endsWith e name then max n e.length else n

lemma extensionLength_eq (extensions : List String) (name : String) :
    extensionLength extensions name = extensions.foldl (longerExtension name) 0 := rfl

/-- What the fold keeps: the length is an upper bound, and one of the extensions has it unless it is
the length it started from. -/
lemma foldl_longerExtension (name : String) (extensions : List String) (n : Nat) :
    n ≤ extensions.foldl (longerExtension name) n ∧
    (∀ e ∈ extensions, Text.endsWith e name = true →
      e.length ≤ extensions.foldl (longerExtension name) n) ∧
    (extensions.foldl (longerExtension name) n = n ∨
      ∃ e ∈ extensions, Text.endsWith e name = true ∧
        e.length = extensions.foldl (longerExtension name) n) := by
  induction extensions generalizing n with
  | nil => simp
  | cons e es ih =>
    obtain ⟨hle, hall, hsome⟩ := ih (longerExtension name n e)
    have hn : n ≤ longerExtension name n e := by
      rw [longerExtension]; split <;> omega
    have he : Text.endsWith e name = true → e.length ≤ longerExtension name n e := by
      intro h
      rw [longerExtension, if_pos h]; omega
    rw [List.foldl_cons]
    refine ⟨by omega, ?_, ?_⟩
    · intro e' he' hends
      rcases List.mem_cons.mp he' with rfl | he'
      · exact Nat.le_trans (he hends) hle
      · exact hall e' he' hends
    · rcases hsome with hsome | ⟨e', he', hends, hlen⟩
      · rw [hsome]
        by_cases hends : Text.endsWith e name = true
        · rw [longerExtension, if_pos hends]
          rcases Nat.le_total e.length n with hmax | hmax
          · exact Or.inl (by omega)
          · exact Or.inr ⟨e, List.mem_cons_self, hends, by omega⟩
        · exact Or.inl (by rw [longerExtension, if_neg hends])
      · exact Or.inr ⟨e', List.mem_cons_of_mem _ he', hends, hlen⟩

lemma length_le_extensionLength {extensions : List String} {name e : String}
    (he : e ∈ extensions) (hends : Text.endsWith e name = true) :
    e.length ≤ extensionLength extensions name :=
  (foldl_longerExtension name extensions 0).2.1 e he hends

lemma dropLast_append (rest e : String) : Text.dropLast e.length (rest ++ e) = rest := by
  rw [← String.toList_inj]
  simp [Text.dropLast, ← String.length_toList]

lemma stripped_stripExtension (extensions : List String) (name : String) :
    Stripped extensions name (stripExtension extensions name) := by
  by_cases h0 : extensionLength extensions name = 0
  · right
    refine ⟨?_, ?_⟩
    · rw [stripExtension, h0, ← String.toList_inj]
      simp [Text.dropLast, ← String.length_toList]
    · intro e he hne hends
      have hle := length_le_extensionLength he (Text.endsWith_iff.mpr hends)
      have hlen : e.length = 0 := by omega
      exact hne (by simpa [← String.length_toList] using hlen)
  · left
    rcases (foldl_longerExtension name extensions 0).2.2 with hzero | ⟨e, he, hends, hlen⟩
    · exact absurd hzero h0
    · rw [← extensionLength_eq] at hlen
      obtain ⟨rest, hrest⟩ := Text.endsWith_iff.mp hends
      refine ⟨e, he, ?_, ?_, ?_⟩
      · rintro rfl
        exact h0 (by simpa using hlen.symm)
      · rw [stripExtension, ← hlen, hrest, dropLast_append]
      · intro e' he' hends'
        rw [hlen]
        exact length_le_extensionLength he' (Text.endsWith_iff.mpr hends')

/-- Suffixes of one text with one length are the same suffix. -/
lemma append_right_unique {a b c d : String} (h : a ++ c = b ++ d) (hlen : c.length = d.length) :
    a = b := by
  rw [← String.toList_inj] at h ⊢
  rw [String.toList_append, String.toList_append] at h
  exact List.append_inj_left' h (by rw [String.length_toList, String.length_toList, hlen])

/-- There is only one way to cut off the longest extension. -/
lemma Stripped.unique {extensions : List String} {name r r' : String}
    (h : Stripped extensions name r) (h' : Stripped extensions name r') : r = r' := by
  rcases h with ⟨e, he, hne, hname, hmax⟩ | ⟨rfl, hnone⟩ <;>
    rcases h' with ⟨e', he', hne', hname', hmax'⟩ | ⟨rfl, hnone'⟩
  · have hle := hmax e' he' ⟨r', hname'⟩
    have hge := hmax' e he ⟨r, hname⟩
    exact append_right_unique (hname.symm.trans hname') (by omega)
  · exact absurd ⟨r, hname⟩ (hnone' e he hne)
  · exact absurd ⟨r', hname'⟩ (hnone e' he' hne')
  · rfl

lemma stripExtension_eq_iff {extensions : List String} {name rest : String} :
    stripExtension extensions name = rest ↔ Stripped extensions name rest := by
  constructor
  · rintro rfl
    exact stripped_stripExtension extensions name
  · exact (stripped_stripExtension extensions name).unique

/-! ## Extensions in other orders -/

/-- When no longer extension comes after a shorter one, the first that ends a name is the one that
is cut off. Which of two with one length comes first does not matter: only one of them can end the
name. -/
lemma eq_append_find? {extensions arranged : List String} (hperm : arranged.Perm extensions)
    (hlongest : arranged.Pairwise fun e e' => e'.length ≤ e.length) (name : String) :
    name = stripExtension extensions name ++
      (arranged.find? fun e => e ≠ "" && Text.endsWith e name).getD "" := by
  cases hfind : arranged.find? fun e => e ≠ "" && Text.endsWith e name with
  | none =>
    have hnone : Stripped extensions name name := by
      refine .inr ⟨rfl, fun e he hne hends => ?_⟩
      have hmiss := List.find?_eq_none.mp hfind e (hperm.mem_iff.mpr he)
      exact hmiss (by simp [hne, Text.endsWith_iff.mpr hends])
    rw [stripExtension_eq_iff.mpr hnone]
    simp
  | some e =>
    obtain ⟨hhit, earlier, later, rfl, hmiss⟩ := List.find?_eq_some_iff_append.mp hfind
    obtain ⟨hne, hends⟩ : e ≠ "" ∧ Text.endsWith e name = true := by simpa using hhit
    obtain ⟨rest, rfl⟩ := Text.endsWith_iff.mp hends
    have hcut : Stripped extensions (rest ++ e) rest := by
      refine .inl ⟨e, hperm.mem_iff.mp (by simp), hne, rfl, fun e' he' hends' => ?_⟩
      rcases List.mem_append.mp (hperm.mem_iff.mpr he') with hearlier | hlater
      · -- what was tried before and ends the name is empty
        have hempty : e' = "" := by simpa [Text.endsWith_iff.mpr hends'] using hmiss e' hearlier
        rw [hempty]
        exact Nat.zero_le _
      · rcases List.mem_cons.mp hlater with rfl | hlater
        · exact Nat.le_refl _
        · exact List.rel_of_pairwise_cons (List.pairwise_append.mp hlongest).2.1 hlater
    rw [stripExtension_eq_iff.mpr hcut, Option.getD_some]

/-- A list of extensions comes from another by changes that concern only the order, repetitions and
empty entries. -/
inductive Rearranged : List String → List String → Prop where
  | permuted {es es' : List String} (h : es.Perm es') : Rearranged es es'
  | repeated {es : List String} {e : String} (h : e ∈ es) : Rearranged es (e :: es)
  | withEmpty (es : List String) : Rearranged es ("" :: es)
  | trans {es es' es'' : List String} (h : Rearranged es es') (h' : Rearranged es' es'') :
      Rearranged es es''

/-- The extensions that can be cut off stay the same ones. -/
lemma Rearranged.mem_iff {es es' : List String} (h : Rearranged es es') {e : String} (he : e ≠ "") :
    e ∈ es ↔ e ∈ es' := by
  induction h with
  | permuted h => exact h.mem_iff
  | repeated h =>
    rw [List.mem_cons, iff_or_self]
    rintro rfl
    exact h
  | withEmpty es => rw [List.mem_cons, or_iff_right he]
  | trans _ _ ih ih' => exact ih.trans ih'

/-- What is cut off depends on the non-empty extensions alone. -/
lemma Stripped.of_mem_iff {es es' : List String} (h : ∀ e, e ≠ "" → (e ∈ es ↔ e ∈ es'))
    {name rest : String} (hstripped : Stripped es name rest) : Stripped es' name rest := by
  rcases hstripped with ⟨e, he, hne, hname, hmax⟩ | ⟨hname, hnone⟩
  · refine .inl ⟨e, (h e hne).mp he, hne, hname, fun e' he' hends => ?_⟩
    by_cases hempty : e' = ""
    · rw [hempty]
      exact Nat.zero_le _
    · exact hmax e' ((h e' hempty).mpr he') hends
  · exact .inr ⟨hname, fun e he hne => hnone e ((h e hne).mpr he) hne⟩

lemma stripExtension_rearranged {es es' : List String} (h : Rearranged es es') :
    stripExtension es = stripExtension es' := by
  funext name
  rw [stripExtension_eq_iff]
  exact (stripped_stripExtension es' name).of_mem_iff fun e he => (h.mem_iff he).symm

end EntryLint
