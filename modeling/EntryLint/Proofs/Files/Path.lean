import EntryLint.Files.Path
import EntryLint.Proofs.Text.Segments

/-!
# Paths of proper names

The names of directory entries are texts that a path keeps as they are: not empty, no dots that
mean a direction, no slash. From the text of such names a path is read back (`Path.ofText_join`). A
resolved path goes down only (`Path.dots_not_mem_resolve`).
-/

namespace EntryLint

/-- A name that an entry of a directory can have. -/
structure IsFileName (name : String) : Prop where
  ne_empty : name ≠ ""
  ne_dot : name ≠ "."
  ne_dots : name ≠ ".."
  noSlash : '/' ∉ name.toList

instance (name : String) : Decidable (IsFileName name) :=
  decidable_of_iff (name ≠ "" ∧ name ≠ "." ∧ name ≠ ".." ∧ '/' ∉ name.toList)
    ⟨fun ⟨h₁, h₂, h₃, h₄⟩ => ⟨h₁, h₂, h₃, h₄⟩, fun h => ⟨h.1, h.2, h.3, h.4⟩⟩

/-! ## Texts of names -/

lemma join_ne_empty {parts : List String} (hne : parts ≠ []) (h : ∀ n ∈ parts, IsFileName n) :
    Text.join "/" parts ≠ "" := by
  obtain ⟨part, parts, rfl⟩ := List.exists_cons_of_ne_nil hne
  intro hempty
  rw [← String.toList_inj, Text.toList_join, List.map_cons, Text.intercalate_cons_eq] at hempty
  have hpart : part.toList = [] := (List.append_eq_nil_iff.mp hempty).1
  exact (h part List.mem_cons_self).ne_empty (String.toList_eq_nil_iff.mp hpart)

lemma split_join_names {parts : List String} (hne : parts ≠ []) (h : ∀ n ∈ parts, IsFileName n) :
    Text.split '/' (Text.join "/" parts) = parts :=
  Text.split_join hne fun n hn => (h n hn).noSlash

/-- The first character of joined names is that of the first name. -/
lemma takeWhile_slash_join {parts : List String} (h : ∀ n ∈ parts, IsFileName n) :
    (Text.join "/" parts).toList.takeWhile (· = '/') = [] := by
  cases parts with
  | nil => rfl
  | cons part parts =>
    have hpart := h part List.mem_cons_self
    rw [Text.toList_join, List.map_cons, Text.intercalate_cons_eq]
    cases hc : part.toList with
    | nil => exact absurd (String.toList_eq_nil_iff.mp hc) hpart.ne_empty
    | cons c cs =>
      have hne : c ≠ '/' := by
        rintro rfl
        exact hpart.noSlash (by rw [hc]; exact List.mem_cons_self)
      simp [hne]

namespace Path

lemma ofText_join {parts : List String} (h : ∀ n ∈ parts, IsFileName n) :
    ofText (Text.join "/" parts) = { anchor := "", parts } := by
  rw [ofText, takeWhile_slash_join h]
  by_cases hne : parts = []
  · subst hne
    rfl
  · rw [split_join_names hne h]
    have hall : ∀ n ∈ parts, (decide (n ≠ "") && decide (n ≠ ".")) = true := by
      intro n hn
      simp [(h n hn).ne_empty, (h n hn).ne_dot]
    rw [List.filter_eq_self.mpr hall]
    rfl

/-! ## Resolving -/

/-- Resolving one more part. -/
def resolveStep (done : List String) (part : String) : List String :=
  if part = ".." then done.dropLast else done ++ [part]

lemma dots_not_mem_foldl_resolveStep (parts : List String) :
    ∀ done : List String, ".." ∉ done → ".." ∉ parts.foldl resolveStep done := by
  induction parts with
  | nil => exact fun _ h => h
  | cons part parts ih =>
    intro done hdone
    rw [List.foldl_cons]
    apply ih
    rw [resolveStep]
    split
    · exact fun hmem => hdone ((List.dropLast_sublist done).subset hmem)
    · rename_i hpart
      rw [List.mem_append, List.mem_singleton]
      rintro (hmem | hmem)
      · exact hdone hmem
      · exact hpart hmem.symm

/-- A resolved path goes down only. -/
lemma dots_not_mem_resolve (p : Path) : ".." ∉ p.resolve.parts :=
  dots_not_mem_foldl_resolveStep p.parts [] List.not_mem_nil

/-! ## Paths below a base -/

lemma below?_eq_some_iff {base p : Path} {parts : List String} :
    base.below? p = some parts ↔ p.parts = base.parts ++ parts := by
  rw [below?]
  split
  · rename_i h
    obtain ⟨rest, hrest⟩ := List.isPrefixOf_iff_prefix.mp h
    rw [← hrest]
    simp
  · rename_i h
    rw [List.isPrefixOf_iff_prefix] at h
    constructor
    · intro hnone
      exact absurd hnone (by simp)
    · intro heq
      exact absurd ⟨parts, heq.symm⟩ h

/-- A relative path is taken from the base. -/
lemma under_relative (base : Path) (parts : List String) :
    base.under { anchor := "", parts } = { base with parts := base.parts ++ parts } := rfl

end Path

end EntryLint
