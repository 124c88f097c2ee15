import EntryLint.NameMap
import Mathlib.Tactic.Common

/-!
# Maps from names

A map has a value under exactly the names that it lists (`get?_eq_none_iff`). Setting names adds
those that are new behind the others (`names_put`), and the value that is set last counts
(`get?_update`).
-/

namespace EntryLint.NameMap

variable {α : Type} {P : α → Prop}

/-! ## Values -/

lemma mem_of_get? {m : NameMap α} {name : String} {a : α} (h : get? m name = some a) :
    (name, a) ∈ m := by
  induction m with
  | nil => cases h
  | cons e rest ih =>
    obtain ⟨n, b⟩ := e
    rw [get?] at h
    split at h
    · rename_i hn
      rw [hn, Option.some_inj.mp h]
      exact List.mem_cons_self
    · exact List.mem_cons_of_mem _ (ih h)

lemma mem_put {m : NameMap α} {name : String} {a : α} {e : String × α} (h : e ∈ put m name a) :
    e = (name, a) ∨ e ∈ m := by
  induction m with
  | nil => exact .inl (List.mem_singleton.mp h)
  | cons first rest ih =>
    obtain ⟨n, b⟩ := first
    rw [put] at h
    split at h
    · rename_i hn
      rcases List.mem_cons.mp h with rfl | h
      · exact .inl (by rw [hn])
      · exact .inr (List.mem_cons_of_mem _ h)
    · rcases List.mem_cons.mp h with rfl | h
      · exact .inr List.mem_cons_self
      · exact (ih h).imp_right (List.mem_cons_of_mem _)

lemma forall_mem_put {m : NameMap α} (h : ∀ e ∈ m, P e.2) (name : String) {a : α} (ha : P a) :
    ∀ e ∈ put m name a, P e.2 := by
  intro e he
  rcases mem_put he with rfl | he
  · exact ha
  · exact h e he

lemma forall_mem_update {m entries : NameMap α} (h : ∀ e ∈ m, P e.2) (h' : ∀ e ∈ entries, P e.2) :
    ∀ e ∈ update m entries, P e.2 := by
  induction entries generalizing m with
  | nil => exact h
  | cons e entries ih =>
    rw [List.forall_mem_cons] at h'
    exact ih (forall_mem_put h e.1 h'.1) h'.2

/-! ## Names -/

lemma names_cons (e : String × α) (m : NameMap α) : names (e :: m) = e.1 :: names m := rfl

lemma get?_eq_none_iff {m : NameMap α} {name : String} : get? m name = none ↔ name ∉ names m := by
  induction m with
  | nil => simp [names]
  | cons e rest ih =>
    obtain ⟨n, b⟩ := e
    rw [get?, names_cons, List.mem_cons, not_or, ← ih]
    by_cases hn : n = name
    · simp [hn]
    · simp [hn, Ne.symm hn]

lemma names_put (m : NameMap α) (name : String) (a : α) :
    names (put m name a) = if name ∈ names m then names m else names m ++ [name] := by
  induction m with
  | nil => rfl
  | cons e rest ih =>
    obtain ⟨n, b⟩ := e
    rw [put]
    by_cases hn : n = name
    · simp [names, hn]
    · rw [if_neg hn, names_cons, names_cons, ih]
      by_cases hmem : name ∈ names rest
      · simp [hmem]
      · simp [hmem, Ne.symm hn]

lemma mem_names_put {m : NameMap α} {name n : String} {a : α} :
    n ∈ names (put m name a) ↔ n = name ∨ n ∈ names m := by
  rw [names_put]
  split
  · rename_i hname
    exact ⟨.inr, fun h => h.elim (fun heq => heq ▸ hname) id⟩
  · rw [List.mem_append, List.mem_singleton, or_comm]

/-- Setting names keeps them distinct. -/
lemma nodup_names_update {m entries : NameMap α} (h : (names m).Nodup) :
    (names (update m entries)).Nodup := by
  induction entries generalizing m with
  | nil => exact h
  | cons e entries ih =>
    have hput : (names (put m e.1 e.2)).Nodup := by
      rw [names_put]
      split
      · exact h
      · rename_i hmem
        refine List.nodup_append.mpr ⟨h, by simp, ?_⟩
        intro n hn other hother heq
        rw [heq, List.mem_singleton.mp hother] at hn
        exact hmem hn
    exact ih hput

lemma get?_eq_some_iff {m : NameMap α} (h : (names m).Nodup) {name : String} {a : α} :
    get? m name = some a ↔ (name, a) ∈ m := by
  refine ⟨mem_of_get?, fun hmem => ?_⟩
  induction m with
  | nil => cases hmem
  | cons e rest ih =>
    obtain ⟨n, b⟩ := e
    rw [names_cons, List.nodup_cons] at h
    rcases List.mem_cons.mp hmem with heq | hmem
    · obtain ⟨rfl, rfl⟩ := Prod.mk.inj heq
      rw [get?, if_pos rfl]
    · have hne : n ≠ name := by
        rintro rfl
        exact h.1 (List.mem_map.mpr ⟨_, hmem, rfl⟩)
      rw [get?, if_neg hne, ih h.2 hmem]

/-- The map whose names are set decides, and the other where it has no value. -/
lemma get?_update {entries : NameMap α} (h : (names entries).Nodup) (m : NameMap α)
    (name : String) :
    get? (update m entries) name = (get? entries name).or (get? m name) := by
  induction entries generalizing m with
  | nil => rfl
  | cons e entries ih =>
    obtain ⟨n, a⟩ := e
    rw [names_cons, List.nodup_cons] at h
    rw [show update m ((n, a) :: entries) = update (put m n a) entries from rfl, ih h.2, get?_put,
      get?]
    by_cases heq : n = name
    · subst heq
      -- the name is not set a second time
      rw [if_pos rfl, if_pos rfl, get?_eq_none_iff.mpr h.1, Option.none_or, Option.some_or]
    · rw [if_neg heq, if_neg heq]

end EntryLint.NameMap
