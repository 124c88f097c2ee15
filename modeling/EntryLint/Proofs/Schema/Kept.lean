import EntryLint.Proofs.Schema.Load

/-!
# What loading keeps

Where items, keys and values are loaded without change, so are the sequences and mappings of them,
the mappings as far as their keys differ. The parts of a schema for which this holds can be followed
through choices and records one by one.
-/

namespace EntryLint

/-- The mappings in a value have keys that can be keys and that differ. -/
inductive Value.WellKeyed : Value → Prop
  | sequence {v : Value} {xs : List Value} (given : v = .list xs ∨ v = .tuple xs)
      (each : ∀ x ∈ xs, WellKeyed x) : WellKeyed v
  | map {entries : List (Value × Value)} (hashable : ∀ e ∈ entries, e.1.unhashable? = none)
      (distinct : (entries.map Prod.fst).Pairwise fun a b => Value.same a b = false)
      (values : ∀ e ∈ entries, WellKeyed e.2) : WellKeyed (.map entries)
  | other {v : Value} (list : ∀ xs, v ≠ .list xs) (tuple : ∀ xs, v ≠ .tuple xs)
      (map : ∀ entries, v ≠ .map entries) : WellKeyed v

/-- A text holds no mapping. -/
lemma Value.WellKeyed.str (text : String) : (Value.str text).WellKeyed :=
  .other (by simp) (by simp) (by simp)

/-- A number holds no mapping. -/
lemma Value.WellKeyed.int (n : Int) : (Value.int n).WellKeyed :=
  .other (by simp) (by simp) (by simp)

/-- The keys of a mapping differ, and the mappings below it are well keyed. -/
lemma Value.WellKeyed.of_map {entries : List (Value × Value)} (h : (Value.map entries).WellKeyed) :
    (∀ e ∈ entries, e.1.unhashable? = none) ∧
      (entries.map Prod.fst).Pairwise (fun a b => Value.same a b = false) ∧
      ∀ e ∈ entries, e.2.WellKeyed := by
  cases h with
  | map hashable distinct values => exact ⟨hashable, distinct, values⟩
  | sequence given _ => simp at given
  | other _ _ map => exact absurd rfl (map entries)

namespace Attempt.Decides

variable {α : Type} {x : Attempt α} {p l : Prop} {good : α → Prop}

/-- What is accepted is known of what was accepted. -/
lemma strengthen (h : x.Decides p l good) : x.Decides p l fun a => good a ∧ p := by
  cases h with
  | accepted hp ok hgood => exact .accepted hp ok ⟨hgood, hp⟩
  | rejected hp error => exact .rejected hp error
  | tooLong hl error => exact .tooLong hl error

end Attempt.Decides

namespace Schema

open Attempt

/-! ## Loading without change -/

lemma items?_eq_some_iff {v : Value} {items : List Value} :
    items? v = some items ↔ v = .list items ∨ v = .tuple items := by
  cases v with
  | list xs => simp [items?]
  | tuple xs => simp [items?]
  | _ => simp [items?]

section Keeps

variable {load loadKey loadValue : Value → String → Attempt Value}
  {conforms conformsKey : Value → Prop}
  {l : Prop}

lemma loadItems_keeps {items : List Value}
    (h : ∀ v ∈ items, ∀ path, (load v path).Decides (conforms v) l (· = v)) (path : String) :
    ∀ i, (loadItems load path i items).Decides (∀ x ∈ items, conforms x) l (· = items) := by
  induction items with
  | nil => exact fun i => .accepted (by simp) rfl rfl
  | cons x items ih =>
    intro i
    rw [List.forall_mem_cons] at h
    rw [loadItems]
    apply Attempt.Decides.congr _ List.forall_mem_cons.symm
    apply Attempt.Decides.mono _ (or_self_iff.mp : l ∨ l → l)
    apply (h.1 _).bind
    rintro _ rfl
    apply (ih h.2 (i + 1)).bind_ok
    rintro _ rfl
    exact ⟨_, rfl, rfl⟩

lemma put_of_forall_not_same {entries : List (Value × Value)} {key : Value}
    (h : ∀ e ∈ entries, Value.same e.1 key = false) (value : Value) :
    Value.put entries key value = entries ++ [(key, value)] := by
  rw [Value.put, if_neg]
  rw [List.any_eq_true]
  rintro ⟨e, he, hsame⟩
  have hnot := h e he
  exact absurd (hnot.symm.trans hsame) Bool.false_ne_true

lemma loadEntries_keeps {entries : List (Value × Value)}
    (hkey : ∀ e ∈ entries, ∀ path, (loadKey e.1 path).Decides (conformsKey e.1) l (· = e.1))
    (hwritten : ∀ e ∈ entries, e.1.isWritable = false → l)
    (hhash : ∀ e ∈ entries, e.1.unhashable? = none)
    (hvalue : ∀ e ∈ entries, ∀ path, (loadValue e.2 path).Decides (conforms e.2) l (· = e.2))
    (path : String) :
    ∀ done, ((done ++ entries).map Prod.fst).Pairwise (fun a b => Value.same a b = false) →
      (loadEntries loadKey loadValue path done entries).Decides
        (∀ e ∈ entries, conformsKey e.1 ∧ conforms e.2) l (· = done ++ entries) := by
  induction entries with
  | nil => exact fun done _ => .accepted (by simp) rfl (List.append_nil done).symm
  | cons e entries ih =>
    obtain ⟨k, v⟩ := e
    intro done hdistinct
    rw [List.forall_mem_cons] at hkey hwritten hhash hvalue
    rw [loadEntries]
    have hsplit : (conformsKey k ∧ True ∧ conforms v ∧ ∀ e ∈ entries, conformsKey e.1 ∧
      conforms e.2) ↔
        ∀ e ∈ (k, v) :: entries, conformsKey e.1 ∧ conforms e.2 := by
      rw [List.forall_mem_cons, and_assoc, true_and]
    have hlong : l ∨ l ∨ l ∨ l → l := by simp
    apply Attempt.Decides.congr _ hsplit
    apply Attempt.Decides.mono _ hlong
    apply (hkey.1 _).bind
    intro key hk
    obtain rfl : k = key := hk.symm
    apply ((keyPath_decides path k).mono hwritten.1).bind
    intro place _
    apply (hvalue.1 place).bind
    intro value hv
    obtain rfl : v = value := hv.symm
    -- the key is new, so its entry comes last
    have hnew : ∀ e ∈ done, Value.same e.1 k = false := by
      rw [List.map_append, List.pairwise_append] at hdistinct
      exact fun e he => hdistinct.2.2 e.1 (List.mem_map_of_mem he) k List.mem_cons_self
    have hmoved : done ++ (k, v) :: entries = (done ++ [(k, v)]) ++ entries := by simp
    rw [hmoved] at hdistinct ⊢
    simp only [show k.unhashable? = none from hhash.1, put_of_forall_not_same hnew]
    exact ih hkey.2 hwritten.2 hhash.2 hvalue.2 _ hdistinct

end Keeps

/-! ## Choices and scalars -/

/-- A choice accepts what its first variant or one of the others accepts. -/
lemma loadVariants_cons_decides {choice : String} {s : Schema} {rest : List Schema} {v : Value}
    {path : String} {p q l : Prop} {good : Value → Prop} (h : (s.load v path).Decides p l good)
    (hrest : ∀ problems, (loadVariants choice rest problems v path).Decides q l good)
    (problems : List String) :
    (loadVariants choice (s :: rest) problems v path).Decides (p ∨ q) l good := by
  obtain ⟨problems', hnext⟩ := outcome_loadVariants_cons choice s rest problems v path
  cases h with
  | accepted hp ok hgood =>
    rw [ok] at hnext
    exact .accepted (.inl hp) hnext hgood
  | tooLong hl error =>
    rw [error] at hnext
    exact .tooLong hl hnext
  | rejected hp error =>
    rw [error] at hnext
    cases hrest problems' with
    | accepted hq ok hgood => exact .accepted (.inr hq) (hnext.trans ok) hgood
    | tooLong hl error' => exact .tooLong hl (hnext.trans error')
    | rejected hq error' => exact .rejected (fun hor => hor.elim hp hq) (hnext.trans error')

lemma loadVariants_nil_decides {choice : String} {v : Value} {path : String} {l : Prop}
    {good : Value → Prop} (problems : List String) :
    (loadVariants choice [] problems v path).Decides False l good :=
  .rejected id rfl

lemma str_accepts_iff {v : Value} : ScalarType.str.accepts v = true ↔ ∃ s, v.text? = some s := by
  unfold ScalarType.accepts Value.text?
  cases v.bare with
  | str s => simp
  | _ => simp

lemma str_load_decides {l : Prop} (v : Value) (path : String) :
    ((scalar .str).load v path).Decides (∃ s, v.text? = some s) l (· = v) := by
  rw [load, ← str_accepts_iff]
  split
  · rename_i h
    exact .accepted h rfl rfl
  · rename_i h
    exact .rejected h rfl

lemma bool_load_decides {l : Prop} (v : Value) (path : String) :
    ((scalar .bool).load v path).Decides (∃ b, v = .bool b) l (· = v) := by
  rw [load]
  split
  · rename_i h
    cases accepts_iff.mp h with
    | bool b => exact .accepted ⟨b, rfl⟩ rfl rfl
  · rename_i h
    refine .rejected ?_ rfl
    rintro ⟨b, rfl⟩
    exact h rfl

lemma null_load_decides {l : Prop} (v : Value) (path : String) :
    (null.load v path).Decides (v = .null) l (· = v) := by
  by_cases hv : v = .null
  · subst hv
    exact .accepted rfl rfl rfl
  · rw [load]
    · exact .rejected hv rfl
    · exact hv

lemma loadFields_cons_decides {f : FieldSpec Schema} {fields : List (FieldSpec Schema)}
    {entries : List (Value × Value)} {path : String} {p q l : Prop} {good : Value → Prop}
    {good' : NameMap Value → Prop}
    (h : (loadField f.schema.load f.name f.default? f.given entries path).Decides p l
      fun w? => ∃ w, w? = some w ∧ good w)
    (hrest : (loadFields fields entries path).Decides q l good') :
    (loadFields (f :: fields) entries path).Decides (p ∧ q) l
      fun values => ∃ w rest, values = (f.name, w) :: rest ∧ good w ∧ good' rest := by
  obtain ⟨name, schema, default?, given⟩ := f
  rw [loadFields]
  apply Attempt.Decides.mono _ (or_self_iff.mp : l ∨ l → l)
  apply h.bind
  rintro _ ⟨w, rfl, hw⟩
  apply hrest.bind_ok
  intro values hvalues
  exact ⟨(name, w) :: values, rfl, w, values, rfl, hw, hvalues⟩

lemma loadFields_nil_decides {l : Prop} (entries : List (Value × Value)) (path : String) :
    (loadFields [] entries path).Decides True l (· = []) := by
  rw [loadFields]
  exact .accepted trivial rfl rfl

end Schema

end EntryLint
