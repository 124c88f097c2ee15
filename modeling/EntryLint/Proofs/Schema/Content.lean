import EntryLint.Proofs.Schema.Kept
import Mathlib.Data.List.Forall2

/-!
# The content of loaded values

Loading by a plain schema coerces nothing and loses nothing: what it gives has the same content as
the value that was given, and only lists and tuples may have changed places
(`Schema.load_sameContent`). A key of a mapping has to stay hashable, and two hashable values with
the same content are equal (`Value.SameContent.eq_of_hashable`), so the keys of a mapping come out
as they are, and none of them meets another.
-/

namespace EntryLint

namespace Value

/-- Two values have the same content: they differ in nothing but the kind of sequence, list or
tuple, that holds some items. A mapping has its keys as they are, in their order. -/
inductive SameContent : Value → Value → Prop
  | refl (v : Value) : SameContent v v
  | sequence {v w : Value} {xs ys : List Value} (given : v = .list xs ∨ v = .tuple xs)
      (made : w = .list ys ∨ w = .tuple ys) (length : ys.length = xs.length)
      (each : ∀ p ∈ xs.zip ys, SameContent p.1 p.2) : SameContent v w
  | map {es fs : List (Value × Value)} (keys : fs.map Prod.fst = es.map Prod.fst)
      (values : ∀ p ∈ es.zip fs, SameContent p.1.2 p.2.2) : SameContent (.map es) (.map fs)

/-! ## Hashable values -/

/-- What is hashable holds no mapping that could be reached. -/
lemma wellKeyed_of_hashable (v : Value) (h : v.unhashable? = none) : v.WellKeyed := by
  cases v with
  | tuple items =>
    refine .sequence (.inr rfl) fun x hx => ?_
    exact wellKeyed_of_hashable x (hashable_tuple_iff.mp h x hx)
  | list items => cases h
  | map entries => cases h
  | _ => exact .other (by simp) (by simp) (by simp)
termination_by sizeOf v
decreasing_by
  subst_vars
  have hlt := List.sizeOf_lt_of_mem hx
  rw [Value.tuple.sizeOf_spec]
  omega

/-- A hashable sequence is a tuple, so two hashable values with the same content are equal. -/
lemma SameContent.eq_of_hashable {v w : Value} (h : SameContent v w) (hv : v.unhashable? = none)
    (hw : w.unhashable? = none) : v = w := by
  induction h with
  | refl v => rfl
  | map _ _ _ => cases hv
  | @sequence v w xs ys given made length each ih =>
    rcases given with rfl | rfl
    · cases hv
    · rcases made with rfl | rfl
      · cases hw
      · rw [hashable_tuple_iff] at hv hw
        have hitems : List.Forall₂ (· = ·) xs ys := by
          refine List.forall₂_iff_zip.mpr ⟨length.symm, fun {x y} hxy => ?_⟩
          obtain ⟨hx, hy⟩ := List.of_mem_zip hxy
          exact ih (x, y) hxy (hv x hx) (hw y hy)
        rw [List.forall₂_eq_eq_eq] at hitems
        rw [hitems]

end Value

namespace Schema

/-- Schemas of scalars, literals, lists, tuples of any length, mappings and choices, under names and
with notes: no sets, enumerations, records and models. -/
inductive Plain : Schema → Prop
  | any : Plain .any
  | scalar (type : ScalarType) : Plain (.scalar type)
  | null : Plain .null
  | literal (allowed : List Value) : Plain (.literal allowed)
  | list {item : Schema} (h : Plain item) : Plain (.collection .list item)
  | tuple {item : Schema} (h : Plain item) : Plain (.collection .tuple item)
  | map {key value : Schema} (hkey : Plain key) (hvalue : Plain value) : Plain (.map key value)
  | union {variants : List Schema} (each : ∀ s ∈ variants, Plain s) : Plain (.union variants)
  | named {name : String} {base : Schema} (h : Plain base) : Plain (.named name base)
  | noted {base : Schema} (h : Plain base) : Plain (.noted base)

/-! ## Parts of the loader -/

section Parts

variable {load loadKey loadValue : Value → String → Attempt Value}

/-- What a loader gives has the same content as what it is given. -/
def KeepsContent (load : Value → String → Attempt Value) : Prop :=
  ∀ {v : Value} {path : String} {w : Value}, v.WellKeyed → (load v path).outcome = .ok w →
    v.SameContent w

lemma loadItems_sameContent (h : KeepsContent load) {path : String} {xs : List Value}
    (hxs : ∀ x ∈ xs, x.WellKeyed) :
    ∀ {i : Nat} {ys : List Value}, (loadItems load path i xs).outcome = .ok ys →
      List.Forall₂ Value.SameContent xs ys := by
  induction xs with
  | nil =>
    intro i ys hys
    obtain rfl := Except.ok.inj hys
    exact .nil
  | cons x xs ih =>
    intro i ys hys
    rw [List.forall_mem_cons] at hxs
    simp only [loadItems, Traced.outcome_bind_eq_ok_iff] at hys
    obtain ⟨y, hy, ys', hys', hcons⟩ := hys
    obtain rfl := Except.ok.inj hcons
    exact .cons (h hxs.1 hy) (ih hxs.2 hys')

lemma loadSequence_sameContent (h : KeepsContent load) {container : Container}
    (hcontainer : container.isSet = false) : KeepsContent (loadSequence load container) := by
  intro v path w hv hw
  rw [loadSequence] at hw
  cases hitems : items? v with
  | none =>
    rw [hitems] at hw
    cases hw
  | some xs =>
    rw [hitems] at hw
    have hgiven := items?_eq_some_iff.mp hitems
    have hxs : ∀ x ∈ xs, x.WellKeyed := by
      cases hv with
      | sequence given each =>
        rcases hgiven with rfl | rfl <;> rcases given with heq | heq <;> cases heq
        · exact each
        · exact each
      | map _ _ _ => simp at hgiven
      | other list tuple _ => exact absurd hgiven (not_or.mpr ⟨list xs, tuple xs⟩)
    simp only [Traced.outcome_bind_eq_ok_iff] at hw
    obtain ⟨ys, hys, hmade⟩ := hw
    obtain ⟨hlength, hzip⟩ := List.forall₂_iff_zip.mp (loadItems_sameContent h hxs hys)
    refine .sequence hgiven ?_ hlength.symm fun p hp => hzip hp
    cases container with
    | list => exact .inl (Except.ok.inj hmade).symm
    | tuple => exact .inr (Except.ok.inj hmade).symm
    | set => cases hcontainer
    | frozenset => cases hcontainer

/-- The entries of a mapping are loaded one by one behind those that are done. Every key stays what
it is, so it is new and comes last. -/
lemma loadEntries_sameContent (hkey : KeepsContent loadKey) (hvalue : KeepsContent loadValue)
    {path : String} {entries : List (Value × Value)} (hhash : ∀ e ∈ entries, e.1.unhashable? = none)
    (hvalues : ∀ e ∈ entries, e.2.WellKeyed) :
    ∀ (done : List (Value × Value)) {made : List (Value × Value)},
      (done.map Prod.fst ++ entries.map Prod.fst).Pairwise (fun a b => Value.same a b = false) →
      (loadEntries loadKey loadValue path done entries).outcome = .ok made →
      ∃ new, made = done ++ new ∧
        List.Forall₂ (fun e f => e.1 = f.1 ∧ Value.SameContent e.2 f.2) entries new := by
  induction entries with
  | nil =>
    intro done made _ hmade
    obtain rfl := Except.ok.inj hmade
    exact ⟨[], (List.append_nil done).symm, .nil⟩
  | cons e entries ih =>
    obtain ⟨k, v⟩ := e
    intro done made hdistinct hmade
    rw [List.forall_mem_cons] at hhash hvalues
    simp only [loadEntries, Traced.outcome_bind_eq_ok_iff] at hmade
    obtain ⟨key, hk, place, -, value, hv, hrest⟩ := hmade
    cases hunhashable : key.unhashable? with
    | some typeName =>
      rw [hunhashable] at hrest
      cases hrest
    | none =>
      rw [hunhashable] at hrest
      have hcontent := hkey (Value.wellKeyed_of_hashable k hhash.1) hk
      obtain rfl := hcontent.eq_of_hashable hhash.1 hunhashable
      have hnew : ∀ e ∈ done, Value.same e.1 k = false :=
        fun e he => (List.pairwise_append.mp hdistinct).2.2 e.1 (List.mem_map_of_mem he) k
          List.mem_cons_self
      rw [put_of_forall_not_same hnew] at hrest
      have hdistinct' : ((done ++ [(k, value)]).map Prod.fst ++ entries.map Prod.fst).Pairwise
          fun a b => Value.same a b = false := by
        rwa [List.map_append, List.append_assoc]
      obtain ⟨new, rfl, hnew'⟩ := ih hhash.2 hvalues.2 _ hdistinct' hrest
      exact ⟨(k, value) :: new, by simp, .cons ⟨rfl, hvalue hvalues.1 hv⟩ hnew'⟩

end Parts

lemma map_load_sameContent {key value : Schema} (hkey : KeepsContent key.load)
    (hvalue : KeepsContent value.load) : KeepsContent (map key value).load := by
  intro v path w hv hw
  by_cases hmap : ∃ entries, v = .map entries
  · obtain ⟨entries, rfl⟩ := hmap
    rw [load, Traced.outcome_bind_eq_ok_iff] at hw
    obtain ⟨made, hmade, hok⟩ := hw
    obtain rfl := Except.ok.inj hok
    obtain ⟨hashable, distinct, values⟩ := hv.of_map
    obtain ⟨_, rfl, heach⟩ := loadEntries_sameContent hkey hvalue hashable values [] distinct hmade
    have hkeys : List.Forall₂ (· = ·) (entries.map Prod.fst) (made.map Prod.fst) := by
      rw [List.forall₂_map_left_iff, List.forall₂_map_right_iff]
      exact heach.imp fun _ _ h => h.1
    rw [List.forall₂_eq_eq_eq] at hkeys
    exact .map hkeys.symm fun p hp => ((List.forall₂_iff_zip.mp heach).2 hp).2
  · rw [map_load_of_other hmap] at hw
    cases hw

lemma keepsContent_of_plain {s : Schema} (hs : s.Plain) : KeepsContent s.load := by
  induction hs with
  | any =>
    intro v path w _ hw
    obtain rfl := Except.ok.inj hw
    exact .refl v
  | scalar type =>
    intro v path w _ hw
    rw [load] at hw
    split at hw
    · obtain rfl := Except.ok.inj hw
      exact .refl v
    · cases hw
  | null =>
    intro v path w _ hw
    have hnull : (null.load v path).Decides (v = .null) False (· = v) := null_load_decides v path
    cases hnull with
    | accepted _ ok heq =>
      obtain rfl := Except.ok.inj (hw.symm.trans ok)
      rw [heq]
      exact .refl v
    | rejected _ error => cases hw.symm.trans error
    | tooLong hl _ => exact hl.elim
  | literal allowed =>
    intro v path w _ hw
    rw [load] at hw
    split at hw
    · obtain rfl := Except.ok.inj hw
      exact .refl v
    · exact absurd hw (Attempt.outcome_rejectOther_ne_ok _ _ _ _)
  | list _ ih => exact loadSequence_sameContent ih rfl
  | tuple _ ih => exact loadSequence_sameContent ih rfl
  | map _ _ ihkey ihvalue => exact map_load_sameContent ihkey ihvalue
  | union _ ih =>
    intro v path w hv hw
    obtain ⟨s, hs, hload⟩ := exists_of_loadVariants hw
    exact ih s hs hv hload
  | named _ ih => exact ih
  | noted _ ih => exact ih

/-- What is loaded by a plain schema has the same content as what was given: scalars are not
coerced, sequences keep their length and order, and mappings keep their keys. -/
theorem load_sameContent (s : Schema) (hs : s.Plain) (v w : Value) (hv : v.WellKeyed)
    (path : String) (hw : (s.load v path).outcome = .ok w) : v.SameContent w :=
  keepsContent_of_plain hs hv hw

/-- A mapping from tuples to numbers or tuples, with a choice of lists and truth values in these. -/
def nestedSchema : Schema :=
  .map (.collection .tuple (.scalar .int))
    (.union [.scalar .int, .null,
      .collection .tuple (.union [.scalar .bool, .collection .list .any])])

/-- A value in which a list is to become a tuple, and a tuple in it a list. -/
def nestedValue : Value :=
  .map [(.tuple [.int 1, .int 2], .list [.bool true, .tuple [.str "x"]]), (.tuple [], .int 3)]

/-- The nested value with its sequences in their places. -/
def nestedLoaded : Value :=
  .map [(.tuple [.int 1, .int 2], .tuple [.bool true, .list [.str "x"]]), (.tuple [], .int 3)]

lemma plain_nested : nestedSchema.Plain := by
  refine .map (.tuple (.scalar _)) (.union ?_)
  simp only [List.forall_mem_cons]
  refine ⟨.scalar _, .null, .tuple (.union ?_), by simp⟩
  simp only [List.forall_mem_cons]
  exact ⟨.scalar _, .list .any, by simp⟩

lemma wellKeyed_nested : nestedValue.WellKeyed := by
  refine .map (by decide) (by simp [Value.same, Value.sameItems]) ?_
  simp only [List.forall_mem_cons]
  refine ⟨.sequence (.inl rfl) ?_, .other (by simp) (by simp) (by simp), by simp⟩
  simp only [List.forall_mem_cons]
  refine ⟨.other (by simp) (by simp) (by simp), .sequence (.inr rfl) ?_, by simp⟩
  simp only [List.forall_mem_cons]
  exact ⟨.other (by simp) (by simp) (by simp), by simp⟩

theorem load_sameContent_nested :
    nestedSchema.Plain ∧ nestedValue.WellKeyed ∧
      (nestedSchema.load nestedValue "$").outcome = .ok nestedLoaded ∧
      nestedValue.SameContent nestedLoaded := by
  have hload : (nestedSchema.load nestedValue "$").outcome = .ok nestedLoaded := by
    have hnew : Value.same (.tuple [.int 1, .int 2]) (.tuple []) = false := by
      simp [Value.same, Value.sameItems]
    have hwrite : (Value.tuple [.int 1, .int 2]).isWritable = true := by decide +kernel
    rw [nestedSchema, nestedValue, load, Traced.outcome_bind,
      outcome_loadEntries_cons rfl hwrite rfl rfl, put_of_forall_not_same (by simp),
      outcome_loadEntries_cons rfl rfl rfl rfl, put_of_forall_not_same (by simpa using hnew)]
    rfl
  exact ⟨plain_nested, wellKeyed_nested, hload,
    load_sameContent nestedSchema plain_nested nestedValue nestedLoaded wellKeyed_nested "$" hload⟩

end Schema

end EntryLint
