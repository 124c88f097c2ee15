import EntryLint.Proofs.Schema.Conformance
import EntryLint.Proofs.SortedNames
import EntryLint.Proofs.Traced

/-!
# Loading decides conformance

For a supported schema, `Schema.load` gives a value only if the value conforms, and rejects it only
if not; what it gives inhabits the schema. It fails in no other way, unless an integer is too long
to be written: such an integer is fatal where a message or a path quotes it, and so to values that
conform (`load_overlong`). `Attempt.Decides` says this about one attempt, and is carried through
every part of the loader by its own lemma. The main result is `load_iff_conforms`.
-/

namespace EntryLint

namespace Attempt

variable {α β : Type}

/-- An attempt gives a good value only if it should and is rejected only if not. It fails in no
other way, but for an integer that is too long to be written. -/
inductive Decides (x : Attempt α) (accepts long : Prop) (good : α → Prop) : Prop
  | accepted {a : α} (h : accepts) (ok : x.outcome = .ok a) (good : good a)
  | rejected {r : Rejection} (h : ¬ accepts) (error : x.outcome = .error (.rejected r))
  | tooLong (h : long) (error : x.outcome = .error (.raised .tooLong))

namespace Decides

variable {x : Attempt α} {p q l l' : Prop} {good good' : α → Prop}

lemma congr (h : x.Decides p l good) (hpq : p ↔ q) : x.Decides q l good := by
  cases h with
  | accepted hp ok hgood => exact .accepted (hpq.mp hp) ok hgood
  | rejected hp error => exact .rejected (mt hpq.mpr hp) error
  | tooLong hl error => exact .tooLong hl error

lemma imp (h : x.Decides p l good) (himp : ∀ a, good a → good' a) : x.Decides p l good' := by
  cases h with
  | accepted hp ok hgood => exact .accepted hp ok (himp _ hgood)
  | rejected hp error => exact .rejected hp error
  | tooLong hl error => exact .tooLong hl error

lemma mono (h : x.Decides p l good) (hl : l → l') : x.Decides p l' good := by
  cases h with
  | accepted hp ok hgood => exact .accepted hp ok hgood
  | rejected hp error => exact .rejected hp error
  | tooLong h error => exact .tooLong (hl h) error

/-- What is known of every value that is given is good of it. -/
lemma and_of_ok (h : x.Decides p l good) (hok : ∀ a, x.outcome = .ok a → good' a) :
    x.Decides p l fun a => good a ∧ good' a := by
  cases h with
  | accepted hp ok hgood => exact .accepted hp ok ⟨hgood, hok _ ok⟩
  | rejected hp error => exact .rejected hp error
  | tooLong hl error => exact .tooLong hl error

/-- Two attempts in a row accept what both accept, if the second does so whatever the first gave. -/
lemma bind {f : α → Attempt β} {good' : β → Prop} (h : x.Decides p l good)
    (hf : ∀ a, good a → (f a).Decides q l' good') : (x >>= f).Decides (p ∧ q) (l ∨ l') good' := by
  cases h with
  | rejected hp error => exact .rejected (fun hpq => hp hpq.1) (Traced.outcome_bind_error error f)
  | tooLong hl error => exact .tooLong (.inl hl) (Traced.outcome_bind_error error f)
  | accepted hp ok hgood =>
    have hbind := Traced.outcome_bind_ok ok f
    cases hf _ hgood with
    | accepted hq ok' hgood' => exact .accepted ⟨hp, hq⟩ (hbind.trans ok') hgood'
    | rejected hq error => exact .rejected (fun hpq => hq hpq.2) (hbind.trans error)
    | tooLong hl error => exact .tooLong (.inr hl) (hbind.trans error)

/-- An attempt that is followed by one that cannot fail. -/
lemma bind_ok {f : α → Attempt β} {good' : β → Prop} (h : x.Decides p l good)
    (hf : ∀ a, good a → ∃ b, (f a).outcome = .ok b ∧ good' b) : (x >>= f).Decides p l good' := by
  have hbind : (x >>= f).Decides (p ∧ True) (l ∨ False) good' := by
    apply h.bind
    intro a ha
    obtain ⟨b, hb, hgood⟩ := hf a ha
    exact .accepted trivial hb hgood
  exact (hbind.congr ⟨And.left, fun hp => ⟨hp, trivial⟩⟩).mono fun hl => hl.resolve_right id

end Decides

lemma outcome_rejectOther_ne_ok (path : String) (allowed : List Value) (got : Value) (a : α) :
    (rejectOther path allowed got).outcome ≠ .ok a := by
  rw [rejectOther]
  split
  · exact nofun
  · exact nofun

/-- A value that is none of those allowed is rejected, if all of them can be quoted. -/
lemma rejectOther_decides {p : Prop} {good : α → Prop} (hp : ¬ p) (path : String)
    (allowed : List Value) (got : Value) :
    (rejectOther path allowed got : Attempt α).Decides p
      (got.Overlong ∨ Value.areShowable allowed = false) good := by
  rw [rejectOther]
  split
  · exact .rejected hp rfl
  · rename_i hlong
    refine .tooLong ?_ rfl
    rw [Bool.and_eq_true, not_and_or, Bool.not_eq_true, Bool.not_eq_true] at hlong
    exact hlong.symm

end Attempt

namespace Schema

/-- The loader decides a schema, whatever the value and its place. -/
def IsDecided (s : Schema) : Prop :=
  ∀ v path, (s.load v path).Decides (s.Conforms v) (v.Overlong ∨ s.Overlong) s.Inhabits

/-! ## Sequences -/

section Parts

variable {load loadKey loadValue : Value → String → Attempt Value}
  {conforms conformsKey inhabits inhabitsKey long longKey : Value → Prop}

lemma loadItems_decides
    (h : ∀ v path, (load v path).Decides (conforms v) (long v) inhabits) (path : String)
    (items : List Value) :
    ∀ i, (loadItems load path i items).Decides (∀ x ∈ items, conforms x) (∃ x ∈ items, long x)
      fun ys => ∀ y ∈ ys, inhabits y := by
  induction items with
  | nil => exact fun i => .accepted (by simp) rfl (by simp)
  | cons x items ih =>
    intro i
    rw [loadItems]
    refine Attempt.Decides.congr (Attempt.Decides.mono ((h x _).bind fun y hy =>
      (ih (i + 1)).bind_ok fun ys hys => ?_) ?_) List.forall_mem_cons.symm
    · exact ⟨y :: ys, rfl, List.forall_mem_cons.mpr ⟨hy, hys⟩⟩
    · simp only [List.mem_cons, exists_eq_or_imp, imp_self]

/-- Dropping repeats keeps only items that were there, and no two equal ones. -/
lemma distinct_spec (items : List Value) :
    (∀ x ∈ Value.distinct items, x ∈ items) ∧
      (Value.distinct items).Pairwise fun a b => Value.same a b = false := by
  -- the invariant is about the items seen so far and those that are still to come
  suffices hfold : ∀ (rest seen : List Value), (∀ x ∈ seen, x ∈ items) → (∀ x ∈ rest, x ∈ items) →
      seen.Pairwise (fun a b => Value.same a b = false) →
      (∀ x ∈ rest.foldl
          (fun seen x => if seen.any (Value.same · x) then seen else seen ++ [x]) seen,
        x ∈ items) ∧
      (rest.foldl (fun seen x => if seen.any (Value.same · x) then seen else seen ++ [x])
        seen).Pairwise fun a b => Value.same a b = false from
    hfold items [] (by simp) (fun x hx => hx) List.Pairwise.nil
  intro rest
  induction rest with
  | nil => exact fun seen hseen _ hpair => ⟨hseen, hpair⟩
  | cons x rest ih =>
    intro seen hseen hrest hpair
    rw [List.forall_mem_cons] at hrest
    rw [List.foldl_cons]
    split
    · exact ih seen hseen hrest.2 hpair
    · rename_i hnew
      apply ih (seen ++ [x]) _ hrest.2
      · rw [List.pairwise_append]
        refine ⟨hpair, List.pairwise_singleton _ _, ?_⟩
        intro a ha b hb
        rw [List.mem_singleton.mp hb]
        simp only [List.any_eq_true, not_exists, not_and, Bool.not_eq_true] at hnew
        exact hnew a ha
      · intro y hy
        rcases List.mem_append.mp hy with hy | hy
        · exact hseen y hy
        · rw [List.mem_singleton.mp hy]
          exact hrest.1

/-- Hashable items can be collected in every container. -/
lemma exists_collect (container : Container) (items : List Value)
    (h : container.isSet = true → ∀ x ∈ items, x.unhashable? = none) :
    ∃ kept, (collect container items).outcome = .ok (container.holding kept) ∧
      (∀ x ∈ kept, x ∈ items) ∧
      (container.isSet = true → kept.Pairwise fun a b => Value.same a b = false) := by
  have hdistinct := distinct_spec items
  cases container with
  | list => exact ⟨items, rfl, fun x hx => hx, fun hset => absurd hset Bool.false_ne_true⟩
  | tuple => exact ⟨items, rfl, fun x hx => hx, fun hset => absurd hset Bool.false_ne_true⟩
  | set =>
    refine ⟨Value.distinct items, ?_, hdistinct.1, fun _ => hdistinct.2⟩
    simp only [collect, Value.unhashableItem?_eq_none_iff.mpr (h rfl), Traced.outcome_ok,
      Container.holding]
  | frozenset =>
    refine ⟨Value.distinct items, ?_, hdistinct.1, fun _ => hdistinct.2⟩
    simp only [collect, Value.unhashableItem?_eq_none_iff.mpr (h rfl), Traced.outcome_ok,
      Container.holding]

/-! ## Mappings -/

lemma forall_mem_put {entries : List (Value × Value)} {key value : Value}
    {P : Value → Prop} {Q : Value → Prop} (h : ∀ e ∈ entries, P e.1 ∧ Q e.2) (hkey : P key)
    (hvalue : Q value) : ∀ e ∈ Value.put entries key value, P e.1 ∧ Q e.2 := by
  intro e he
  rw [Value.put] at he
  split at he
  · obtain ⟨⟨k, v⟩, hkv, rfl⟩ := List.mem_map.mp he
    -- an equal key stays as it is and takes the new value
    dsimp only
    split
    · exact ⟨(h _ hkv).1, hvalue⟩
    · exact h _ hkv
  · rcases List.mem_append.mp he with he | he
    · exact h e he
    · rw [List.mem_singleton.mp he]
      exact ⟨hkey, hvalue⟩

lemma outcome_keyPath_bind {α : Type} {key : Value} (h : key.isWritable = true) (path : String)
    (f : String → Attempt α) :
    (keyPath path key >>= f).outcome = (f (path ++ "." ++ key.plain)).outcome := by
  rw [keyPath, if_pos h]
  exact Traced.outcome_bind_ok rfl f

lemma outcome_keyPath_bind_of_long {α : Type} {key : Value} (h : key.isWritable = false)
    (path : String) (f : String → Attempt α) :
    (keyPath path key >>= f).outcome = .error (.raised .tooLong) := by
  rw [keyPath, if_neg (Bool.not_eq_true _ ▸ h)]
  exact Traced.outcome_bind_error rfl f

/-- An entry whose key and value are loaded is put behind those that are done. -/
lemma outcome_loadEntries_cons {path : String} {k v key value : Value}
    {done entries : List (Value × Value)} (hk : (loadKey k (path ++ ".<key>")).outcome = .ok key)
    (hwrite : key.isWritable = true)
    (hv : (loadValue v (path ++ "." ++ key.plain)).outcome = .ok value)
    (hhash : key.unhashable? = none) :
    (loadEntries loadKey loadValue path done ((k, v) :: entries)).outcome =
      (loadEntries loadKey loadValue path (Value.put done key value) entries).outcome := by
  rw [loadEntries, Traced.outcome_bind_ok hk, outcome_keyPath_bind hwrite,
    Traced.outcome_bind_ok hv, hhash]

lemma keyPath_decides (path : String) (key : Value) :
    (keyPath path key).Decides True (key.isWritable = false) fun _ => True := by
  rw [keyPath]
  split
  · exact .accepted trivial rfl trivial
  · rename_i hlong
    exact .tooLong (Bool.not_eq_true _ ▸ hlong) rfl

lemma loadEntries_decides
    (hkey : ∀ v path, (loadKey v path).Decides (conformsKey v) (longKey v)
      fun w => inhabitsKey w ∧ (w.isWritable = false → longKey v))
    (hhash : ∀ w, inhabitsKey w → w.unhashable? = none)
    (hvalue : ∀ v path, (loadValue v path).Decides (conforms v) (long v) inhabits) (path : String)
    (entries : List (Value × Value)) :
    ∀ done, (∀ e ∈ done, inhabitsKey e.1 ∧ inhabits e.2) →
      (loadEntries loadKey loadValue path done entries).Decides
        (∀ e ∈ entries, conformsKey e.1 ∧ conforms e.2) (∃ e ∈ entries, longKey e.1 ∨ long e.2)
        fun made => ∀ e ∈ made, inhabitsKey e.1 ∧ inhabits e.2 := by
  induction entries with
  | nil => exact fun done hdone => .accepted (by simp) rfl hdone
  | cons e entries ih =>
    obtain ⟨k, v⟩ := e
    intro done hdone
    rw [loadEntries]
    have hsplit : (conformsKey k ∧ True ∧ conforms v ∧ ∀ e ∈ entries, conformsKey e.1 ∧
      conforms e.2) ↔
        ∀ e ∈ (k, v) :: entries, conformsKey e.1 ∧ conforms e.2 := by
      rw [List.forall_mem_cons, and_assoc, true_and]
    have hlong : (longKey k ∨ longKey k ∨ long v ∨ ∃ e ∈ entries, longKey e.1 ∨ long e.2) →
        ∃ e ∈ (k, v) :: entries, longKey e.1 ∨ long e.2 := by
      simp only [List.mem_cons, exists_eq_or_imp, or_assoc]
      exact fun hl => hl.elim .inl id
    apply Attempt.Decides.congr _ hsplit
    apply Attempt.Decides.mono _ hlong
    apply (hkey k _).bind
    intro key hk
    apply ((keyPath_decides path key).mono hk.2).bind
    intro place _
    apply (hvalue v place).bind
    intro value hv
    rw [hhash key hk.1]
    exact ih _ (forall_mem_put hdone hk.1 hv)

end Parts

/-! ## Choices -/

/-- A choice tries its first variant and goes on where that rejects; what it said is kept for the
message. -/
lemma outcome_loadVariants_cons (choice : String) (s : Schema) (rest : List Schema)
    (problems : List String) (v : Value) (path : String) :
    ∃ problems', (loadVariants choice (s :: rest) problems v path).outcome =
      match (s.load v path).outcome with
      | .error (.rejected _) => (loadVariants choice rest problems' v path).outcome
      | outcome => outcome := by
  by_cases hs : s = .null
  · subst hs
    refine ⟨problems, ?_⟩
    by_cases hv : v = .null
    · subst hv
      rw [loadVariants, load]
      rfl
    · rw [loadVariants, load]
      · rfl
      · exact hv
      · exact hv
  · rw [loadVariants]
    cases hload : (s.load v path).outcome with
    | ok w => exact ⟨problems, hload⟩
    | error e =>
      cases e with
      | raised e => exact ⟨problems, hload⟩
      | rejected r => exact ⟨problems ++ [r.message], rfl⟩
    exact hs

lemma loadVariants_decides {long : Schema → Prop} {variants : List Schema} (choice : String)
    (v : Value) (path : String)
    (h : ∀ s ∈ variants, (s.load v path).Decides (s.Conforms v) (long s) s.Inhabits) :
    ∀ problems, (loadVariants choice variants problems v path).Decides
      (∃ s ∈ variants, s.Conforms v)
      (∃ s ∈ variants, long s) fun w => ∃ s ∈ variants, s.Inhabits w := by
  induction variants with
  | nil => exact fun problems => .rejected (by simp) rfl
  | cons s variants ih =>
    intro problems
    rw [List.forall_mem_cons] at h
    simp only [List.mem_cons, exists_eq_or_imp]
    obtain ⟨problems', hnext⟩ := outcome_loadVariants_cons choice s variants problems v path
    cases h.1 with
    | accepted hv ok hw =>
      rw [ok] at hnext
      exact .accepted (.inl hv) hnext (.inl hw)
    | tooLong hl error =>
      rw [error] at hnext
      exact .tooLong (.inl hl) hnext
    | rejected hv error =>
      rw [error] at hnext
      cases ih h.2 problems' with
      | accepted hrest ok hw => exact .accepted (.inr hrest) (hnext.trans ok) (.inr hw)
      | tooLong hl error' => exact .tooLong (.inr hl) (hnext.trans error')
      | rejected hrest error' =>
        exact .rejected (fun hor => hor.elim hv hrest) (hnext.trans error')

/-- A choice gives what one of its variants gives. -/
lemma exists_of_loadVariants {choice : String} {variants : List Schema} {v w : Value}
    {path : String} :
    ∀ {problems}, (loadVariants choice variants problems v path).outcome = .ok w →
      ∃ s ∈ variants, (s.load v path).outcome = .ok w := by
  induction variants with
  | nil =>
    intro problems h
    cases h
  | cons s variants ih =>
    intro problems h
    obtain ⟨problems', hnext⟩ := outcome_loadVariants_cons choice s variants problems v path
    rw [h] at hnext
    cases hload : (s.load v path).outcome with
    | ok w' =>
      rw [hload] at hnext
      exact ⟨s, List.mem_cons_self, hload.trans hnext.symm⟩
    | error e =>
      cases e with
      | raised e =>
        rw [hload] at hnext
        cases hnext
      | rejected r =>
        rw [hload] at hnext
        obtain ⟨s', hs', hw⟩ := ih hnext.symm
        exact ⟨s', List.mem_cons_of_mem _ hs', hw⟩

/-! ## Records -/

lemma unknownKeys_eq_nil_iff {fields : List (FieldSpec Schema)} {entries : List (Value × Value)} :
    unknownKeys fields entries = [] ↔ ∀ e ∈ entries, NamesField fields e.1 := by
  rw [unknownKeys, List.filter_eq_nil_iff, List.forall_mem_map]
  apply forall_congr'
  intro e
  simp [NamesField, givenNames]

/-- A mapping with unknown keys is rejected, if all of these have a text. -/
lemma rejectUnknown_decides {α : Type} {p : Prop} {good : α → Prop} (hp : ¬ p) (path : String)
    {fields : List (FieldSpec Schema)} {entries : List (Value × Value)} :
    (rejectUnknown path (unknownKeys fields entries) : Attempt α).Decides p
      (Value.map entries).Overlong good := by
  rw [rejectUnknown]
  split
  · exact .rejected hp rfl
  · rename_i hlong
    refine .tooLong ?_ rfl
    rw [Bool.not_eq_true, List.all_eq_false] at hlong
    obtain ⟨k, hk, hwrite⟩ := hlong
    obtain ⟨e, he, rfl⟩ := List.mem_map.mp (List.mem_filter.mp hk).1
    rw [Bool.not_eq_true] at hwrite
    exact Value.overlong_map_of_mem he (.inl (Value.overlong_of_not_isWritable hwrite))

/-- A mapping has for a field what it needs: a value that conforms, or none where there is a
default. A field that is never given needs nothing. -/
def Serves (entries : List (Value × Value)) (f : FieldSpec Schema) : Prop :=
  f.given = true →
    (∀ v, Value.get? entries (.str f.name) = some v → f.schema.Conforms v) ∧
      (Value.get? entries (.str f.name) = none → f.default?.isSome = true)

lemma overlong_of_get? {entries : List (Value × Value)} {key v : Value}
    (h : Value.get? entries key = some v) (hv : v.Overlong) : (Value.map entries).Overlong := by
  obtain ⟨e, hfind, rfl⟩ := Option.map_eq_some_iff.mp h
  exact Value.overlong_map_of_mem (List.mem_of_find?_eq_some hfind) (.inr hv)

/-- The value of a field is typed or the default; it is missing only where nothing is given. -/
def FieldValue (f : FieldSpec Schema) : Option Value → Prop
  | some w => f.schema.Inhabits w ∨ f.default? = some w
  | none => f.given = false ∧ f.default? = none

/-- An integer that a message about the field may quote is too long. -/
def LongIn (entries : List (Value × Value)) (f : FieldSpec Schema) : Prop :=
  (Value.map entries).Overlong ∨ f.schema.Overlong

lemma loadField_decides {f : FieldSpec Schema} (h : f.schema.IsDecided)
    (entries : List (Value × Value)) (path : String) :
    (loadField f.schema.load f.name f.default? f.given entries path).Decides (Serves entries f)
      (LongIn entries f) (FieldValue f) := by
  unfold loadField
  cases hgiven : f.given with
  | false =>
    have hserves : Serves entries f := by
      intro htrue
      rw [hgiven] at htrue
      exact absurd htrue Bool.false_ne_true
    cases hdefault : f.default? with
    | some w => exact .accepted hserves rfl (.inr hdefault)
    | none => exact .accepted hserves rfl ⟨hgiven, hdefault⟩
  | true =>
    simp only [if_true]
    cases hpresent : Value.get? entries (.str f.name) with
    | some v =>
      have hserves : f.schema.Conforms v ↔ Serves entries f := by
        unfold Serves
        simp [hgiven, hpresent]
      refine (((h v _).bind_ok fun w hw => ⟨some w, rfl, .inl hw⟩).mono fun hl => ?_).congr hserves
      exact hl.imp_left fun hv => overlong_of_get? hpresent hv
    | none =>
      cases hdefault : f.default? with
      | some w =>
        refine .accepted ?_ rfl (.inr hdefault)
        intro _
        simp [hpresent, hdefault]
      | none =>
        refine .rejected ?_ rfl
        intro hserves
        have hsome := (hserves hgiven).2 hpresent
        rw [hdefault] at hsome
        exact absurd hsome Bool.false_ne_true

lemma loadFields_decides {fields : List (FieldSpec Schema)}
    (h : ∀ f ∈ fields, f.schema.IsDecided) (entries : List (Value × Value)) (path : String) :
    (loadFields fields entries path).Decides (∀ f ∈ fields, Serves entries f)
      (∃ f ∈ fields, LongIn entries f) (InhabitsFields fields) := by
  induction fields with
  | nil =>
    rw [loadFields]
    exact .accepted (by simp) rfl .nil
  | cons f fields ih =>
    rw [List.forall_mem_cons] at h
    obtain ⟨name, schema, default?, given⟩ := f
    rw [loadFields]
    refine Attempt.Decides.congr (Attempt.Decides.mono ((loadField_decides h.1 entries path).bind
      fun value? hvalue => (ih h.2).bind_ok fun values hvalues => ?_) ?_) List.forall_mem_cons.symm
    · cases value? with
      | none => exact ⟨values, rfl, .unset hvalue.1 hvalue.2 hvalues⟩
      | some w =>
        refine ⟨(name, w) :: values, rfl, ?_⟩
        rcases hvalue with htyped | hdefault
        · exact .typed htyped hvalues
        · exact .default hdefault hvalues
    · simp only [List.mem_cons, exists_eq_or_imp, imp_self]

/-! ## Schemas -/

lemma accepts_iff {type : ScalarType} {v : Value} : type.accepts v = true ↔ HasType type v := by
  constructor
  · intro h
    unfold ScalarType.accepts at h
    split at h
    case h_5 => cases h
    -- a value that is not mixed is its own text or number
    all_goals
      rename_i hbare
      unfold Value.bare at hbare
      split at hbare
    all_goals cases hbare
    · exact .mixedStr _ _ _
    · exact .str _
    · exact .mixedInt _ _ _
    · exact .int _
    · exact .mixedFloat _ _ _
    · exact .float _
    · exact .bool _
  · intro h
    cases h with
    | _ => rfl

section Enumeration

variable {e : Enumeration} {v : Value}

lemma exists_of_own? {w : Value} (h : e.own? v = some w) :
    ∃ entry ∈ e.canonical, ∃ value mixed, v = .member e.name entry.1 value mixed ∧
      w = e.memberOf entry := by
  unfold Enumeration.own? at h
  split at h
  · rename_i enumeration name value mixed
    split at h
    · rename_i hname
      obtain ⟨entry, hfind, rfl⟩ := Option.map_eq_some_iff.mp h
      have hentry := List.find?_some hfind
      refine ⟨entry, List.mem_of_find?_eq_some hfind, value, mixed, ?_, rfl⟩
      rw [hname, show entry.1 = name from of_decide_eq_true hentry]
    · cases h
  · cases h

lemma exists_of_withValue? {w : Value} (h : e.withValue? v = some w) :
    ∃ entry ∈ e.canonical, Value.same entry.2 v = true ∧ w = e.memberOf entry := by
  obtain ⟨entry, hfind, rfl⟩ := Option.map_eq_some_iff.mp h
  have hsame := List.find?_some hfind
  exact ⟨entry, List.mem_of_find?_eq_some hfind, hsame, rfl⟩

/-- A value is or stands for a member exactly when it conforms. -/
lemma conforms_enumeration_iff : (enumeration e).Conforms v ↔ (e.find? v).isSome = true := by
  rw [Enumeration.find?, Option.isSome_or, Bool.or_eq_true]
  constructor
  · intro h
    cases h with
    | @member _ entry hmem value mixed =>
      left
      rw [Enumeration.own?, if_pos rfl, Option.isSome_map, List.find?_isSome]
      exact ⟨entry, hmem, decide_eq_true rfl⟩
    | @memberValue _ entry _ hmem hsame =>
      right
      rw [Enumeration.withValue?, Option.isSome_map, List.find?_isSome]
      exact ⟨entry, hmem, hsame⟩
  · rintro (h | h)
    · obtain ⟨w, hw⟩ := Option.isSome_iff_exists.mp h
      obtain ⟨entry, hmem, value, mixed, rfl, -⟩ := exists_of_own? hw
      exact .member hmem value mixed
    · obtain ⟨w, hw⟩ := Option.isSome_iff_exists.mp h
      obtain ⟨entry, hmem, hsame, -⟩ := exists_of_withValue? hw
      exact .memberValue hmem hsame

lemma exists_of_find? {w : Value} (h : e.find? v = some w) :
    ∃ entry ∈ e.canonical, w = e.memberOf entry := by
  rcases Option.or_eq_some_iff.mp h with h | ⟨-, h⟩
  · obtain ⟨entry, hmem, -, -, -, hw⟩ := exists_of_own? h
    exact ⟨entry, hmem, hw⟩
  · obtain ⟨entry, hmem, -, hw⟩ := exists_of_withValue? h
    exact ⟨entry, hmem, hw⟩

lemma enumeration_load_decides (e : Enumeration) (v : Value) (path : String) :
    ((enumeration e).load v path).Decides ((enumeration e).Conforms v)
      (v.Overlong ∨ (enumeration e).Overlong) (enumeration e).Inhabits := by
  rw [load]
  cases hfind : e.find? v with
  | some w =>
    obtain ⟨entry, hmem, rfl⟩ := exists_of_find? hfind
    exact .accepted (conforms_enumeration_iff.mpr (by rw [hfind]; rfl)) rfl (.member hmem)
  | none =>
    have hnot : ¬ (enumeration e).Conforms v := by
      rw [conforms_enumeration_iff, hfind]
      exact Bool.false_ne_true
    exact (Attempt.rejectOther_decides hnot path _ v).mono fun hl => hl.imp_right .enumeration

end Enumeration

/-- A key that is loaded has a text if the value has one. -/
lemma isWritable_of_load {s : Schema} (hs : s.Keyable) {v w : Value} {path : String}
    (h : (s.load v path).outcome = .ok w) (hw : w.isWritable = false) : v.Overlong := by
  induction hs with
  | scalar type =>
    rw [load] at h
    split at h
    · obtain rfl := Except.ok.inj h
      exact Value.overlong_of_not_isWritable hw
    · cases h
  | null =>
    by_cases hv : v = .null
    · subst hv
      rw [load] at h
      obtain rfl := Except.ok.inj h
      cases hw
    · rw [load] at h
      · cases h
      · exact hv
  | literal atoms =>
    rw [load] at h
    split at h
    · obtain rfl := Except.ok.inj h
      exact Value.overlong_of_not_isWritable hw
    · exact absurd h (Attempt.outcome_rejectOther_ne_ok _ _ _ _)
  | enumeration e =>
    rw [load] at h
    cases hfind : e.find? v with
    | some m =>
      rw [hfind] at h
      obtain rfl := Except.ok.inj h
      obtain ⟨entry, -, rfl⟩ := exists_of_find? hfind
      cases hw
    | none =>
      rw [hfind] at h
      exact absurd h (Attempt.outcome_rejectOther_ne_ok _ _ _ _)
  | union each ih =>
    rw [load] at h
    obtain ⟨s, hs, hload⟩ := exists_of_loadVariants h
    exact ih s hs hload
  | named _ ih =>
    rw [load] at h
    exact ih h
  | noted _ ih =>
    rw [load] at h
    exact ih h

lemma collection_load_decides {container : Container} {item : Schema} (h : item.IsDecided)
    (keys : container.isSet = true → item.Keyable) : (collection container item).IsDecided := by
  intro v path
  rw [load, loadSequence]
  cases hitems : items? v with
  | none =>
    refine .rejected ?_ rfl
    intro hconforms
    cases hconforms with
    | collection sequence each =>
      rcases sequence with rfl | rfl
      · cases hitems
      · cases hitems
  | some items =>
    have hsequence : v = .list items ∨ v = .tuple items := by
      unfold items? at hitems
      split at hitems
      · exact .inl (congrArg _ (Option.some_inj.mp hitems))
      · exact .inr (congrArg _ (Option.some_inj.mp hitems))
      · cases hitems
    have hconforms : (∀ x ∈ items, item.Conforms x) ↔ (collection container item).Conforms v := by
      refine ⟨fun each => .collection hsequence each, ?_⟩
      intro hconforms
      cases hconforms with
      | collection sequence each =>
        rcases hsequence with rfl | rfl <;> rcases sequence with heq | heq <;> cases heq
        · exact each
        · exact each
    have hlong : (∃ x ∈ items, x.Overlong ∨ item.Overlong) →
        v.Overlong ∨ (collection container item).Overlong := by
      rintro ⟨x, hx, hlong | hlong⟩
      · exact .inl (Value.overlong_of_mem hsequence hx hlong)
      · exact .inr (.collection hlong)
    apply Attempt.Decides.congr _ hconforms
    apply Attempt.Decides.mono _ hlong
    apply (loadItems_decides h path items 0).bind_ok
    intro made hmade
    obtain ⟨kept, hkept, hmem, honce⟩ := exists_collect container made
      fun hset x hx => (hmade x hx).hashable (keys hset)
    exact ⟨_, hkept, .collection (fun x hx => hmade x (hmem x hx)) honce⟩

lemma map_load_of_other {key value : Schema} {v : Value} (h : ¬ ∃ entries, v = .map entries)
    (path : String) :
    (map key value).load v path = Attempt.reject path (.expectedMapping v.kind) := by
  rw [load]
  exact fun entries heq => h ⟨entries, heq⟩

lemma record_load_of_other {name : String} {fields : List (FieldSpec Schema)} {v : Value}
    (h : ¬ ∃ entries, v = .map entries) (path : String) :
    (record name fields).load v path = Attempt.reject path (.expectedRecord name v.kind) := by
  rw [load]
  exact fun entries heq => h ⟨entries, heq⟩

lemma map_load_decides {key value : Schema} (hkey : key.IsDecided) (keys : key.Keyable)
    (hvalue : value.IsDecided) : (map key value).IsDecided := by
  intro v path
  by_cases hmap : ∃ entries, v = .map entries
  · obtain ⟨entries, rfl⟩ := hmap
    rw [load]
    have hconforms : (∀ e ∈ entries, key.Conforms e.1 ∧ value.Conforms e.2) ↔
        (map key value).Conforms (.map entries) := by
      constructor
      · exact fun each => .map (fun e he => (each e he).1) fun e he => (each e he).2
      · intro h
        cases h with
        | map hkeys hvalues => exact fun e he => ⟨hkeys e he, hvalues e he⟩
    have hlong : (∃ e ∈ entries, (e.1.Overlong ∨ key.Overlong) ∨ e.2.Overlong ∨ value.Overlong) →
        (Value.map entries).Overlong ∨ (map key value).Overlong := by
      rintro ⟨e, he, (hlong | hlong) | hlong | hlong⟩
      · exact .inl (Value.overlong_map_of_mem he (.inl hlong))
      · exact .inr (.mapKey hlong)
      · exact .inl (Value.overlong_map_of_mem he (.inr hlong))
      · exact .inr (.mapValue hlong)
    have hwritten : ∀ v path, (key.load v path).Decides (key.Conforms v) (v.Overlong ∨ key.Overlong)
        fun w => key.Inhabits w ∧ (w.isWritable = false → v.Overlong ∨ key.Overlong) :=
      fun v path => (hkey v path).and_of_ok fun w hw hwrite =>
        .inl (isWritable_of_load keys hw hwrite)
    apply Attempt.Decides.congr _ hconforms
    apply Attempt.Decides.mono _ hlong
    apply (loadEntries_decides hwritten (fun w hw => hw.hashable keys) hvalue path entries []
      (by simp)).bind_ok
    intro made hmade
    exact ⟨.map made, rfl, .map (fun e he => (hmade e he).1) fun e he => (hmade e he).2⟩
  · rw [map_load_of_other hmap]
    refine .rejected ?_ rfl
    intro hconforms
    cases hconforms
    exact hmap ⟨_, rfl⟩

lemma conforms_record_iff {name : String} {fields : List (FieldSpec Schema)}
    {entries : List (Value × Value)} :
    (record name fields).Conforms (.map entries) ↔
      (∀ e ∈ entries, NamesField fields e.1) ∧ ∀ f ∈ fields, Serves entries f := by
  constructor
  · intro h
    cases h with
    | record known present absent =>
      exact ⟨known, fun f hf hgiven => ⟨present f hf hgiven, absent f hf hgiven⟩⟩
  · rintro ⟨known, hserves⟩
    exact .record known (fun f hf hgiven => (hserves f hf hgiven).1)
      fun f hf hgiven => (hserves f hf hgiven).2

lemma record_load_decides {name : String} {fields : List (FieldSpec Schema)}
    (h : ∀ f ∈ fields, f.schema.IsDecided) : (record name fields).IsDecided := by
  intro v path
  by_cases hmap : ∃ entries, v = .map entries
  · obtain ⟨entries, rfl⟩ := hmap
    rw [load]
    cases hunknown : unknownKeys fields entries with
    | nil =>
      have hknown := unknownKeys_eq_nil_iff.mp hunknown
      have hconforms : (∀ f ∈ fields, Serves entries f) ↔
          (record name fields).Conforms (.map entries) := by
        rw [conforms_record_iff]
        exact ⟨fun hserves => ⟨hknown, hserves⟩, And.right⟩
      have hlong : (∃ f ∈ fields, LongIn entries f) →
          (Value.map entries).Overlong ∨ (record name fields).Overlong := by
        rintro ⟨f, hf, hlong | hlong⟩
        · exact .inl hlong
        · exact .inr (.record hf hlong)
      apply Attempt.Decides.congr _ hconforms
      apply Attempt.Decides.mono _ hlong
      apply (loadFields_decides h entries path).bind_ok
      intro values hvalues
      exact ⟨.record name values, rfl, .record hvalues⟩
    | cons k ks =>
      have hnot : ¬ (record name fields).Conforms (.map entries) := by
        rw [conforms_record_iff, ← unknownKeys_eq_nil_iff, hunknown]
        simp
      have hreject : (rejectUnknown path (unknownKeys fields entries)).Decides
          ((record name fields).Conforms (.map entries))
          ((Value.map entries).Overlong ∨ (record name fields).Overlong)
          (record name fields).Inhabits :=
        (rejectUnknown_decides hnot path).mono fun hlong => .inl hlong
      rwa [hunknown] at hreject
  · rw [record_load_of_other hmap]
    refine .rejected ?_ rfl
    intro hconforms
    cases hconforms
    exact hmap ⟨_, rfl⟩

lemma scalar_load_decides (type : ScalarType) : (scalar type).IsDecided := by
  intro v path
  rw [load]
  split
  · rename_i h
    exact .accepted (.scalar (accepts_iff.mp h)) rfl (.scalar (accepts_iff.mp h))
  · rename_i h
    refine .rejected ?_ rfl
    intro hconforms
    cases hconforms with
    | scalar htype => exact h (accepts_iff.mpr htype)

lemma literal_load_decides (allowed : List Value) : (literal allowed).IsDecided := by
  intro v path
  rw [load]
  split
  · rename_i h
    obtain ⟨a, ha, hsame⟩ := List.any_eq_true.mp h
    exact .accepted (.literal ha hsame) rfl (.literal ha hsame)
  · rename_i h
    have hnot : ¬ (literal allowed).Conforms v := by
      intro hconforms
      cases hconforms with
      | literal mem same => exact h (List.any_eq_true.mpr ⟨_, mem, same⟩)
    exact (Attempt.rejectOther_decides hnot path allowed v).mono fun hl => hl.imp_right .literal

lemma union_load_decides {variants : List Schema} (h : ∀ s ∈ variants, s.IsDecided) :
    (union variants).IsDecided := by
  intro v path
  rw [load]
  refine (((loadVariants_decides _ v path (fun s hs => h s hs v path) []).congr ?_).mono ?_).imp ?_
  · constructor
    · rintro ⟨s, hs, hv⟩
      exact .union hs hv
    · intro h
      cases h with
      | union mem hv => exact ⟨_, mem, hv⟩
  · rintro ⟨s, hs, hlong | hlong⟩
    · exact .inl hlong
    · exact .inr (.union hs hlong)
  · rintro w ⟨s, hs, hw⟩
    exact .union hs hw

/-- Loading by a supported schema decides conformance. -/
lemma load_decides {s : Schema} (hs : s.Supported) : s.IsDecided := by
  induction hs with
  | any =>
    intro v path
    rw [load]
    exact .accepted (.any v) rfl (.any v)
  | scalar type => exact scalar_load_decides type
  | null =>
    intro v path
    by_cases hv : v = .null
    · subst hv
      rw [load]
      exact .accepted .null rfl .null
    · rw [load]
      · refine .rejected ?_ rfl
        intro hconforms
        cases hconforms
        exact hv rfl
      · exact hv
  | literal allowed => exact literal_load_decides allowed
  | enumeration e => exact enumeration_load_decides e
  | collection _ keys ih => exact collection_load_decides ih keys
  | map _ keys _ ihkey ihvalue => exact map_load_decides ihkey keys ihvalue
  | union _ ih => exact union_load_decides ih
  | named _ ih =>
    intro v path
    rw [load]
    refine (((ih v path).congr ⟨.named, ?_⟩).mono fun hl => hl.imp_right .named).imp
      fun w hw => .named hw
    intro h
    cases h with
    | named hv => exact hv
  | noted _ ih =>
    intro v path
    rw [load]
    refine (((ih v path).congr ⟨.noted, ?_⟩).mono fun hl => hl.imp_right .noted).imp
      fun w hw => .noted hw
    intro h
    cases h with
    | noted hv => exact hv
  | record _ ih => exact record_load_decides ih

/-- Unless an integer is too long to be written, a value is loaded exactly when it conforms, and is
rejected when it does not. What is loaded always conforms, and its typed form inhabits the schema;
what is rejected never conforms. The only other failure is that an integer is too long, in the value
or among those that the schema quotes. -/
theorem load_iff_conforms (s : Schema) (hs : s.Supported) (v : Value) (path : String) :
    (¬ v.Overlong → ¬ s.Overlong →
      ((∃ w, (s.load v path).outcome = .ok w) ↔ s.Conforms v) ∧
        (¬ s.Conforms v → ∃ r, (s.load v path).outcome = .error (.rejected r))) ∧
      (∀ w, (s.load v path).outcome = .ok w → s.Conforms v ∧ s.Inhabits w) ∧
      (∀ r, (s.load v path).outcome = .error (.rejected r) → ¬ s.Conforms v) ∧
      ∀ e, (s.load v path).outcome = .error (.raised e) →
        e = .tooLong ∧ (v.Overlong ∨ s.Overlong) := by
  cases load_decides hs v path with
  | accepted hconforms ok hw =>
    rw [ok]
    refine ⟨fun _ _ => ⟨⟨fun _ => hconforms, fun _ => ⟨_, rfl⟩⟩, absurd hconforms⟩, ?_, nofun,
      nofun⟩
    rintro _ ⟨⟩
    exact ⟨hconforms, hw⟩
  | rejected hnot error =>
    rw [error]
    exact ⟨fun _ _ => ⟨⟨nofun, fun hconforms => absurd hconforms hnot⟩, fun _ => ⟨_, rfl⟩⟩, nofun,
      fun _ _ => hnot, nofun⟩
  | tooLong hlong error =>
    rw [error]
    refine ⟨fun hv hs => absurd hlong (not_or.mpr ⟨hv, hs⟩), nofun, nofun, ?_⟩
    rintro _ ⟨⟩
    exact ⟨rfl, hlong⟩

/-- An enumeration of two colors. -/
def sampleEnumeration : Enumeration :=
  { name := "Color", members := [("RED", .str "red"), ("BLUE", .str "blue")] }

/-- A record with a set of members, a choice with a default and a field that is never given. -/
def sampleSchema : Schema :=
  .record "Palette"
    [{ name := "colors", schema := .collection .set (.enumeration sampleEnumeration) },
     { name := "size", schema := .union [.scalar .int, .null], default? := some .null },
     { name := "stamp", schema := .any, given := false }]

lemma supported_sample : sampleSchema.Supported := by
  apply Supported.record
  simp only [List.forall_mem_cons]
  refine ⟨?_, ?_, ?_, by simp⟩
  · exact .collection (.enumeration _) fun _ => .enumeration _
  · apply Supported.union
    simp only [List.forall_mem_cons]
    exact ⟨.scalar _, .null, by simp⟩
  · exact .any

/-- A value of the sample schema with a repeated item and without its second field. -/
def sampleValue : Value :=
  .map [(.str "colors", .list [.str "blue", .str "blue"])]

lemma conforms_sample : sampleSchema.Conforms sampleValue := by
  have hblue : Conforms (.enumeration sampleEnumeration) (.str "blue") := by
    have hmem : ("BLUE", Value.str "blue") ∈ sampleEnumeration.canonical := by
      simp [sampleEnumeration, Enumeration.canonical]
    exact .memberValue hmem (by simp)
  have hcolors : Conforms (.collection .set (.enumeration sampleEnumeration))
      (.list [.str "blue", .str "blue"]) :=
    .collection (.inl rfl) (by simpa using hblue)
  apply Conforms.record
  · simp [NamesField]
  · simp only [List.forall_mem_cons]
    simpa [Value.get?] using hcolors
  · simp [Value.get?]

/-- No message about the sample schema quotes a long integer. -/
lemma not_overlong_sample : ¬ sampleSchema.Overlong := by
  rintro (_ | _ | _ | _ | _ | _ | _ | _ | ⟨hmem, hlong⟩)
  simp only [List.mem_cons, List.not_mem_nil, or_false] at hmem
  rcases hmem with rfl | rfl | rfl
  · cases hlong with
    | collection h =>
      cases h with
      | enumeration h => simp [sampleEnumeration, Enumeration.canonical, Value.areShowable,
          Value.isShowable] at h
  · cases hlong with
    | union hmem h =>
      simp only [List.mem_cons, List.not_mem_nil, or_false] at hmem
      rcases hmem with rfl | rfl
      · cases h
      · cases h
  · cases hlong

theorem load_iff_conforms_sample :
    sampleSchema.Supported ∧
      (∃ w, (sampleSchema.load sampleValue "$").outcome = .ok w ∧ sampleSchema.Inhabits w) ∧
      ∃ r, (sampleSchema.load (.list []) "$").outcome = .error (.rejected r) := by
  obtain ⟨hdecides, hok, -⟩ := load_iff_conforms sampleSchema supported_sample sampleValue "$"
  obtain ⟨w, hw⟩ := (hdecides (by decide) not_overlong_sample).1.mpr conforms_sample
  refine ⟨supported_sample, ⟨w, hw, (hok w hw).2⟩, ?_⟩
  obtain ⟨hdecides, -⟩ := load_iff_conforms sampleSchema supported_sample (.list []) "$"
  exact (hdecides (by decide) not_overlong_sample).2 nofun

/-- A text or an integer: the values that conform are those of either kind. -/
def textOrInt : Schema := .union [.literal [.str "a"], .scalar .int]

/-- The shortest integer that is too long to be written. -/
def longInt : Value := .int (Nat.pow 10 Text.mostDigits)

lemma overlong_longInt : longInt.Overlong := by
  rw [Value.Overlong, longInt, Value.isShowable, Value.isShort, Int.natAbs_natCast,
    decide_eq_false_iff_not]
  exact Nat.lt_irrefl _

lemma same_str_longInt (s : String) : Value.same (.str s) longInt = false := by
  have hint : ∀ n : Int, Value.same (.str s) (.int n) = false := by
    simp [Value.same, Value.sameLeaf, Value.bare]
  exact hint _

/-- A value that conforms is not loaded, and one that does not is not rejected: a message would
quote it, and it is too long. -/
theorem load_overlong :
    textOrInt.Conforms longInt ∧
      (textOrInt.load longInt "$").outcome = .error (.raised .tooLong) ∧
      ¬ (literal [.str "error"]).Conforms longInt ∧
      ((literal [.str "error"]).load longInt "$").outcome = .error (.raised .tooLong) := by
  have hother : ∀ (s : String) (path : String),
      ((literal [.str s]).load longInt path).outcome = .error (.raised .tooLong) := by
    intro s path
    rw [load, if_neg (by simp [same_str_longInt]), Attempt.rejectOther, if_neg]
    · rfl
    · rw [Bool.and_eq_true, not_and_or, Bool.not_eq_true, Bool.not_eq_true]
      exact .inr overlong_longInt
  refine ⟨.union (List.mem_cons_of_mem _ List.mem_cons_self) (.scalar (.int _)), ?_, ?_, hother _ _⟩
  · obtain ⟨problems, hnext⟩ :=
      outcome_loadVariants_cons textOrInt.title (.literal [.str "a"]) [.scalar .int] [] longInt "$"
    rw [hother] at hnext
    rw [textOrInt, load]
    exact hnext
  · rintro (_ | _ | _ | ⟨hmem, hsame⟩)
    rw [List.mem_singleton.mp hmem, same_str_longInt] at hsame
    cases hsame

end Schema

end EntryLint
