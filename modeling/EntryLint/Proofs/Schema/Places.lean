import EntryLint.Proofs.Schema.Load

/-!
# Places of rejections

A value is rejected at the path it was loaded with, or at the path of one of its parts, which
continues that path (`Schema.load_within`). The path decides nothing else: two attempts at one value
with different paths end alike (`Schema.load_alike`), even where a choice passes over rejections
that name them.
-/

namespace EntryLint

/-- A text continues a path: it is empty or starts with a dot or a bracket. -/
def Continues (rest : String) : Prop :=
  rest = "" ∨ rest.toList.head? = some '.' ∨ rest.toList.head? = some '['

namespace Continues

variable {s t : String}

lemma append (hs : Continues s) (ht : Continues t) : Continues (s ++ t) := by
  rcases hs with rfl | hs
  · rwa [String.empty_append]
  · refine .inr ?_
    rw [String.toList_append]
    cases hlist : s.toList with
    | nil => simp [hlist] at hs
    | cons c cs => simpa [hlist] using hs

lemma dot (s : String) : Continues ("." ++ s) :=
  .inr (.inl (by simp))

lemma bracket (s : String) : Continues ("[" ++ s) :=
  .inr (.inr (by simp))

end Continues

namespace Attempt

variable {α β : Type} {p q rest : String} {x y : Attempt α}

/-- Two attempts with different paths end alike: both with a value, both with the same exception, or
both with a rejection, at places that continue their paths in the same way. -/
inductive Alike (p q : String) (x y : Attempt α) : Prop
  | ok {a : α} (left : x.outcome = .ok a) (right : y.outcome = .ok a)
  | raised {e : Raised} (left : x.outcome = .error (.raised e))
      (right : y.outcome = .error (.raised e))
  | rejected {rest : String} {reason reason' : Reason} (continues : Continues rest)
      (left : x.outcome = .error (.rejected ⟨p ++ rest, reason⟩))
      (right : y.outcome = .error (.rejected ⟨q ++ rest, reason'⟩))

namespace Alike

lemma reject (p q : String) (reason reason' : Reason) :
    Alike p q (Attempt.reject p reason : Attempt α) (Attempt.reject q reason') :=
  .rejected (.inl rfl) (by rw [String.append_empty]; rfl) (by rw [String.append_empty]; rfl)

lemma rejectOther (p q : String) (allowed : List Value) (got : Value) :
    Alike p q (Attempt.rejectOther p allowed got : Attempt α)
      (Attempt.rejectOther q allowed got) := by
  rw [Attempt.rejectOther, Attempt.rejectOther]
  split
  · exact .reject _ _ _ _
  · exact .raised rfl rfl

/-- What ends alike below two paths ends alike at the paths. -/
lemma above (h : Alike (p ++ rest) (q ++ rest) x y) (hrest : Continues rest) : Alike p q x y := by
  cases h with
  | ok left right => exact .ok left right
  | raised left right => exact .raised left right
  | rejected continues left right =>
    rw [String.append_assoc] at left right
    exact .rejected (hrest.append continues) left right

lemma congr {x' y' : Attempt α} (h : Alike p q x y) (left : x'.outcome = x.outcome)
    (right : y'.outcome = y.outcome) : Alike p q x' y' := by
  cases h with
  | ok hx hy => exact .ok (left.trans hx) (right.trans hy)
  | raised hx hy => exact .raised (left.trans hx) (right.trans hy)
  | rejected continues hx hy => exact .rejected continues (left.trans hx) (right.trans hy)

lemma bind {f g : α → Attempt β} (h : Alike p q x y) (hf : ∀ a, Alike p q (f a) (g a)) :
    Alike p q (x >>= f) (y >>= g) := by
  cases h with
  | ok left right =>
    exact (hf _).congr (Traced.outcome_bind_ok left f) (Traced.outcome_bind_ok right g)
  | raised left right =>
    exact .raised (Traced.outcome_bind_error left f) (Traced.outcome_bind_error right g)
  | rejected continues left right =>
    exact .rejected continues (Traced.outcome_bind_error left f) (Traced.outcome_bind_error right g)

end Alike

/-- If an attempt is rejected, then at a path or below it. -/
def Within (x : Attempt α) (path : String) : Prop :=
  ∀ r, x.outcome = .error (.rejected r) → ∃ rest, r.path = path ++ rest

end Attempt

namespace Schema

open Attempt

variable {load loadKey loadValue : Value → String → Attempt Value}

lemma loadItems_alike (h : ∀ v p q, Alike p q (load v p) (load v q)) (p q : String)
    (items : List Value) :
    ∀ i, Alike p q (loadItems load p i items) (loadItems load q i items) := by
  induction items with
  | nil => exact fun i => .ok rfl rfl
  | cons x items ih =>
    intro i
    simp only [loadItems, String.append_assoc]
    refine ((h x _ _).above (.bracket _)).bind fun y => ?_
    exact (ih (i + 1)).bind fun ys => .ok rfl rfl

lemma loadEntries_alike (hkey : ∀ v p q, Alike p q (loadKey v p) (loadKey v q))
    (hvalue : ∀ v p q, Alike p q (loadValue v p) (loadValue v q)) (p q : String)
    (entries : List (Value × Value)) :
    ∀ done, Alike p q (loadEntries loadKey loadValue p done entries)
      (loadEntries loadKey loadValue q done entries) := by
  induction entries with
  | nil => exact fun done => .ok rfl rfl
  | cons e entries ih =>
    intro done
    rw [loadEntries, loadEntries]
    refine ((hkey e.1 _ _).above (.dot "<key>")).bind fun key => ?_
    cases hwrite : key.isWritable with
    | false =>
      exact .raised (outcome_keyPath_bind_of_long hwrite p _)
        (outcome_keyPath_bind_of_long hwrite q _)
    | true =>
      refine Alike.congr ?_ (outcome_keyPath_bind hwrite p _) (outcome_keyPath_bind hwrite q _)
      simp only [String.append_assoc]
      refine ((hvalue e.2 _ _).above (.dot _)).bind fun value => ?_
      cases key.unhashable? with
      | some typeName => exact .raised rfl rfl
      | none => exact ih _

lemma collect_alike (container : Container) (items : List Value) (p q : String) :
    Alike p q (collect container items) (collect container items) := by
  -- only a set can fail, and not by a rejection
  cases hitem : Value.unhashableItem? items with
  | none => cases container with
    | list | tuple => exact .ok rfl rfl
    | set | frozenset =>
      simp only [collect, hitem]
      exact .ok rfl rfl
  | some typeName => cases container with
    | list | tuple => exact .ok rfl rfl
    | set | frozenset =>
      simp only [collect, hitem]
      exact .raised rfl rfl

lemma loadSequence_alike (h : ∀ v p q, Alike p q (load v p) (load v q)) (container : Container)
    (v : Value) (p q : String) :
    Alike p q (loadSequence load container v p) (loadSequence load container v q) := by
  rw [loadSequence, loadSequence]
  cases items? v with
  | none => exact .reject _ _ _ _
  | some items =>
    exact (loadItems_alike h p q items 0).bind fun made => collect_alike container made p q

lemma loadField_alike (h : ∀ v p q, Alike p q (load v p) (load v q)) (name : String)
    (default? : Option Value) (given : Bool) (entries : List (Value × Value)) (p q : String) :
    Alike p q (loadField load name default? given entries p)
      (loadField load name default? given entries q) := by
  unfold loadField
  simp only [String.append_assoc]
  cases (if given = true then Value.get? entries (.str name) else none) with
  | some v => exact ((h v _ _).above (.dot name)).bind fun w => .ok rfl rfl
  | none =>
    cases default? with
    | some w => exact .ok rfl rfl
    | none =>
      cases given with
      | true => exact (Alike.reject _ _ _ _).above (.dot name)
      | false => exact .ok rfl rfl

lemma rejectUnknown_alike {α : Type} (keys : List Value) (p q : String) :
    Alike p q (rejectUnknown p keys : Attempt α) (rejectUnknown q keys) := by
  rw [rejectUnknown, rejectUnknown]
  split
  · exact .reject _ _ _ _
  · exact .raised rfl rfl

mutual

/-- Attempts at one value with different paths end alike. -/
lemma load_alike : ∀ (s : Schema) (v : Value) (p q : String), Alike p q (s.load v p) (s.load v q)
  | any, v, p, q => .ok rfl rfl
  | scalar type, v, p, q => by
    rw [Schema.load, Schema.load]
    split
    · exact .ok rfl rfl
    · exact .reject _ _ _ _
  | null, v, p, q => by
    -- the equations of loading split on the value, so it is split here as well
    by_cases hv : v = .null
    · subst hv
      exact .ok rfl rfl
    · rw [Schema.load, Schema.load]
      · exact .reject _ _ _ _
      · exact hv
      · exact hv
  | unsupported name, v, p, q => .reject _ _ _ _
  | literal allowed, v, p, q => by
    rw [Schema.load, Schema.load]
    split
    · exact .ok rfl rfl
    · exact .rejectOther _ _ _ _
  | enumeration e, v, p, q => by
    rw [Schema.load, Schema.load]
    cases e.find? v with
    | some m => exact .ok rfl rfl
    | none => exact .rejectOther _ _ _ _
  | collection container item, v, p, q => loadSequence_alike (load_alike item) container v p q
  | tuple items, v, p, q => loadSequence_alike (loadFirst_alike items) .tuple v p q
  | map key value, v, p, q => by
    by_cases hmap : ∃ entries, v = .map entries
    · obtain ⟨entries, rfl⟩ := hmap
      rw [Schema.load, Schema.load]
      refine (loadEntries_alike (load_alike key) (load_alike value) p q entries []).bind ?_
      exact fun made => .ok rfl rfl
    · rw [map_load_of_other hmap, map_load_of_other hmap]
      exact .reject _ _ _ _
  | union variants, v, p, q => loadVariants_alike _ variants [] [] v p q
  | named name base, v, p, q => load_alike base v p q
  | noted base, v, p, q => load_alike base v p q
  | record name fields, v, p, q => by
    by_cases hmap : ∃ entries, v = .map entries
    · obtain ⟨entries, rfl⟩ := hmap
      rw [Schema.load, Schema.load]
      cases unknownKeys fields entries with
      | nil => exact (loadFields_alike fields entries p q).bind fun values => .ok rfl rfl
      | cons k ks => exact rejectUnknown_alike (k :: ks) p q
    · rw [record_load_of_other hmap, record_load_of_other hmap]
      exact .reject _ _ _ _
  | model name validate, v, p, q => by
    rw [Schema.load, Schema.load]
    cases validate v with
    | ok made => exact .ok rfl rfl
    | error failure =>
      cases failure with
      | invalid detail => exact .reject _ _ _ _
      | raised e => exact .raised rfl rfl

lemma loadFirst_alike : ∀ (items : List Schema) (v : Value) (p q : String),
    Alike p q (loadFirst items v p) (loadFirst items v q)
  | [], _, _, _ => .ok rfl rfl
  | s :: _, v, p, q => load_alike s v p q

lemma loadVariants_alike (choice : String) :
    ∀ (variants : List Schema) (problems problems' : List String)
    (v : Value) (p q : String), Alike p q (loadVariants choice variants problems v p)
      (loadVariants choice variants problems' v q)
  | [], problems, problems', v, p, q => .reject _ _ _ _
  | s :: rest, problems, problems', v, p, q => by
    obtain ⟨left, hleft⟩ := outcome_loadVariants_cons choice s rest problems v p
    obtain ⟨right, hright⟩ := outcome_loadVariants_cons choice s rest problems' v q
    -- the rejections of a variant are passed over on both sides, whatever they say
    cases load_alike s v p q with
    | ok hp hq =>
      rw [hp] at hleft
      rw [hq] at hright
      exact .ok hleft hright
    | raised hp hq =>
      rw [hp] at hleft
      rw [hq] at hright
      exact .raised hleft hright
    | rejected _ hp hq =>
      rw [hp] at hleft
      rw [hq] at hright
      exact (loadVariants_alike choice rest left right v p q).congr hleft hright

lemma loadFields_alike : ∀ (fields : List (FieldSpec Schema)) (entries : List (Value × Value))
    (p q : String), Alike p q (loadFields fields entries p) (loadFields fields entries q)
  | [], entries, p, q => .ok rfl rfl
  | ⟨name, schema, default?, given⟩ :: rest, entries, p, q => by
    rw [loadFields, loadFields]
    refine (loadField_alike (load_alike schema) name default? given entries p q).bind fun value? =>
      ?_
    exact (loadFields_alike rest entries p q).bind fun values => .ok rfl rfl

end

/-- Loading rejects at the path that it is given, or below it. -/
lemma load_within (s : Schema) (v : Value) (path : String) : (s.load v path).Within path := by
  intro r hr
  cases load_alike s v path path with
  | ok left _ => cases hr.symm.trans left
  | raised left _ => cases hr.symm.trans left
  | rejected _ left _ =>
    obtain rfl := LoadError.rejected.inj (Except.error.inj (hr.symm.trans left))
    exact ⟨_, rfl⟩

end Schema

end EntryLint
