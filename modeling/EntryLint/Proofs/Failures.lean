import EntryLint.Proofs.Traced

/-!
# Failures

When a computation fails, and what it gives otherwise. `StopsAt` says where a walk along a list
ends, and `FirstFailing` picks the member at which a step by step check does. `Settles` describes an
outcome from both sides, and is put together along the parts of a computation. `SettlesWith` does so
for a computation with a state, from every state with a property that the computation keeps.
-/

namespace EntryLint

/-! ## First members -/

section StopsAt

variable {α : Type} {passes : α → Prop} {stops : List α → α → Prop} {x : α} {xs : List α}

/-- A list has a member with a property behind members with another. -/
def StopsAt (passes : α → Prop) (stops : List α → α → Prop) (xs : List α) : Prop :=
  ∃ before a after, xs = before ++ a :: after ∧ (∀ b ∈ before, passes b) ∧ stops before a

lemma not_stopsAt_nil : ¬ StopsAt passes stops [] := by
  rintro ⟨before, a, after, hnil, -⟩
  simp at hnil

lemma stopsAt_cons_iff :
    StopsAt passes stops (x :: xs) ↔
      stops [] x ∨ (passes x ∧ StopsAt passes (fun before => stops (x :: before)) xs) := by
  constructor
  · rintro ⟨before, a, after, hxs, hbefore, hstops⟩
    cases before with
    | nil =>
      obtain ⟨rfl, -⟩ := List.cons.inj hxs
      exact .inl hstops
    | cons b before =>
      obtain ⟨rfl, rfl⟩ := List.cons.inj hxs
      rw [List.forall_mem_cons] at hbefore
      exact .inr ⟨hbefore.1, before, a, after, rfl, hbefore.2, hstops⟩
  · rintro (hstops | ⟨hx, before, a, after, rfl, hbefore, hstops⟩)
    · exact ⟨[], x, xs, rfl, by simp, hstops⟩
    · exact ⟨x :: before, a, after, rfl, List.forall_mem_cons.mpr ⟨hx, hbefore⟩, hstops⟩

end StopsAt

section FirstFailing

variable {α : Type} {P : α → Prop} {xs : List α} {a : α}

/-- `a` is the first member of a list without a property. -/
def FirstFailing (P : α → Prop) (xs : List α) (a : α) : Prop :=
  ∃ before after, xs = before ++ a :: after ∧ (∀ b ∈ before, P b) ∧ ¬ P a

lemma firstFailing_iff [DecidablePred P] :
    FirstFailing P xs a ↔ xs.find? (fun x => !decide (P x)) = some a := by
  rw [List.find?_eq_some_iff_append]
  constructor
  · rintro ⟨before, after, hxs, hbefore, ha⟩
    exact ⟨by simpa using ha, before, after, hxs, by simpa using hbefore⟩
  · rintro ⟨ha, before, after, hxs, hbefore⟩
    exact ⟨before, after, hxs, by simpa using hbefore, by simpa using ha⟩

lemma FirstFailing.unique {b : α} (ha : FirstFailing P xs a) (hb : FirstFailing P xs b) :
    a = b := by
  classical
  rw [firstFailing_iff] at ha hb
  exact Option.some_inj.mp (ha.symm.trans hb)

lemma FirstFailing.not_holds (h : FirstFailing P xs a) : ¬ P a := by
  obtain ⟨-, -, -, -, ha⟩ := h
  exact ha

lemma FirstFailing.not_forall (h : FirstFailing P xs a) : ¬ ∀ x ∈ xs, P x := by
  obtain ⟨before, after, rfl, -, ha⟩ := h
  exact fun hall => ha (hall a (by simp))

lemma forall_or_firstFailing (P : α → Prop) [DecidablePred P] (xs : List α) :
    (∀ x ∈ xs, P x) ∨ ∃ x, FirstFailing P xs x := by
  cases hfind : xs.find? fun x => !decide (P x) with
  | none => exact .inl (by simpa using List.find?_eq_none.mp hfind)
  | some x => exact .inr ⟨x, firstFailing_iff.mpr hfind⟩

lemma firstFailing_iff_stopsAt :
    FirstFailing P xs a ↔ StopsAt P (fun _ b => b = a ∧ ¬ P b) xs := by
  constructor
  · rintro ⟨before, after, hxs, hbefore, ha⟩
    exact ⟨before, a, after, hxs, hbefore, rfl, ha⟩
  · rintro ⟨before, _, after, hxs, hbefore, rfl, ha⟩
    exact ⟨before, after, hxs, hbefore, ha⟩

lemma not_firstFailing_nil : ¬ FirstFailing P [] a :=
  firstFailing_iff_stopsAt.not.mpr not_stopsAt_nil

lemma firstFailing_cons_iff {x : α} :
    FirstFailing P (x :: xs) a ↔ (x = a ∧ ¬ P x) ∨ (P x ∧ FirstFailing P xs a) := by
  rw [firstFailing_iff_stopsAt, firstFailing_iff_stopsAt, stopsAt_cons_iff]

end FirstFailing

/-! ## Outcomes -/

variable {ε α β : Type}

/-- An outcome is one of the failures that there may be, or there is none and it is a good value. -/
inductive Settles (r : Except ε α) (fails : ε → Prop) (good : α → Prop) : Prop
  | error {e : ε} (eq : r = .error e) (h : fails e) : Settles r fails good
  | ok {a : α} (eq : r = .ok a) (none : ∀ e, ¬ fails e) (h : good a) : Settles r fails good

namespace Settles

variable {r : Except ε α} {p q : ε → Prop} {good good' : α → Prop}

lemma self (r : Except ε α) : Settles r (fun e => r = .error e) fun a => r = .ok a := by
  cases r with
  | error e => exact .error rfl rfl
  | ok a => exact .ok rfl nofun rfl

lemma exists_error_iff (h : Settles r p good) : (∃ e, r = .error e) ↔ ∃ e, p e := by
  cases h with
  | error eq hp => exact ⟨fun _ => ⟨_, hp⟩, fun _ => ⟨_, eq⟩⟩
  | ok eq hnone _ =>
    rw [eq]
    exact ⟨nofun, fun ⟨e, he⟩ => absurd he (hnone e)⟩

lemma mono (h : Settles r p good) (hpq : ∀ e, p e → q e)
    (hnone : (∀ e, ¬ p e) → ∀ e, ¬ q e) : Settles r q good := by
  cases h with
  | error eq hp => exact .error eq (hpq _ hp)
  | ok eq hnot hgood => exact .ok eq (hnone hnot) hgood

lemma congr (h : Settles r p good) (hpq : ∀ e, p e ↔ q e) : Settles r q good :=
  h.mono (fun e => (hpq e).mp) fun hnot e => mt (hpq e).mpr (hnot e)

lemma imp (h : Settles r p good) (himp : ∀ a, good a → good' a) : Settles r p good' := by
  cases h with
  | error eq hp => exact .error eq hp
  | ok eq hnone hgood => exact .ok eq hnone (himp _ hgood)

/-- Two computations in a row fail with one of them. -/
lemma bind {f : α → Except ε β} {good' : β → Prop} (h : Settles r p good)
    (hf : ∀ a, good a → Settles (f a) q good') :
    Settles (r >>= f) (fun e => p e ∨ ((∀ e', ¬ p e') ∧ q e)) good' := by
  cases h with
  | error eq hp =>
    rw [eq]
    exact .error rfl (.inl hp)
  | @ok a eq hnone hgood =>
    rw [eq]
    cases hf a hgood with
    | error eq' hq => exact .error eq' (.inr ⟨hnone, hq⟩)
    | ok eq' hnone' hgood' =>
      exact .ok eq' (fun e he => he.elim (hnone e) fun hq => hnone' e hq.2) hgood'

lemma bind_or {f : α → Except ε β} {good' : β → Prop} (h : Settles r p good)
    (hf : ∀ a, good a → Settles (f a) q good') : Settles (r >>= f) (fun e => p e ∨ q e) good' := by
  apply (h.bind hf).mono
  · exact fun e he => he.imp_right And.right
  · intro hnot e he
    have hp : ∀ e', ¬ p e' := fun e' hp => hnot e' (.inl hp)
    exact hnot e (he.imp_right fun hq => ⟨hp, hq⟩)

/-- A computation that is followed by one that cannot fail. -/
lemma bind_ok {f : α → Except ε β} {good' : β → Prop} (h : Settles r p good)
    (hf : ∀ a, good a → ∃ b, f a = .ok b ∧ good' b) : Settles (r >>= f) p good' := by
  have hbind : Settles (r >>= f) (fun e => p e ∨ ((∀ e', ¬ p e') ∧ False)) good' := by
    apply h.bind
    intro a ha
    obtain ⟨b, hb, hgood⟩ := hf a ha
    exact .ok hb (fun _ => id) hgood
  exact hbind.congr fun e => by simp

lemma mapError {ε' : Type} (g : ε → ε') (h : Settles r p good) :
    Settles (r.mapError g) (fun e' => ∃ e, e' = g e ∧ p e) good := by
  cases h with
  | @error e eq hp =>
    rw [eq]
    exact .error rfl ⟨e, rfl, hp⟩
  | ok eq hnone hgood =>
    rw [eq]
    exact .ok rfl (fun _ ⟨e, _, hp⟩ => hnone e hp) hgood

end Settles

/-! ## Computations with a state -/

section SettlesWith

variable {σ τ : Type} {inv : σ → Prop} {x : StateT σ (Traced τ ε) α}
  {f : α → StateT σ (Traced τ ε) β}
  {p q : ε → Prop} {good good' : α → Prop} {good₂ : β → Prop}

/-- From every state with a property, a computation fails in one of the ways that there are, or
there is none and it gives a good value and a state with the property. -/
def SettlesWith (inv : σ → Prop) (x : StateT σ (Traced τ ε) α) (fails : ε → Prop)
    (good : α → Prop) : Prop :=
  ∀ s, inv s → Settles (x s).outcome fails fun r => good r.1 ∧ inv r.2

namespace SettlesWith

lemma of_pure {a : α} (h : good a) (hnone : ∀ e, ¬ p e) :
    SettlesWith inv (pure a : StateT σ (Traced τ ε) α) p good :=
  fun _ hs => .ok rfl hnone ⟨h, hs⟩

/-- A part that does not look at the state. -/
lemma of_lift {y : Traced τ ε α} (h : Settles y.outcome p good) :
    SettlesWith inv (StateT.lift y : StateT σ (Traced τ ε) α) p good := by
  intro s hs
  show Settles (y >>= fun a => pure (a, s)).outcome _ _
  rw [Traced.outcome_bind]
  exact h.bind_ok fun a ha => ⟨(a, s), rfl, ha, hs⟩

lemma congr (h : SettlesWith inv x p good) (hpq : ∀ e, p e ↔ q e) : SettlesWith inv x q good :=
  fun s hs => (h s hs).congr hpq

lemma imp (h : SettlesWith inv x p good) (himp : ∀ a, good a → good' a) :
    SettlesWith inv x p good' :=
  fun s hs => (h s hs).imp fun _ hr => ⟨himp _ hr.1, hr.2⟩

lemma bind (h : SettlesWith inv x p good) (hf : ∀ a, good a → SettlesWith inv (f a) q good₂) :
    SettlesWith inv (x >>= f) (fun e => p e ∨ ((∀ e', ¬ p e') ∧ q e)) good₂ := by
  intro s hs
  show Settles (x s >>= fun r => f r.1 r.2).outcome _ _
  rw [Traced.outcome_bind]
  exact (h s hs).bind fun r hr => hf r.1 hr.1 r.2 hr.2

lemma bind_or (h : SettlesWith inv x p good) (hf : ∀ a, good a → SettlesWith inv (f a) q good₂) :
    SettlesWith inv (x >>= f) (fun e => p e ∨ q e) good₂ := by
  intro s hs
  show Settles (x s >>= fun r => f r.1 r.2).outcome _ _
  rw [Traced.outcome_bind]
  exact (h s hs).bind_or fun r hr => hf r.1 hr.1 r.2 hr.2

/-- A computation whose value is only looked at afterwards. -/
lemma bind_pure {g : α → β} (h : SettlesWith inv x p good) (hg : ∀ a, good a → good₂ (g a)) :
    SettlesWith inv (x >>= fun a => pure (g a)) p good₂ := by
  intro s hs
  show Settles (x s >>= fun r => pure (g r.1, r.2)).outcome _ _
  rw [Traced.outcome_bind]
  exact (h s hs).bind_ok fun r hr => ⟨(g r.1, r.2), rfl, hg r.1 hr.1, hr.2⟩

/-- Something that cannot fail comes before a computation. -/
lemma lift_bind {y : Traced τ ε α} {a : α} (hy : y.outcome = .ok a)
    (hf : SettlesWith inv (f a) q good₂) :
    SettlesWith inv ((StateT.lift y : StateT σ (Traced τ ε) α) >>= f) q good₂ := by
  have hlift : SettlesWith inv (StateT.lift y : StateT σ (Traced τ ε) α) (fun _ => False) (· = a) :=
    of_lift (.ok hy (fun _ => id) rfl)
  have hbind : SettlesWith inv ((StateT.lift y : StateT σ (Traced τ ε) α) >>= f)
      (fun e => False ∨ q e) good₂ := hlift.bind_or fun b hb => by rwa [hb]
  exact hbind.congr fun e => iff_of_eq (false_or (q e))

end SettlesWith

end SettlesWith

end EntryLint
