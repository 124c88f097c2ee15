import EntryLint.Proofs.Schema.Blame

/-!
# Tuples of fixed length

The declaration of a tuple has a schema for every place, and so says two things about a value: how
many items it has, and what each of them looks like (`TypedByPlaces`). Loading looks at neither. It
reads as many items as there are, and all of them by the first schema: `tuple_load_by_first` says
what it gives and how it fails, for every declaration and every value. `tuple_load_not_by_places`
shows the difference on three values.
-/

namespace EntryLint.Schema

open Attempt

/-! ## Items by their places -/

/-- Items are loaded one by one, each by the schema of its place. -/
inductive LoadsEach : List Schema → List Value → List Value → Prop
  | nil : LoadsEach [] [] []
  | cons {s : Schema} {schemas : List Schema} {x w : Value} {xs ws : List Value}
      (first : LoadsAs s.load x w) (rest : LoadsEach schemas xs ws) :
      LoadsEach (s :: schemas) (x :: xs) (w :: ws)

/-- What the declaration of a tuple says of a value and its typed form: the value is a sequence with
as many items as there are places, and its typed form the tuple of these items, loaded by their
places. -/
def TypedByPlaces (schemas : List Schema) (v w : Value) : Prop :=
  ∃ xs ws, (v = .list xs ∨ v = .tuple xs) ∧ LoadsEach schemas xs ws ∧ w = .tuple ws

lemma LoadsEach.length_eq {schemas : List Schema} {xs ws : List Value}
    (h : LoadsEach schemas xs ws) :
    schemas.length = xs.length := by
  induction h with
  | nil => rfl
  | cons _ _ ih => rw [List.length_cons, List.length_cons, ih]

lemma loadsEach_cons_iff {s : Schema} {schemas : List Schema} {x : Value} {xs ws : List Value} :
    LoadsEach (s :: schemas) (x :: xs) ws ↔
      ∃ w, LoadsAs s.load x w ∧ ∃ rest, LoadsEach schemas xs rest ∧ w :: rest = ws := by
  constructor
  · intro h
    cases h with
    | cons first rest => exact ⟨_, first, _, rest, rfl⟩
  · rintro ⟨w, first, rest, hrest, rfl⟩
    exact .cons first hrest

/-- A value that is typed by places has as many items as there are places. -/
lemma TypedByPlaces.length_eq {schemas : List Schema} {v w : Value} {xs : List Value}
    (h : TypedByPlaces schemas v w) (hxs : items? v = some xs) : schemas.length = xs.length := by
  obtain ⟨ys, ws, hsequence, heach, -⟩ := h
  obtain rfl := Option.some.inj ((items?_eq_some_iff.mpr hsequence).symm.trans hxs)
  exact heach.length_eq

/-! ## Items by the first schema -/

lemma loadFirst_cons (item : Schema) (others : List Schema) :
    loadFirst (item :: others) = item.load := by
  funext v path
  rw [loadFirst]

/-- A sequence is loaded as if every place had the same schema. -/
lemma loadItems_eq_ok_iff (item : Schema) (path : String) (xs : List Value) :
    ∀ {i : Nat} {ws : List Value}, (loadItems item.load path i xs).outcome = .ok ws ↔
      LoadsEach (List.replicate xs.length item) xs ws := by
  induction xs with
  | nil =>
    intro i ws
    constructor
    · intro h
      obtain rfl := Except.ok.inj h
      exact .nil
    · intro h
      cases h
      rfl
  | cons x xs ih =>
    intro i ws
    rw [List.length_cons, List.replicate_succ, loadsEach_cons_iff, loadItems]
    simp only [Traced.outcome_bind_eq_ok_iff, loadsAs_iff (load_alike item), ih,
      Traced.outcome_pure, Except.ok.injEq]

lemma tuple_load_eq (item : Schema) (others : List Schema) (v : Value) (path : String) :
    (tuple (item :: others)).load v path = loadSequence item.load .tuple v path := by
  rw [load, loadFirst_cons]

/-- A tuple of items that are loaded is collected as it is. -/
lemma outcome_tuple_load (item : Schema) (others : List Schema) {v : Value} {xs : List Value}
    (hxs : items? v = some xs) (path : String) :
    ((tuple (item :: others)).load v path).outcome =
      (loadItems item.load path 0 xs).outcome.map Value.tuple := by
  rw [tuple_load_eq, loadSequence, hxs]
  simp only [Traced.outcome_bind]
  cases (loadItems item.load path 0 xs).outcome with
  | error e => rfl
  | ok ws => rfl

lemma tuple_load_of_other (item : Schema) (others : List Schema) {v : Value} (h : items? v = none)
    (path : String) :
    (tuple (item :: others)).load v path = Attempt.reject path (.expectedList v.kind) := by
  rw [tuple_load_eq, loadSequence, h]

lemma tuple_load_eq_ok_iff {item : Schema} {others : List Schema} {v w : Value} {path : String} :
    ((tuple (item :: others)).load v path).outcome = .ok w ↔
      ∃ n, TypedByPlaces (List.replicate n item) v w := by
  cases hitems : items? v with
  | none =>
    rw [tuple_load_of_other item others hitems]
    refine ⟨nofun, ?_⟩
    rintro ⟨n, xs, ws, hsequence, -⟩
    cases hitems.symm.trans (items?_eq_some_iff.mpr hsequence)
  | some xs =>
    rw [outcome_tuple_load item others hitems]
    constructor
    · intro h
      cases hload : (loadItems item.load path 0 xs).outcome with
      | error e =>
        rw [hload] at h
        cases h
      | ok ws =>
        rw [hload] at h
        exact ⟨xs.length, xs, ws, items?_eq_some_iff.mp hitems,
          (loadItems_eq_ok_iff item path xs).mp hload, (Except.ok.inj h).symm⟩
    · rintro ⟨n, ys, ws, hsequence, heach, rfl⟩
      obtain rfl := Option.some.inj ((items?_eq_some_iff.mpr hsequence).symm.trans hitems)
      -- the number of places is that of the items
      obtain rfl : n = ys.length := by simpa using heach.length_eq
      rw [(loadItems_eq_ok_iff item path ys).mpr heach]
      rfl

lemma tuple_load_eq_error_iff {item : Schema} {others : List Schema} {v : Value} {path : String}
    {e : LoadError} :
    ((tuple (item :: others)).load v path).outcome = .error e ↔
      (items? v = none ∧ e = .rejected { path, reason := .expectedList v.kind }) ∨
        ∃ xs, items? v = some xs ∧ StopsAt (Accepts item.load) (fun before x =>
          (item.load x (path ++ (Step.index before.length).text)).outcome = .error e) xs := by
  cases hitems : items? v with
  | none =>
    rw [tuple_load_of_other item others hitems]
    simp only [outcome_reject, Except.error.injEq, true_and, reduceCtorEq, false_and, exists_false,
      or_false]
    exact eq_comm
  | some xs =>
    have hstops : (loadItems item.load path 0 xs).outcome = .error e ↔ _ :=
      loadItems_eq_error_iff (load_alike item)
    simp only [Nat.zero_add] at hstops
    simp only [reduceCtorEq, false_and, Option.some.injEq, exists_eq_left', false_or, ← hstops,
      outcome_tuple_load item others hitems]
    cases (loadItems item.load path 0 xs).outcome with
    | error e' => simp [Except.map]
    | ok ws => simp [Except.map]

/-! ## Declarations and values -/

/-- Whatever a tuple declares for its other places, a value is loaded exactly when it is a sequence,
of any length, all of whose items are loaded by the first schema. Another value fails: it is
rejected if it is no sequence, and else fails as its first item does that the first schema does not
load. So every declaration with a place loads the empty sequence, which none of them admits. -/
theorem tuple_load_by_first (item : Schema) (others : List Schema) (v : Value) (path : String) :
    (∀ w, ((tuple (item :: others)).load v path).outcome = .ok w ↔
      ∃ n, TypedByPlaces (List.replicate n item) v w) ∧
    (∀ e, ((tuple (item :: others)).load v path).outcome = .error e ↔
      ((¬ ∃ xs, v = .list xs ∨ v = .tuple xs) ∧
        e = .rejected { path, reason := .expectedList v.kind }) ∨
      ∃ before x after, (v = .list (before ++ x :: after) ∨ v = .tuple (before ++ x :: after)) ∧
        (∀ y ∈ before, Accepts item.load y) ∧
        (item.load x (path ++ "[" ++ toString before.length ++ "]")).outcome = .error e) ∧
    ((tuple (item :: others)).load (.list []) path).outcome = .ok (.tuple []) ∧
      ∀ w, ¬ TypedByPlaces (item :: others) (.list []) w := by
  have hempty : TypedByPlaces (List.replicate 0 item) (.list []) (.tuple []) :=
    ⟨[], [], .inl rfl, .nil, rfl⟩
  refine ⟨fun w => tuple_load_eq_ok_iff, fun e => ?_, tuple_load_eq_ok_iff.mpr ⟨0, hempty⟩, ?_⟩
  · have hnone : items? v = none ↔ ¬ ∃ xs, v = .list xs ∨ v = .tuple xs := by
      simp only [← items?_eq_some_iff, ← Option.isSome_iff_exists, Option.not_isSome_iff_eq_none]
    have hplace : ∀ i : Nat, path ++ "[" ++ toString i ++ "]" = path ++ (Step.index i).text := by
      intro i
      simp only [Step.text, String.append_assoc]
    rw [tuple_load_eq_error_iff, hnone]
    refine or_congr_right ?_
    simp only [hplace, ← items?_eq_some_iff]
    constructor
    · rintro ⟨xs, hxs, before, x, after, rfl, hbefore, hx⟩
      exact ⟨before, x, after, hxs, hbefore, hx⟩
    · rintro ⟨before, x, after, hxs, hbefore, hx⟩
      exact ⟨_, hxs, before, x, after, rfl, hbefore, hx⟩
  · intro w h
    have hlength : (item :: others).length = 0 := h.length_eq rfl
    cases hlength

/-- A tuple of an integer and a text. -/
def pairSchemas : List Schema := [.scalar .int, .scalar .str]

/-- What the declaration admits is rejected; a wrong item in the second place and a missing one are
not. -/
theorem tuple_load_not_by_places :
    (TypedByPlaces pairSchemas (.list [.int 1, .str "a"]) (.tuple [.int 1, .str "a"]) ∧
      ((tuple pairSchemas).load (.list [.int 1, .str "a"]) "$").outcome =
        .error (.rejected { path := "$[1]", reason := .expectedScalar "int" "str" })) ∧
    ((∀ w, ¬ TypedByPlaces pairSchemas (.list [.int 1, .int 2]) w) ∧
      ((tuple pairSchemas).load (.list [.int 1, .int 2]) "$").outcome =
        .ok (.tuple [.int 1, .int 2])) ∧
    (∀ w, ¬ TypedByPlaces pairSchemas (.list [.int 1]) w) ∧
      ((tuple pairSchemas).load (.list [.int 1]) "$").outcome = .ok (.tuple [.int 1]) := by
  refine ⟨⟨?_, rfl⟩, ⟨?_, rfl⟩, ?_, rfl⟩
  · exact ⟨_, _, .inl rfl, .cons (fun _ => rfl) (.cons (fun _ => rfl) .nil), rfl⟩
  · rintro w ⟨xs, ws, hsequence, heach, -⟩
    obtain rfl := Option.some.inj (items?_eq_some_iff.mpr hsequence)
    cases heach with
    | cons _ rest =>
      cases rest with
      | cons second _ => cases second "$"
  · intro w h
    have hlength : pairSchemas.length = 1 := h.length_eq rfl
    cases hlength

end EntryLint.Schema
