import EntryLint.Proofs.Failures
import EntryLint.Proofs.Schema.Kept
import EntryLint.Proofs.Schema.Places

/-!
# Blame

Which part of a value is to blame when it is rejected. `LeadsTo s v steps place` follows the loader
from a schema and a value to a place below: what it visits before is accepted on the way. A
rejection by a schema without choices and models is that of a place to which some steps lead, at the
path that they spell, and there is no other (`load_eq_rejected_iff`). The main result is
`load_blames`.
-/

namespace EntryLint.Schema

open Attempt

/-! ## Places -/

/-- A step from a value to a part of it. -/
inductive Step where
  | index (i : Nat)
  /-- To a key of a mapping. -/
  | key
  /-- To the value under a key. -/
  | entry (key : Value)
  | field (name : String)

namespace Step

/-- A step as a path spells it. -/
def text : Step → String
  | index i => "[" ++ toString i ++ "]"
  | key => ".<key>"
  | entry k => "." ++ k.plain
  | field name => "." ++ name

/-- Steps in a row as a path spells them. -/
def texts : List Step → String
  | [] => ""
  | step :: steps => step.text ++ texts steps

end Step

/-- A value is loaded as another, whatever its path. -/
def LoadsAs (load : Value → String → Attempt Value) (v w : Value) : Prop :=
  ∀ path, (load v path).outcome = .ok w

/-- A value is loaded, whatever its path. -/
def Accepts (load : Value → String → Attempt Value) (v : Value) : Prop :=
  ∃ w, LoadsAs load v w

/-- An entry of a mapping is loaded: its key as one that can be written and be a key, and its value.
-/
def AcceptsEntry (loadKey loadValue : Value → String → Attempt Value) (e : Value × Value) : Prop :=
  (∃ key, LoadsAs loadKey e.1 key ∧ key.isWritable = true ∧ key.unhashable? = none) ∧
    Accepts loadValue e.2

/-- A field of a record is loaded from a mapping: its value, or its default if there is none. A
field that is never given needs neither. -/
def AcceptsField (entries : List (Value × Value)) (f : FieldSpec Schema) : Prop :=
  f.given = true →
    (∀ v, Value.get? entries (.str f.name) = some v → Accepts f.schema.load v) ∧
      (Value.get? entries (.str f.name) = none → f.default?.isSome = true)

/-- A place that can be to blame: a value with its schema, or a field that is not there. -/
inductive Place where
  | value (s : Schema) (v : Value)
  | absent

/-- A place is to blame for a reason: the value is rejected at the very path that it is loaded with,
or the field is required. -/
def Place.IsToBlame : Place → Reason → Prop
  | .value s v, reason => ∀ path, (s.load v path).outcome = .error (.rejected { path, reason })
  | .absent, reason => reason = .missingField

/-- Loading a value by a schema comes by some steps to a place: everything before it is accepted. -/
inductive LeadsTo : Schema → Value → List Step → Place → Prop
  | here (s : Schema) (v : Value) : LeadsTo s v [] (.value s v)
  | named {name : String} {base : Schema} {v : Value} {steps : List Step} {place : Place}
      (rest : LeadsTo base v steps place) : LeadsTo (.named name base) v steps place
  | noted {base : Schema} {v : Value} {steps : List Step} {place : Place}
      (rest : LeadsTo base v steps place) : LeadsTo (.noted base) v steps place
  | item {container : Container} {item : Schema} {v x : Value} {before after : List Value}
      {steps : List Step} {place : Place} (sequence : items? v = some (before ++ x :: after))
      (accepted : ∀ y ∈ before, Accepts item.load y) (rest : LeadsTo item x steps place) :
      LeadsTo (.collection container item) v (.index before.length :: steps) place
  /-- The first schema of a tuple stands for every item. -/
  | tupleItem {item : Schema} {others : List Schema} {v x : Value} {before after : List Value}
      {steps : List Step} {place : Place} (sequence : items? v = some (before ++ x :: after))
      (accepted : ∀ y ∈ before, Accepts item.load y) (rest : LeadsTo item x steps place) :
      LeadsTo (.tuple (item :: others)) v (.index before.length :: steps) place
  | key {key value : Schema} {k x : Value} {before after : List (Value × Value)} {steps : List Step}
      {place : Place} (accepted : ∀ e ∈ before, AcceptsEntry key.load value.load e)
      (rest : LeadsTo key k steps place) :
      LeadsTo (.map key value) (.map (before ++ (k, x) :: after)) (.key :: steps) place
  | entry {key value : Schema} {k x w : Value} {before after : List (Value × Value)}
      {steps : List Step} {place : Place}
      (accepted : ∀ e ∈ before, AcceptsEntry key.load value.load e) (loaded : LoadsAs key.load k w)
      (written : w.isWritable = true) (rest : LeadsTo value x steps place) :
      LeadsTo (.map key value) (.map (before ++ (k, x) :: after)) (.entry w :: steps) place
  | field {name : String} {f : FieldSpec Schema} {before after : List (FieldSpec Schema)}
      {entries : List (Value × Value)} {v : Value} {steps : List Step} {place : Place}
      (known : ∀ e ∈ entries, NamesField (before ++ f :: after) e.1)
      (accepted : ∀ g ∈ before, AcceptsField entries g) (given : f.given = true)
      (present : Value.get? entries (.str f.name) = some v)
      (rest : LeadsTo f.schema v steps place) :
      LeadsTo (.record name (before ++ f :: after)) (.map entries) (.field f.name :: steps) place
  | missing {name : String} {f : FieldSpec Schema} {before after : List (FieldSpec Schema)}
      {entries : List (Value × Value)}
      (known : ∀ e ∈ entries, NamesField (before ++ f :: after) e.1)
      (accepted : ∀ g ∈ before, AcceptsField entries g) (given : f.given = true)
      (absent : Value.get? entries (.str f.name) = none) (required : f.default? = none) :
      LeadsTo (.record name (before ++ f :: after)) (.map entries) [.field f.name] .absent

/-- Schemas without choices and models. -/
inductive Direct : Schema → Prop
  | any : Direct .any
  | scalar (type : ScalarType) : Direct (.scalar type)
  | null : Direct .null
  | unsupported (name : String) : Direct (.unsupported name)
  | literal (allowed : List Value) : Direct (.literal allowed)
  | enumeration (e : Enumeration) : Direct (.enumeration e)
  | collection {container : Container} {item : Schema} (h : Direct item) :
      Direct (.collection container item)
  | tuple {items : List Schema} (each : ∀ s ∈ items, Direct s) : Direct (.tuple items)
  | map {key value : Schema} (hkey : Direct key) (hvalue : Direct value) : Direct (.map key value)
  | named {name : String} {base : Schema} (h : Direct base) : Direct (.named name base)
  | noted {base : Schema} (h : Direct base) : Direct (.noted base)
  | record {name : String} {fields : List (FieldSpec Schema)}
      (each : ∀ f ∈ fields, Direct f.schema) : Direct (.record name fields)

/-! ## Parts of the loader -/

section Parts

variable {load loadKey loadValue : Value → String → Attempt Value} {path : String} {r : Rejection}

lemma loadsAs_iff (h : ∀ v p q, Alike p q (load v p) (load v q)) {v w : Value} {p : String} :
    (load v p).outcome = .ok w ↔ LoadsAs load v w := by
  refine ⟨fun hw path => ?_, fun hw => hw p⟩
  cases h v p path with
  | ok left right =>
    obtain rfl := Except.ok.inj (hw.symm.trans left)
    exact right
  | raised left _ => cases hw.symm.trans left
  | rejected _ left _ => cases hw.symm.trans left

/-- A sequence fails at its first item that fails. -/
lemma loadItems_eq_error_iff (h : ∀ v p q, Alike p q (load v p) (load v q)) {e : LoadError}
    {xs : List Value} :
    ∀ {i : Nat}, (loadItems load path i xs).outcome = .error e ↔
      StopsAt (Accepts load) (fun before x =>
        (load x (path ++ (Step.index (i + before.length)).text)).outcome = .error e) xs := by
  induction xs with
  | nil => exact fun {i} => ⟨nofun, fun h => absurd h not_stopsAt_nil⟩
  | cons x xs ih =>
    intro i
    have hplace : path ++ "[" ++ toString i ++ "]" = path ++ (Step.index i).text := by
      simp only [Step.text, String.append_assoc]
    have hnext : ∀ before : List Value, i + 1 + before.length = i + (x :: before).length := by
      intro before
      rw [List.length_cons]
      omega
    simp only [loadItems, hplace, Traced.outcome_bind_eq_error_iff, Traced.outcome_pure,
      reduceCtorEq, and_false, exists_false, or_false, ih, hnext, loadsAs_iff h, stopsAt_cons_iff]
    exact or_congr_right exists_and_right

/-- An entry of a mapping is rejected for its key, or for its value if the key is loaded. -/
def RejectsEntry (loadKey loadValue : Value → String → Attempt Value) (path : String)
    (r : Rejection) (e : Value × Value) : Prop :=
  (loadKey e.1 (path ++ Step.key.text)).outcome = .error (.rejected r) ∨
    ∃ key, LoadsAs loadKey e.1 key ∧ key.isWritable = true ∧
      (loadValue e.2 (path ++ (Step.entry key).text)).outcome = .error (.rejected r)

/-- A mapping is rejected at its first entry that is rejected. -/
lemma loadEntries_eq_rejected_iff (hkey : ∀ v p q, Alike p q (loadKey v p) (loadKey v q))
    (hvalue : ∀ v p q, Alike p q (loadValue v p) (loadValue v q)) {entries : List (Value × Value)} :
    ∀ {done : List (Value × Value)},
      (loadEntries loadKey loadValue path done entries).outcome = .error (.rejected r) ↔
        StopsAt (AcceptsEntry loadKey loadValue) (fun _ => RejectsEntry loadKey loadValue path r)
          entries := by
  induction entries with
  | nil => exact fun {done} => ⟨nofun, fun h => absurd h not_stopsAt_nil⟩
  | cons e entries ih =>
    intro done
    have hplace : ∀ key : Value, path ++ "." ++ key.plain = path ++ (Step.entry key).text := by
      intro key
      simp only [Step.text, String.append_assoc]
    rw [stopsAt_cons_iff, loadEntries, Traced.outcome_bind_eq_error_iff]
    simp only [loadsAs_iff hkey, RejectsEntry]
    constructor
    · rintro (hrejects | ⟨key, hk, hrejects⟩)
      · exact .inl (.inl hrejects)
      · cases hwrite : key.isWritable with
        | false =>
          rw [outcome_keyPath_bind_of_long hwrite] at hrejects
          cases hrejects
        | true =>
          rw [outcome_keyPath_bind hwrite, hplace, Traced.outcome_bind_eq_error_iff] at hrejects
          rcases hrejects with hrejects | ⟨value, hv, hrest⟩
          · exact .inl (.inr ⟨key, hk, hwrite, hrejects⟩)
          · cases hhash : key.unhashable? with
            | some typeName =>
              rw [hhash] at hrest
              cases hrest
            | none =>
              rw [hhash] at hrest
              exact .inr ⟨⟨⟨key, hk, hwrite, hhash⟩, value, (loadsAs_iff hvalue).mp hv⟩,
                ih.mp hrest⟩
    · rintro ((hrejects | ⟨key, hk, hwrite, hrejects⟩) | ⟨⟨⟨key, hk, hwrite, hhash⟩, value,
        hv⟩, hrest⟩)
      · exact .inl hrejects
      · refine .inr ⟨key, hk, ?_⟩
        rw [outcome_keyPath_bind hwrite, hplace]
        exact Traced.outcome_bind_error hrejects _
      · refine .inr ⟨key, hk, ?_⟩
        rw [outcome_keyPath_bind hwrite, Traced.outcome_bind_ok (hv _), hhash]
        exact ih.mpr hrest

lemma collect_ne_rejected (container : Container) (items : List Value) :
    (collect container items).outcome ≠ .error (.rejected r) := by
  intro h
  cases hitem : Value.unhashableItem? items with
  | none => cases container <;> simp [collect, hitem] at h
  | some typeName => cases container <;> simp [collect, hitem] at h

/-- What is no sequence is rejected itself, and a sequence at its first item that is rejected. -/
lemma loadSequence_eq_rejected_iff (h : ∀ v p q, Alike p q (load v p) (load v q))
    {container : Container} {v : Value} :
    (loadSequence load container v path).outcome = .error (.rejected r) ↔
      (items? v = none ∧ r = { path, reason := .expectedList v.kind }) ∨
        ∃ xs, items? v = some xs ∧ StopsAt (Accepts load) (fun before x =>
          (load x (path ++ (Step.index before.length).text)).outcome =
            .error (.rejected r)) xs := by
  rw [loadSequence]
  cases hitems : items? v with
  | none =>
    simp only [outcome_reject, Except.error.injEq, LoadError.rejected.injEq, reduceCtorEq,
      false_and, exists_false, or_false, true_and]
    exact eq_comm
  | some xs =>
    have hitems : (loadItems load path 0 xs).outcome = .error (.rejected r) ↔ _ :=
      loadItems_eq_error_iff h
    simp only [Nat.zero_add] at hitems
    simp only [Traced.outcome_bind_eq_error_iff, collect_ne_rejected, and_false, exists_false,
      or_false, hitems, reduceCtorEq, false_and, false_or, Option.some.injEq, exists_eq_left']

end Parts

/-! ## Fields -/

section Fields

variable {entries : List (Value × Value)} {path : String} {r : Rejection}

/-- A field of a record is rejected for its value, or because it has none. -/
inductive RejectsField (entries : List (Value × Value)) (path : String) (r : Rejection)
    (f : FieldSpec Schema) : Prop
  | value {v : Value} (given : f.given = true) (present : Value.get? entries (.str f.name) = some v)
      (rejected : (f.schema.load v (path ++ (Step.field f.name).text)).outcome =
        .error (.rejected r))
  | missing (given : f.given = true) (absent : Value.get? entries (.str f.name) = none)
      (required : f.default? = none)
      (eq : r = { path := path ++ (Step.field f.name).text, reason := .missingField })

lemma fieldPath_eq (path name : String) : path ++ "." ++ name = path ++ (Step.field name).text := by
  simp only [Step.text, String.append_assoc]

lemma exists_loadField_iff (path : String) {f : FieldSpec Schema} :
    (∃ w?, (loadField f.schema.load f.name f.default? f.given entries path).outcome = .ok w?) ↔
      AcceptsField entries f := by
  unfold loadField AcceptsField
  cases f.given with
  | false =>
    refine ⟨fun _ => nofun, fun _ => ?_⟩
    cases f.default? with
    | some w => exact ⟨some w, rfl⟩
    | none => exact ⟨none, rfl⟩
  | true =>
    simp only [if_true, true_implies]
    cases hpresent : Value.get? entries (.str f.name) with
    | some v =>
      simp only [Traced.outcome_bind_eq_ok_iff, loadsAs_iff (load_alike f.schema),
        Option.some.injEq, forall_eq', reduceCtorEq, false_implies, and_true]
      exact ⟨fun ⟨_, w, hw, _⟩ => ⟨w, hw⟩, fun ⟨w, hw⟩ => ⟨some w, w, hw, rfl⟩⟩
    | none =>
      cases hdefault : f.default? with
      | some w => simp
      | none => simp

lemma loadField_eq_rejected_iff {f : FieldSpec Schema} :
    (loadField f.schema.load f.name f.default? f.given entries path).outcome =
      .error (.rejected r) ↔
      RejectsField entries path r f := by
  unfold loadField
  simp only [fieldPath_eq]
  constructor
  · intro h
    cases hgiven : f.given with
    | false =>
      simp only [hgiven] at h
      cases hdefault : f.default? with
      | some w =>
        rw [hdefault] at h
        cases h
      | none =>
        rw [hdefault] at h
        cases h
    | true =>
      simp only [hgiven, if_true] at h
      cases hpresent : Value.get? entries (.str f.name) with
      | some v =>
        simp only [hpresent, Traced.outcome_bind_eq_error_iff] at h
        rcases h with h | ⟨w, -, h⟩
        · exact .value hgiven hpresent h
        · cases h
      | none =>
        cases hdefault : f.default? with
        | some w =>
          simp only [hpresent, hdefault] at h
          cases h
        | none =>
          simp only [hpresent, hdefault] at h
          exact .missing hgiven hpresent hdefault (LoadError.rejected.inj (Except.error.inj h)).symm
  · intro h
    cases h with
    | value given present rejected =>
      simp only [given, if_true, present]
      exact Traced.outcome_bind_error rejected _
    | missing given absent required eq =>
      simp only [given, if_true, absent, required, eq]
      rfl

/-- A record is rejected at its first field that is rejected. -/
lemma loadFields_eq_rejected_iff {fields : List (FieldSpec Schema)} :
    (loadFields fields entries path).outcome = .error (.rejected r) ↔
      StopsAt (AcceptsField entries) (fun _ => RejectsField entries path r) fields := by
  induction fields with
  | nil => exact ⟨nofun, fun h => absurd h not_stopsAt_nil⟩
  | cons f fields ih =>
    rw [stopsAt_cons_iff, ← ih, ← loadField_eq_rejected_iff, ← exists_loadField_iff path]
    obtain ⟨name, schema, default?, given⟩ := f
    simp only [loadFields, Traced.outcome_bind_eq_error_iff, Traced.outcome_pure, reduceCtorEq,
      and_false, exists_false, or_false]
    exact or_congr_right exists_and_right

end Fields

/-! ## Whole schemas -/

/-- Some steps lead to a place that is to blame for a rejection, and spell its path. -/
def IsBlamed (s : Schema) (v : Value) (path : String) (r : Rejection) : Prop :=
  ∃ steps place, LeadsTo s v steps place ∧ place.IsToBlame r.reason ∧
    r.path = path ++ Step.texts steps

section Whole

variable {s s' : Schema} {v v' : Value} {path : String} {r : Rejection}

/-- A value that is rejected itself is to blame. -/
lemma IsBlamed.of_reject {reason : Reason}
    (hreject : ∀ path, s.load v path = Attempt.reject path reason)
    (h : (s.load v path).outcome = .error (.rejected r)) : IsBlamed s v path r := by
  rw [hreject] at h
  obtain rfl := LoadError.rejected.inj (Except.error.inj h)
  refine ⟨[], .value s v, .here s v, fun path => ?_, String.append_empty.symm⟩
  rw [hreject]
  rfl

/-- A value that is none of those allowed is to blame itself, if a message can quote them all. -/
lemma IsBlamed.of_rejectOther {allowed : List Value} {got : Value}
    (hreject : ∀ path, s.load v path = Attempt.rejectOther path allowed got)
    (h : (s.load v path).outcome = .error (.rejected r)) : IsBlamed s v path r := by
  by_cases hshow : (Value.areShowable allowed && got.isShowable) = true
  · exact .of_reject (fun path => by rw [hreject, Attempt.rejectOther, if_pos hshow]) h
  · rw [hreject, Attempt.rejectOther, if_neg hshow] at h
    cases h

/-- A mapping with keys that name no field is to blame itself, if a message can list them. -/
lemma IsBlamed.of_rejectUnknown {keys : List Value}
    (hreject : ∀ path, s.load v path = rejectUnknown path keys)
    (h : (s.load v path).outcome = .error (.rejected r)) : IsBlamed s v path r := by
  by_cases hwrite : keys.all Value.isWritable = true
  · exact .of_reject (fun path => by rw [hreject, rejectUnknown, if_pos hwrite]) h
  · rw [hreject, rejectUnknown, if_neg hwrite] at h
    cases h

/-- Blame is passed on from a part to the whole, with the step between them. -/
lemma IsBlamed.of_part {step : Step}
    (hleads : ∀ {steps place}, LeadsTo s' v' steps place → LeadsTo s v (step :: steps) place)
    (h : IsBlamed s' v' (path ++ step.text) r) : IsBlamed s v path r := by
  obtain ⟨steps, place, hsteps, hblame, hpath⟩ := h
  exact ⟨step :: steps, place, hleads hsteps, hblame,
    by rw [hpath, Step.texts, String.append_assoc]⟩

/-- Blame is passed on from the first field that is rejected to its record. -/
lemma IsBlamed.of_field {name : String} {f : FieldSpec Schema}
    {before after : List (FieldSpec Schema)} {entries : List (Value × Value)}
    (hknown : ∀ e ∈ entries, NamesField (before ++ f :: after) e.1)
    (hbefore : ∀ g ∈ before, AcceptsField entries g) (hfield : RejectsField entries path r f)
    (ih : ∀ {v : Value} {path : String}, (f.schema.load v path).outcome = .error (.rejected r) →
      IsBlamed f.schema v path r) :
    IsBlamed (.record name (before ++ f :: after)) (.map entries) path r := by
  cases hfield with
  | value given present rejected =>
    exact .of_part (.field hknown hbefore given present) (ih rejected)
  | missing given absent required eq =>
    -- there is no value to go on with, so the step to the field is the last
    subst eq
    refine ⟨_, _, .missing hknown hbefore given absent required, rfl, ?_⟩
    simp only [Step.texts, String.append_empty]

lemma map_load_eq_rejected_iff {key value : Schema} {entries : List (Value × Value)} :
    ((map key value).load (.map entries) path).outcome = .error (.rejected r) ↔
      StopsAt (AcceptsEntry key.load value.load)
        (fun _ => RejectsEntry key.load value.load path r) entries := by
  rw [load, Traced.outcome_bind_eq_error_iff,
    loadEntries_eq_rejected_iff (load_alike key) (load_alike value)]
  simp

lemma record_load_eq_rejected_iff {name : String} {fields : List (FieldSpec Schema)}
    {entries : List (Value × Value)} (hknown : ∀ e ∈ entries, NamesField fields e.1) :
    ((record name fields).load (.map entries) path).outcome = .error (.rejected r) ↔
      StopsAt (AcceptsField entries) (fun _ => RejectsField entries path r) fields := by
  rw [← loadFields_eq_rejected_iff, load, unknownKeys_eq_nil_iff.mpr hknown]
  simp [Traced.outcome_bind_eq_error_iff]

/-- A rejection by a schema without choices and models has a place to blame. -/
lemma isBlamed_of_rejected (hs : s.Direct) :
    ∀ {v : Value} {path : String}, (s.load v path).outcome = .error (.rejected r) →
      IsBlamed s v path r := by
  induction hs with
  | any => exact fun h => nomatch h
  | scalar type =>
    intro v path h
    by_cases hv : type.accepts v = true
    · rw [load, if_pos hv] at h
      cases h
    · exact .of_reject (fun path => by rw [load, if_neg hv]) h
  | null =>
    intro v path h
    by_cases hv : v = .null
    · subst hv
      cases h
    · exact .of_reject (fun path => by rw [load]; exact hv) h
  | unsupported name => exact fun h => .of_reject (fun path => rfl) h
  | literal allowed =>
    intro v path h
    by_cases hv : allowed.any (Value.same · v) = true
    · rw [load, if_pos hv] at h
      cases h
    · exact .of_rejectOther (fun path => by rw [load, if_neg hv]) h
  | enumeration e =>
    intro v path h
    cases hfind : e.find? v with
    | some m =>
      rw [load, hfind] at h
      cases h
    | none => exact .of_rejectOther (fun path => by rw [load, hfind]) h
  | collection _ ih =>
    intro v path h
    obtain ⟨hitems, -⟩ | ⟨xs, hitems, before, x, after, rfl, hbefore, hx⟩ :=
      (loadSequence_eq_rejected_iff (load_alike _)).mp h
    · exact .of_reject (fun path => by rw [load, loadSequence, hitems]) h
    · exact .of_part (.item hitems hbefore) (ih hx)
  | @tuple items _ ih =>
    intro v path h
    obtain ⟨hitems, -⟩ | ⟨xs, hitems, before, x, after, rfl, hbefore, hx⟩ :=
      (loadSequence_eq_rejected_iff (loadFirst_alike _)).mp h
    · exact .of_reject (fun path => by rw [load, loadSequence, hitems]) h
    · cases items with
      -- without a first schema every item is accepted
      | nil => cases hx
      | cons item others => exact .of_part (.tupleItem hitems hbefore) (ih item (by simp) hx)
  | map _ _ ihkey ihvalue =>
    intro v path h
    by_cases hmap : ∃ entries, v = .map entries
    · obtain ⟨entries, rfl⟩ := hmap
      obtain ⟨before, ⟨k, x⟩, after, rfl, hbefore, hentry⟩ := map_load_eq_rejected_iff.mp h
      rcases hentry with hk | ⟨w, hw, hwrite, hx⟩
      · exact .of_part (.key hbefore) (ihkey hk)
      · exact .of_part (.entry hbefore hw hwrite) (ihvalue hx)
    · exact .of_reject (map_load_of_other hmap) h
  | named _ ih =>
    intro v path h
    obtain ⟨steps, place, hsteps, hblame⟩ := ih h
    exact ⟨steps, place, .named hsteps, hblame⟩
  | noted _ ih =>
    intro v path h
    obtain ⟨steps, place, hsteps, hblame⟩ := ih h
    exact ⟨steps, place, .noted hsteps, hblame⟩
  | @record name fields _ ih =>
    intro v path h
    by_cases hmap : ∃ entries, v = .map entries
    · obtain ⟨entries, rfl⟩ := hmap
      cases hunknown : unknownKeys fields entries with
      | nil =>
        have hknown := unknownKeys_eq_nil_iff.mp hunknown
        obtain ⟨before, f, after, rfl, hbefore, hfield⟩ := (record_load_eq_rejected_iff hknown).mp h
        exact .of_field hknown hbefore hfield (ih f (by simp))
      | cons k ks => exact .of_rejectUnknown (fun path => by rw [load, hunknown]) h
    · exact .of_reject (record_load_of_other hmap) h

/-- The blame is right: a value is rejected for the place to which steps lead, at the path they
spell. -/
lemma LeadsTo.rejects {steps : List Step} {place : Place} {reason : Reason}
    (hleads : LeadsTo s v steps place) (hblame : place.IsToBlame reason) :
    ∀ path, (s.load v path).outcome =
      .error (.rejected { path := path ++ Step.texts steps, reason }) := by
  -- a part is loaded with the path of its step, and adds the others to it
  have hpath : ∀ (path : String) (step : Step) (steps : List Step),
      path ++ step.text ++ Step.texts steps = path ++ Step.texts (step :: steps) := by
    intro path step steps
    rw [Step.texts, String.append_assoc]
  induction hleads with
  | here s v =>
    intro path
    rw [Step.texts, String.append_empty]
    exact hblame path
  | named rest ih => exact ih hblame
  | noted rest ih => exact ih hblame
  | item sequence accepted rest ih =>
    intro path
    refine (loadSequence_eq_rejected_iff (load_alike _)).mpr
      (.inr ⟨_, sequence, _, _, _, rfl, accepted, ?_⟩)
    rw [← hpath]
    exact ih hblame _
  | tupleItem sequence accepted rest ih =>
    intro path
    refine (loadSequence_eq_rejected_iff (loadFirst_alike _)).mpr
      (.inr ⟨_, sequence, _, _, _, rfl, accepted, ?_⟩)
    rw [← hpath]
    exact ih hblame _
  | key accepted rest ih =>
    intro path
    refine map_load_eq_rejected_iff.mpr ⟨_, _, _, rfl, accepted, .inl ?_⟩
    rw [← hpath]
    exact ih hblame _
  | entry accepted loaded written rest ih =>
    intro path
    refine map_load_eq_rejected_iff.mpr ⟨_, _, _, rfl, accepted, .inr ⟨_, loaded, written, ?_⟩⟩
    rw [← hpath]
    exact ih hblame _
  | field known accepted given present rest ih =>
    intro path
    refine (record_load_eq_rejected_iff known).mpr
      ⟨_, _, _, rfl, accepted, .value given present ?_⟩
    rw [← hpath]
    exact ih hblame _
  | missing known accepted given absent required =>
    intro path
    cases hblame
    refine (record_load_eq_rejected_iff known).mpr
      ⟨_, _, _, rfl, accepted, .missing given absent required ?_⟩
    rw [← hpath, Step.texts, String.append_empty]

/-- A schema without choices and models rejects a value for the places that are to blame, and for no
other. -/
lemma load_eq_rejected_iff (hs : s.Direct) :
    (s.load v path).outcome = .error (.rejected r) ↔ IsBlamed s v path r := by
  refine ⟨isBlamed_of_rejected hs, ?_⟩
  rintro ⟨steps, place, hsteps, hblame, hpath⟩
  rw [hsteps.rejects hblame path, ← hpath]

end Whole

/-- Behind the path that a value is loaded with, the message of its rejection goes on with a colon,
a dot or a bracket. -/
lemma message_of_continues {p rest : String} {reason : Reason} (h : Continues rest) :
    ∃ tail, ({ path := p ++ rest, reason } : Rejection).message = p ++ tail ∧
      ∃ c ∈ [':', '.', '['], tail.toList.head? = some c := by
  refine ⟨rest ++ ": " ++ reason.text, by simp only [Rejection.message, String.append_assoc], ?_⟩
  rcases h with rfl | h | h
  · exact ⟨':', by simp⟩
  · exact ⟨'.', by simp [h]⟩
  · exact ⟨'[', by simp [h]⟩

/-- The path that a value is loaded with decides nothing but how the message of a rejection starts,
and a schema without choices and models rejects a value for the first place in it that is to blame.
-/
theorem load_blames (s : Schema) (v : Value) (p q : String) :
    Alike p q (s.load v p) (s.load v q) ∧
    (∀ r, (s.load v p).outcome = .error (.rejected r) →
      ∃ tail, r.message = p ++ tail ∧ ∃ c ∈ [':', '.', '['], tail.toList.head? = some c) ∧
    (s.Direct → ∀ r, (s.load v p).outcome = .error (.rejected r) ↔
      ∃ steps place, LeadsTo s v steps place ∧ place.IsToBlame r.reason ∧
        r.path = p ++ Step.texts steps ∧
        r.message = p ++ Step.texts steps ++ ": " ++ r.reason.text) := by
  refine ⟨load_alike s v p q, ?_, ?_⟩
  · intro r hr
    cases load_alike s v p q with
    | ok left _ => cases hr.symm.trans left
    | raised left _ => cases hr.symm.trans left
    | rejected continues left _ =>
      obtain rfl := LoadError.rejected.inj (Except.error.inj (hr.symm.trans left))
      exact message_of_continues continues
  · intro hs r
    rw [load_eq_rejected_iff hs]
    constructor
    · rintro ⟨steps, place, hsteps, hblame, hpath⟩
      exact ⟨steps, place, hsteps, hblame, hpath, by rw [Rejection.message, hpath]⟩
    · rintro ⟨steps, place, hsteps, hblame, hpath, -⟩
      exact ⟨steps, place, hsteps, hblame, hpath⟩

/-- A record with bounds by name and two more fields, the last of them required. -/
def boundsSchema : Schema :=
  .record "Bounds"
    [{ name := "title", schema := .scalar .str, default? := some (.str "") },
     { name := "bounds", schema := .map (.scalar .str) (.collection .list (.scalar .int)) },
     { name := "step", schema := .scalar .int }]

/-- A value with a text among its bounds and without its last field. -/
def boundsValue : Value :=
  .map [(.str "bounds",
    .map [(.str "low", .list [.int 1]), (.str "high", .list [.int 2, .str "x"])])]

lemma direct_bounds : boundsSchema.Direct := by
  apply Direct.record
  simp only [List.forall_mem_cons]
  exact ⟨.scalar _, .map (.scalar _) (.collection (.scalar _)), .scalar _, by simp⟩

lemma leadsTo_bounds : LeadsTo boundsSchema boundsValue
    [.field "bounds", .entry (.str "high"), .index 1] (.value (.scalar .int) (.str "x")) := by
  have hitem : LeadsTo (.collection .list (.scalar .int)) (.list [.int 2, .str "x"]) [.index 1]
      (.value (.scalar .int) (.str "x")) := by
    refine @LeadsTo.item _ _ _ _ [.int 2] [] _ _ rfl ?_ (.here _ _)
    simp only [List.forall_mem_singleton]
    exact ⟨.int 2, fun path => rfl⟩
  have hentry : LeadsTo (.map (.scalar .str) (.collection .list (.scalar .int)))
      (.map [(.str "low", .list [.int 1]), (.str "high", .list [.int 2, .str "x"])])
      [.entry (.str "high"), .index 1] (.value (.scalar .int) (.str "x")) := by
    refine @LeadsTo.entry _ _ _ _ _ [(.str "low", .list [.int 1])] [] _ _ ?_
      (fun path => rfl) rfl hitem
    simp only [List.forall_mem_singleton]
    exact ⟨⟨.str "low", fun path => rfl, rfl, rfl⟩, .list [.int 1], fun path => rfl⟩
  refine @LeadsTo.field _ _ [_] _ _ _ _ _ ?_ ?_ rfl ?_ hentry
  · simp [NamesField]
  · simp [AcceptsField, Value.get?]
  · simp [Value.get?]

theorem load_blames_bounds :
    boundsSchema.Direct ∧
      (boundsSchema.load boundsValue "$").outcome = .error (.rejected
        { path := "$.bounds.high[1]", reason := .expectedScalar "int" "str" }) ∧
      Alike "$" "config" (boundsSchema.load boundsValue "$")
        (boundsSchema.load boundsValue "config") := by
  obtain ⟨halike, -, hblames⟩ := load_blames boundsSchema boundsValue "$" "config"
  refine ⟨direct_bounds, (hblames direct_bounds _).mpr ?_, halike⟩
  exact ⟨_, _, leadsTo_bounds, fun path => rfl, by decide, by decide⟩

end EntryLint.Schema
