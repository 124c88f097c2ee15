import EntryLint.Schema.Load
import Mathlib.Tactic.Common

/-!
# Conformance

What a schema says about values, apart from how they are loaded: `Conforms s v` for a value as it is
written, `Inhabits s w` for its typed form. Neither depends on the order of the variants of a
choice. `Overlong` marks the values and schemas that no message can quote in full.

Items of sets and keys of mappings have to be hashable. `Keyable` schemas have hashable values only
(`Inhabits.hashable`), and `Supported` schemas take such schemas at these places.
-/

namespace EntryLint

/-- A value is of a scalar type. A truth value is no number, and a member of a mixed enumeration is
the text or the number that it stands for. -/
inductive HasType : ScalarType → Value → Prop
  | str (s : String) : HasType .str (.str s)
  | int (n : Int) : HasType .int (.int n)
  | float (x : Binary64) : HasType .float (.float x)
  | bool (b : Bool) : HasType .bool (.bool b)
  | mixedStr (enumeration name s : String) : HasType .str (.member enumeration name (.str s) true)
  | mixedInt (enumeration name : String) (n : Int) :
      HasType .int (.member enumeration name (.int n) true)
  | mixedFloat (enumeration name : String) (x : Binary64) :
      HasType .float (.member enumeration name (.float x) true)

/-- The values that hold no other values: those that a literal type can list. -/
def Value.isAtom : Value → Bool
  | .null | .bool _ | .int _ | .float _ | .str _ | .date _ | .moment _ | .bytes _ => true
  | .member _ _ _ _ => true
  | _ => false

/-- A container with the given items. -/
def Container.holding : Container → List Value → Value
  | .list, items => .list items
  | .tuple, items => .tuple items
  | .set, items => .set items
  | .frozenset, items => .frozenset items

/-- Whether a container holds every item once. -/
def Container.isSet : Container → Bool
  | .list | .tuple => false
  | .set | .frozenset => true

/-- An integer in the value is too long to be written. -/
def Value.Overlong (v : Value) : Prop :=
  v.isShowable = false

instance (v : Value) : Decidable v.Overlong :=
  inferInstanceAs (Decidable (_ = _))

/-- A key of a mapping names a field that can be given. -/
def NamesField (fields : List (FieldSpec Schema)) (key : Value) : Prop :=
  ∃ f ∈ fields, f.given = true ∧ Value.same key (.str f.name) = true

namespace Schema

/-- A value as it is written fits a schema. -/
inductive Conforms : Schema → Value → Prop
  | any (v : Value) : Conforms .any v
  | scalar {type : ScalarType} {v : Value} (h : HasType type v) : Conforms (.scalar type) v
  | null : Conforms .null .null
  | literal {allowed : List Value} {a v : Value} (mem : a ∈ allowed)
      (same : Value.same a v = true) : Conforms (.literal allowed) v
  | member {e : Enumeration} {entry : String × Value} (mem : entry ∈ e.canonical) (value : Value)
      (mixed : Bool) : Conforms (.enumeration e) (.member e.name entry.1 value mixed)
  | memberValue {e : Enumeration} {entry : String × Value} {v : Value} (mem : entry ∈ e.canonical)
      (same : Value.same entry.2 v = true) : Conforms (.enumeration e) v
  | collection {container : Container} {item : Schema} {v : Value} {items : List Value}
      (sequence : v = .list items ∨ v = .tuple items) (each : ∀ x ∈ items, Conforms item x) :
      Conforms (.collection container item) v
  | map {key value : Schema} {entries : List (Value × Value)}
      (keys : ∀ e ∈ entries, Conforms key e.1) (values : ∀ e ∈ entries, Conforms value e.2) :
      Conforms (.map key value) (.map entries)
  | union {variants : List Schema} {s : Schema} {v : Value} (mem : s ∈ variants)
      (h : Conforms s v) : Conforms (.union variants) v
  | named {name : String} {base : Schema} {v : Value} (h : Conforms base v) :
      Conforms (.named name base) v
  | noted {base : Schema} {v : Value} (h : Conforms base v) : Conforms (.noted base) v
  | record {name : String} {fields : List (FieldSpec Schema)} {entries : List (Value × Value)}
      (known : ∀ e ∈ entries, NamesField fields e.1)
      (present : ∀ f ∈ fields, f.given = true →
        ∀ v, Value.get? entries (.str f.name) = some v → Conforms f.schema v)
      (absent : ∀ f ∈ fields, f.given = true → Value.get? entries (.str f.name) = none →
        f.default?.isSome = true) :
      Conforms (.record name fields) (.map entries)

mutual

/-- A typed value is of a schema. -/
inductive Inhabits : Schema → Value → Prop
  | any (w : Value) : Inhabits .any w
  | scalar {type : ScalarType} {w : Value} (h : HasType type w) : Inhabits (.scalar type) w
  | null : Inhabits .null .null
  | literal {allowed : List Value} {a w : Value} (mem : a ∈ allowed)
      (same : Value.same a w = true) : Inhabits (.literal allowed) w
  | member {e : Enumeration} {entry : String × Value} (mem : entry ∈ e.canonical) :
      Inhabits (.enumeration e) (e.memberOf entry)
  | collection {container : Container} {item : Schema} {items : List Value}
      (each : ∀ x ∈ items, Inhabits item x)
      (once : container.isSet = true → items.Pairwise fun a b => Value.same a b = false) :
      Inhabits (.collection container item) (container.holding items)
  | map {key value : Schema} {entries : List (Value × Value)}
      (keys : ∀ e ∈ entries, Inhabits key e.1) (values : ∀ e ∈ entries, Inhabits value e.2) :
      Inhabits (.map key value) (.map entries)
  | union {variants : List Schema} {s : Schema} {w : Value} (mem : s ∈ variants)
      (h : Inhabits s w) : Inhabits (.union variants) w
  | named {name : String} {base : Schema} {w : Value} (h : Inhabits base w) :
      Inhabits (.named name base) w
  | noted {base : Schema} {w : Value} (h : Inhabits base w) : Inhabits (.noted base) w
  | record {name : String} {fields : List (FieldSpec Schema)} {values : List (String × Value)}
      (h : InhabitsFields fields values) : Inhabits (.record name fields) (.record name values)

/-- Fields have values in the order of their declaration: a typed one or the default. Only a field
that is never given can be without. -/
inductive InhabitsFields : List (FieldSpec Schema) → List (String × Value) → Prop
  | nil : InhabitsFields [] []
  | typed {f : FieldSpec Schema} {fields : List (FieldSpec Schema)} {w : Value}
      {values : List (String × Value)} (h : Inhabits f.schema w)
      (rest : InhabitsFields fields values) :
      InhabitsFields (f :: fields) ((f.name, w) :: values)
  | default {f : FieldSpec Schema} {fields : List (FieldSpec Schema)} {w : Value}
      {values : List (String × Value)} (h : f.default? = some w)
      (rest : InhabitsFields fields values) :
      InhabitsFields (f :: fields) ((f.name, w) :: values)
  | unset {f : FieldSpec Schema} {fields : List (FieldSpec Schema)}
      {values : List (String × Value)} (h : f.given = false) (none : f.default? = none)
      (rest : InhabitsFields fields values) : InhabitsFields (f :: fields) values

end

/-- A rejection by the schema quotes a value with an integer that is too long to be written. -/
inductive Overlong : Schema → Prop
  | literal {allowed : List Value} (h : Value.areShowable allowed = false) :
      Overlong (.literal allowed)
  | enumeration {e : Enumeration} (h : Value.areShowable (e.canonical.map Prod.snd) = false) :
      Overlong (.enumeration e)
  | collection {container : Container} {item : Schema} (h : Overlong item) :
      Overlong (.collection container item)
  | mapKey {key value : Schema} (h : Overlong key) : Overlong (.map key value)
  | mapValue {key value : Schema} (h : Overlong value) : Overlong (.map key value)
  | union {variants : List Schema} {s : Schema} (mem : s ∈ variants) (h : Overlong s) :
      Overlong (.union variants)
  | named {name : String} {base : Schema} (h : Overlong base) : Overlong (.named name base)
  | noted {base : Schema} (h : Overlong base) : Overlong (.noted base)
  | record {name : String} {fields : List (FieldSpec Schema)} {f : FieldSpec Schema}
      (mem : f ∈ fields) (h : Overlong f.schema) : Overlong (.record name fields)

/-- Schemas whose values can be keys: scalars, literals, enumerations and choices of these. -/
inductive Keyable : Schema → Prop
  | scalar (type : ScalarType) : Keyable (.scalar type)
  | null : Keyable .null
  | literal {allowed : List Value} (atoms : ∀ a ∈ allowed, a.isAtom = true) :
      Keyable (.literal allowed)
  | enumeration (e : Enumeration) : Keyable (.enumeration e)
  | union {variants : List Schema} (each : ∀ s ∈ variants, Keyable s) : Keyable (.union variants)
  | named {name : String} {base : Schema} (h : Keyable base) : Keyable (.named name base)
  | noted {base : Schema} (h : Keyable base) : Keyable (.noted base)

/-- Schemas without tuples of fixed length and models, and with keys where keys are needed. -/
inductive Supported : Schema → Prop
  | any : Supported .any
  | scalar (type : ScalarType) : Supported (.scalar type)
  | null : Supported .null
  | literal (allowed : List Value) : Supported (.literal allowed)
  | enumeration (e : Enumeration) : Supported (.enumeration e)
  | collection {container : Container} {item : Schema} (h : Supported item)
      (keys : container.isSet = true → Keyable item) : Supported (.collection container item)
  | map {key value : Schema} (hkey : Supported key) (keys : Keyable key)
      (hvalue : Supported value) : Supported (.map key value)
  | union {variants : List Schema} (each : ∀ s ∈ variants, Supported s) :
      Supported (.union variants)
  | named {name : String} {base : Schema} (h : Supported base) : Supported (.named name base)
  | noted {base : Schema} (h : Supported base) : Supported (.noted base)
  | record {name : String} {fields : List (FieldSpec Schema)}
      (each : ∀ f ∈ fields, Supported f.schema) : Supported (.record name fields)

end Schema

/-! ## Hashable values -/

lemma HasType.hashable {type : ScalarType} {w : Value} (h : HasType type w) :
    w.unhashable? = none := by
  cases h with
  | _ => rfl

namespace Value

@[simp]
lemma same_str (s t : String) : Value.same (.str s) (.str t) = decide (s = t) := by
  simp [Value.same, sameLeaf, bare]

lemma isAtom_bare (v : Value) : v.bare.isAtom = v.isAtom := by
  unfold bare
  split
  all_goals rfl

lemma isAtom_of_sameLeaf {a v : Value} (h : sameLeaf a v = true) : v.isAtom = true := by
  rw [← isAtom_bare]
  unfold sameLeaf at h
  split at h
  case h_16 => cases h
  all_goals
    rename_i hv
    rw [hv]
    rfl

/-- What is equal to a value that holds no others holds no others. -/
lemma isAtom_of_same {a v : Value} (ha : a.isAtom = true) (h : Value.same a v = true) :
    v.isAtom = true := by
  have hleaf : Value.same a v = sameLeaf a v := by
    cases a with
    | list _ | tuple _ | set _ | frozenset _ | map _ | record _ _ | model _ _ => cases ha
    | _ => simp only [Value.same]
  rw [hleaf] at h
  exact isAtom_of_sameLeaf h

lemma hashable_of_isAtom {v : Value} (h : v.isAtom = true) : v.unhashable? = none := by
  cases v with
  | list _ | tuple _ | set _ | frozenset _ | map _ | record _ _ | model _ _ => cases h
  | _ => rfl

lemma unhashableItem?_eq_none_iff {items : List Value} :
    unhashableItem? items = none ↔ ∀ x ∈ items, x.unhashable? = none := by
  induction items with
  | nil => simp [unhashableItem?]
  | cons x items ih => rw [unhashableItem?, Option.or_eq_none_iff, ih, List.forall_mem_cons]

lemma hashable_tuple_iff {items : List Value} :
    (Value.tuple items).unhashable? = none ↔ ∀ x ∈ items, x.unhashable? = none := by
  rw [unhashable?, unhashableItem?_eq_none_iff]

/-! ## Values with long integers -/

lemma areShowable_iff {items : List Value} :
    areShowable items = true ↔ ∀ x ∈ items, x.isShowable = true := by
  induction items with
  | nil => simp [areShowable]
  | cons x items ih => rw [areShowable, Bool.and_eq_true, ih, List.forall_mem_cons]

lemma entriesShowable_iff {entries : List (Value × Value)} :
    entriesShowable entries = true ↔ ∀ e ∈ entries, e.1.isShowable = true ∧
      e.2.isShowable = true := by
  induction entries with
  | nil => simp [entriesShowable]
  | cons e entries ih =>
    rw [entriesShowable, Bool.and_eq_true, Bool.and_eq_true, ih, List.forall_mem_cons]

lemma overlong_of_mem {v : Value} {items : List Value} (hv : v = .list items ∨ v = .tuple items)
    {x : Value} (hx : x ∈ items) (h : x.Overlong) : v.Overlong := by
  have hitems : areShowable items = false := by
    rw [← Bool.not_eq_true, areShowable_iff]
    exact fun hall => Bool.false_ne_true (h.symm.trans (hall x hx))
  rcases hv with rfl | rfl
  · rwa [Overlong, isShowable]
  · rwa [Overlong, isShowable]

lemma overlong_map_of_mem {entries : List (Value × Value)} {e : Value × Value} (he : e ∈ entries)
    (h : e.1.Overlong ∨ e.2.Overlong) : (Value.map entries).Overlong := by
  rw [Overlong, isShowable, ← Bool.not_eq_true, entriesShowable_iff]
  intro hall
  rcases h with h | h
  · exact Bool.false_ne_true (h.symm.trans (hall e he).1)
  · exact Bool.false_ne_true (h.symm.trans (hall e he).2)

/-- A key without a text has a long integer in it. -/
lemma overlong_of_not_isWritable {v : Value} (h : v.isWritable = false) : v.Overlong := by
  cases v with
  | member _ _ _ _ => cases h
  | _ => exact h

end Value

lemma Schema.Inhabits.hashable {s : Schema} {w : Value} (hs : s.Keyable) (h : s.Inhabits w) :
    w.unhashable? = none := by
  induction hs with
  | scalar type =>
    cases h with
    | scalar htype => exact htype.hashable
  | null =>
    cases h
    rfl
  | literal atoms =>
    cases h with
    | literal mem same => exact Value.hashable_of_isAtom (Value.isAtom_of_same (atoms _ mem) same)
  | enumeration e =>
    cases h
    rfl
  | union each ih =>
    cases h with
    | union mem hw => exact ih _ mem hw
  | named _ ih =>
    cases h with
    | named hw => exact ih hw
  | noted _ ih =>
    cases h with
    | noted hw => exact ih hw

end EntryLint
