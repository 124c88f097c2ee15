import EntryLint.Proofs.Config.File
import EntryLint.Proofs.Schema.Kept
import EntryLint.Proofs.Schema.Places
import Mathlib.Data.List.Forall2

/-!
# Reading configuration files

What a configuration file says, apart from how it is read: `Describes entries cf` relates a mapping
to the file that it writes down, key by key. A value is read exactly when it is such a mapping, and
to the file that it describes; the message for another value names its place below `$`
(`parse_iff_describes`). There is no message if it would quote an integer that is too long to be
written (`parse_overlong`).
-/

namespace EntryLint

namespace ConfigFile

/-! ## Written forms -/

/-- A list or tuple of texts. -/
def WritesTexts (v : Value) (xs : List String) : Prop :=
  ∃ items, (v = .list items ∨ v = .tuple items) ∧
    List.Forall₂ (fun x s => Value.text? x = some s) items xs

/-- Nothing, a text or some texts. -/
inductive WritesPresets : Value → PresetChoice → Prop
  | unspecified : WritesPresets .null .unspecified
  | one {v : Value} {name : String} (h : v.text? = some name) : WritesPresets v (.one name)
  | many {v : Value} {names : List String} (h : WritesTexts v names) : WritesPresets v (.many names)

/-- Nothing or some texts. -/
inductive WritesSearched : Value → Option (List String) → Prop
  | none : WritesSearched .null none
  | some {v : Value} {xs : List String} (h : WritesTexts v xs) : WritesSearched v (some xs)

/-- A rule and the word for one of the three severities. -/
def WritesRule (e : Value × Value) (rule : String × Severity) : Prop :=
  e.1.text? = some rule.1 ∧ e.2.text? = some rule.2.name ∧ rule.2.IsKnown

/-- A mapping from rules to severities, in the same order. -/
def WritesRules (v : Value) (rules : NameMap Severity) : Prop :=
  ∃ entries, v = .map entries ∧ List.Forall₂ WritesRule entries rules

/-- What a mapping has under a key is a written form of `a`, or it has nothing there and `a` is the
default. -/
def Gives {α : Type} (entries : List (Value × Value)) (key : String) (writes : Value → α → Prop)
    (default a : α) : Prop :=
  match Value.get? entries (.str key) with
  | some v => writes v a
  | none => a = default

/-- The keys of a configuration file. -/
def keys : List String :=
  ["extends", "top_level_alias", "extensions", "lint_extensions", "exclude", "gitignore", "rules"]

/-- A mapping writes down a configuration file: it has no other keys, and every field is what stands
under its key, or the default. -/
structure Describes (entries : List (Value × Value)) (cf : ConfigFile) : Prop where
  known : ∀ e ∈ entries, ∃ key ∈ keys, e.1.text? = some key
  presets : Gives entries "extends" WritesPresets .unspecified cf.presets
  rootAlias : Gives entries "top_level_alias" (fun v s => v.text? = some s) "@" cf.rootAlias
  extensions : Gives entries "extensions" WritesTexts [".ts", ".tsx", ".js", ".jsx"] cf.extensions
  lintExtensions : Gives entries "lint_extensions" WritesSearched none cf.lintExtensions
  exclude : Gives entries "exclude" WritesTexts [] cf.exclude
  gitignore : Gives entries "gitignore" (fun v b => v = .bool b) true cf.gitignore
  rules : Gives entries "rules" WritesRules [] cf.rules

end ConfigFile

section Lists

variable {α β : Type} {R : α → β → Prop} {xs : List α} {ys : List β}

lemma exists_forall₂_iff : (∃ ys, List.Forall₂ R xs ys) ↔ ∀ x ∈ xs, ∃ y, R x y := by
  induction xs with
  | nil => exact ⟨fun _ => nofun, fun _ => ⟨[], .nil⟩⟩
  | cons x xs ih =>
    rw [List.forall_mem_cons, ← ih]
    constructor
    · rintro ⟨_, hcons⟩
      cases hcons with
      | cons hx hxs => exact ⟨⟨_, hx⟩, _, hxs⟩
    · rintro ⟨⟨y, hy⟩, ys, hys⟩
      exact ⟨y :: ys, .cons hy hys⟩

/-- A function that gives what is related gives related lists. -/
lemma filterMap_of_forall₂ {f : α → Option β} (hf : ∀ x y, R x y → f x = some y)
    (h : List.Forall₂ R xs ys) : xs.filterMap f = ys := by
  induction h with
  | nil => rfl
  | cons hx _ ih => rw [List.filterMap_cons_some (hf _ _ hx), ih]

end Lists

namespace ConfigFile

open Schema

variable {α : Type} {v : Value}

/-! ## Fields -/

/-- A schema accepts just the written forms of some things, and what is read from a typed value is
what was written. -/
def Reads (s : Schema) (writes : Value → α → Prop) (read : Value → α) : Prop :=
  ∀ v path, v.WellKeyed →
    (s.load v path).Decides (∃ a, writes v a) v.Overlong fun w => writes v (read w)

/-- A text is written as it is, or as a mixed member. -/
lemma eq_of_text {s : String} (h : v.text? = some s) :
    v = .str s ∨ ∃ enumeration name, v = .member enumeration name (.str s) true := by
  unfold Value.text? at h
  split at h
  · rename_i hbare
    obtain rfl := Option.some_inj.mp h
    unfold Value.bare at hbare
    split at hbare
    · exact .inr ⟨_, _, by rw [Value.str.inj hbare]⟩
    · cases hbare
    · cases hbare
    · exact .inl hbare
  · cases h

lemma writesTexts_iff {items : List Value} (h : items? v = some items) {xs : List String} :
    WritesTexts v xs ↔ List.Forall₂ (fun x s => Value.text? x = some s) items xs := by
  constructor
  · rintro ⟨items', hsequence, hitems⟩
    rw [items?_eq_some_iff.mpr hsequence] at h
    rwa [← Option.some_inj.mp h]
  · exact fun hitems => ⟨items, items?_eq_some_iff.mp h, hitems⟩

lemma WritesTexts.filterMap {items : List Value} {xs : List String} (h : items? v = some items)
    (hxs : WritesTexts v xs) : items.filterMap Value.text? = xs :=
  filterMap_of_forall₂ (fun _ _ => id) ((writesTexts_iff h).mp hxs)

/-- The items of a list or tuple of texts are kept, in a list. -/
lemma texts_load_decides {l : Prop} (v : Value) (path : String) :
    (texts.load v path).Decides (∃ xs, WritesTexts v xs) l
      fun w => ∃ items, w = .list items ∧ WritesTexts v (textsOf w) := by
  rw [texts, load, loadSequence]
  cases hitems : items? v with
  | none =>
    refine .rejected ?_ rfl
    rintro ⟨xs, items, hsequence, -⟩
    rw [items?_eq_some_iff.mpr hsequence] at hitems
    cases hitems
  | some items =>
    have haccepts : (∀ x ∈ items, ∃ s, Value.text? x = some s) ↔ ∃ xs, WritesTexts v xs := by
      simp only [writesTexts_iff hitems]
      exact exists_forall₂_iff.symm
    apply Attempt.Decides.congr _ haccepts
    -- loading keeps each item, so the texts are read off the items as they were given
    apply (loadItems_keeps (fun x _ => str_load_decides x) path 0).strengthen.bind_ok
    rintro made ⟨rfl, htexts⟩
    obtain ⟨xs, hxs⟩ := haccepts.mp htexts
    refine ⟨.list made, rfl, made, rfl, ?_⟩
    rwa [textsOf, hxs.filterMap hitems]

lemma reads_texts : Reads texts WritesTexts textsOf := by
  intro v path _
  apply (texts_load_decides v path).imp
  rintro w ⟨items, -, hw⟩
  exact hw

lemma reads_text : Reads (.scalar .str) (fun v s => v.text? = some s) fun w => w.text?.getD "" := by
  intro v path _
  apply (str_load_decides v path).strengthen.imp
  rintro w ⟨rfl, s, hs⟩
  show w.text? = some (w.text?.getD "")
  rw [hs]
  rfl

/-- The flag of a value that fits the schema. -/
def flagOf : Value → Bool
  | .bool b => b
  | _ => true

lemma reads_flag : Reads (.scalar .bool) (fun v b => v = .bool b) flagOf := by
  intro v path _
  apply (bool_load_decides v path).strengthen.imp
  rintro w ⟨rfl, b, rfl⟩
  rfl

lemma reads_presets : Reads (.union [.scalar .str, texts, .null]) WritesPresets presetsOf := by
  intro v path _
  rw [load]
  -- the variants are the three written forms
  have htext : ((Schema.scalar .str).load v path).Decides (∃ s, v.text? = some s) v.Overlong
      fun w => WritesPresets v (presetsOf w) := by
    apply (str_load_decides v path).strengthen.imp
    rintro w ⟨rfl, s, hs⟩
    have hone : presetsOf w = .one s := by
      rcases eq_of_text hs with rfl | ⟨enumeration, name, rfl⟩
      · rfl
      · rfl
    rw [hone]
    exact .one hs
  have htexts : (texts.load v path).Decides (∃ xs, WritesTexts v xs) v.Overlong
      fun w => WritesPresets v (presetsOf w) := by
    apply (texts_load_decides v path).imp
    rintro _ ⟨items, rfl, hxs⟩
    exact .many hxs
  have hnull : (Schema.null.load v path).Decides (v = .null) v.Overlong
      fun w => WritesPresets v (presetsOf w) := by
    apply (null_load_decides v path).strengthen.imp
    rintro w ⟨rfl, rfl⟩
    exact .unspecified
  apply Attempt.Decides.congr (loadVariants_cons_decides htext
    (loadVariants_cons_decides htexts (loadVariants_cons_decides hnull loadVariants_nil_decides))
    [])
  constructor
  · rintro (⟨s, hs⟩ | ⟨xs, hxs⟩ | rfl | hfalse)
    · exact ⟨_, .one hs⟩
    · exact ⟨_, .many hxs⟩
    · exact ⟨_, .unspecified⟩
    · exact hfalse.elim
  · rintro ⟨a, ha⟩
    cases ha with
    | unspecified => exact .inr (.inr (.inl rfl))
    | one h => exact .inl ⟨_, h⟩
    | many h => exact .inr (.inl ⟨_, h⟩)

/-- The extensions to search of a value that fits the schema. -/
def searchedOf : Value → Option (List String)
  | .null => none
  | w => some (textsOf w)

lemma reads_searched : Reads (.union [texts, .null]) WritesSearched searchedOf := by
  intro v path _
  rw [load]
  have htexts : (texts.load v path).Decides (∃ xs, WritesTexts v xs) v.Overlong
      fun w => WritesSearched v (searchedOf w) := by
    apply (texts_load_decides v path).imp
    rintro _ ⟨items, rfl, hxs⟩
    exact .some hxs
  have hnull : (Schema.null.load v path).Decides (v = .null) v.Overlong
      fun w => WritesSearched v (searchedOf w) := by
    apply (null_load_decides v path).strengthen.imp
    rintro w ⟨rfl, rfl⟩
    exact .none
  apply Attempt.Decides.congr (loadVariants_cons_decides htexts
    (loadVariants_cons_decides hnull loadVariants_nil_decides) [])
  constructor
  · rintro (⟨xs, hxs⟩ | rfl | hfalse)
    · exact ⟨_, .some hxs⟩
    · exact ⟨_, .none⟩
    · exact hfalse.elim
  · rintro ⟨a, ha⟩
    cases ha with
    | none => exact .inr (.inl rfl)
    | some h => exact .inl ⟨_, h⟩

lemma severity_load_decides (v : Value) (path : String) :
    (severity.load v path).Decides (∃ s : Severity, v.text? = some s.name ∧ s.IsKnown) v.Overlong
      (· = v) := by
  have hany : ([.str "error", .str "warn", .str "off"].any (Value.same · v)) = true ↔
      ∃ s : Severity, v.text? = some s.name ∧ s.IsKnown := by
    simp only [List.any_cons, List.any_nil, Value.same_str_eq, Bool.or_eq_true, decide_eq_true_eq,
      Bool.false_eq_true, or_false]
    constructor
    · rintro (h | h | h)
      · exact ⟨.error, h, .inl rfl⟩
      · exact ⟨.warn, h, .inr (.inl rfl)⟩
      · exact ⟨.off, h, .inr (.inr rfl)⟩
    · rintro ⟨s, h, rfl | rfl | rfl⟩
      · exact .inl h
      · exact .inr (.inl h)
      · exact .inr (.inr h)
  rw [severity_eq, load]
  split
  · rename_i h
    exact .accepted (hany.mp h) rfl rfl
  · rename_i h
    -- the three words can be quoted
    have hwords : ¬ Value.areShowable [.str "error", .str "warn", .str "off"] = false := by decide
    exact (Attempt.rejectOther_decides (mt hany.mpr h) path _ v).mono fun hl =>
      hl.resolve_right hwords

lemma exists_writesRule_iff {e : Value × Value} :
    (∃ rule, WritesRule e rule) ↔
      (∃ s, e.1.text? = some s) ∧ ∃ s : Severity, e.2.text? = some s.name ∧ s.IsKnown := by
  constructor
  · rintro ⟨rule, hname, hlevel⟩
    exact ⟨⟨_, hname⟩, _, hlevel⟩
  · rintro ⟨⟨name, hname⟩, level, hlevel⟩
    exact ⟨(name, level), hname, hlevel⟩

lemma ofName_name {s : Severity} (h : s.IsKnown) : Severity.ofName s.name = s := by
  rcases h with rfl | rfl | rfl
  · rfl
  · rfl
  · rfl

lemma rulesOf_of_writesRules {rules : NameMap Severity} (h : WritesRules v rules) :
    rulesOf v = rules := by
  obtain ⟨entries, rfl, hentries⟩ := h
  apply filterMap_of_forall₂ _ hentries
  rintro ⟨k, level⟩ rule ⟨hname, hlevel, hknown⟩
  simp only at hname hlevel
  simp only [hname, hlevel, ofName_name hknown]

lemma reads_rules : Reads (.map (.scalar .str) severity) WritesRules rulesOf := by
  intro v path hkeys
  by_cases hmap : ∃ entries, v = .map entries
  · obtain ⟨entries, rfl⟩ := hmap
    obtain ⟨hashable, distinct, -⟩ := hkeys.of_map
    rw [load]
    have haccepts : (∀ e ∈ entries, (∃ s, e.1.text? = some s) ∧
          ∃ s : Severity, e.2.text? = some s.name ∧ s.IsKnown) ↔
        ∃ rules, WritesRules (.map entries) rules := by
      simp only [← exists_writesRule_iff, ← exists_forall₂_iff]
      constructor
      · rintro ⟨rules, hrules⟩
        exact ⟨rules, entries, rfl, hrules⟩
      · rintro ⟨rules, entries', heq, hrules⟩
        obtain rfl := Value.map.inj heq
        exact ⟨rules, hrules⟩
    apply Attempt.Decides.congr _ haccepts
    have hwritten : ∀ e ∈ entries, e.1.isWritable = false → (Value.map entries).Overlong :=
      fun e he hlong => Value.overlong_map_of_mem he (.inl (Value.overlong_of_not_isWritable hlong))
    have hload := @loadEntries_keeps (scalar .str).load severity.load
      (fun v => ∃ s : Severity, v.text? = some s.name ∧ s.IsKnown) (fun k => ∃ s, k.text? = some s)
      (Value.map entries).Overlong entries (fun e _ => str_load_decides e.1) hwritten hashable
      (fun e he path => (severity_load_decides e.2 path).mono fun hlong =>
        Value.overlong_map_of_mem he (.inr hlong)) path [] distinct
    apply hload.strengthen.bind_ok
    rintro made ⟨rfl, heach⟩
    obtain ⟨rules, hrules⟩ := haccepts.mp heach
    refine ⟨_, rfl, ?_⟩
    show WritesRules _ (rulesOf (.map made))
    rwa [rulesOf_of_writesRules hrules]
  · rw [map_load_of_other hmap]
    refine .rejected ?_ rfl
    rintro ⟨rules, entries, rfl, -⟩
    exact hmap ⟨entries, rfl⟩

/-! ## Files -/

variable {entries : List (Value × Value)}

/-- A field of the schema is what a mapping gives under its name. -/
lemma loadField_decides_gives {s : Schema} {writes : Value → α → Prop} {read : Value → α}
    (h : Reads s writes read) (hvalues : ∀ e ∈ entries, e.2.WellKeyed) (name : String)
    (default : Value) (path : String) :
    (loadField s.load name (some default) true entries path).Decides
      (∃ a, Gives entries name writes (read default) a) (Value.map entries).Overlong
      fun w? => ∃ w, w? = some w ∧ Gives entries name writes (read default) (read w) := by
  unfold loadField Gives
  simp only [if_true]
  cases hget : Value.get? entries (.str name) with
  | none => exact .accepted ⟨_, rfl⟩ rfl ⟨default, rfl, rfl⟩
  | some v =>
    have hv : v.WellKeyed := by
      obtain ⟨e, hfind, rfl⟩ := Option.map_eq_some_iff.mp hget
      exact hvalues e (List.mem_of_find?_eq_some hfind)
    apply ((h v _ hv).mono (overlong_of_get? hget)).bind_ok
    exact fun w hw => ⟨some w, rfl, w, rfl, hw⟩

lemma loadFields_decides_describes (hvalues : ∀ e ∈ entries, e.2.WellKeyed)
    (hknown : ∀ e ∈ entries, ∃ key ∈ keys, e.1.text? = some key) (path : String) :
    (loadFields fields entries path).Decides (∃ cf, Describes entries cf)
    (Value.map entries).Overlong
      fun values => Describes entries (ofFields values) := by
  -- one field after the other, in the order of the schema
  have hload := loadFields_cons_decides (f := fields[0])
    (loadField_decides_gives reads_presets hvalues "extends" .null path)
    (loadFields_cons_decides (f := fields[1])
      (loadField_decides_gives reads_text hvalues "top_level_alias" (.str "@") path)
      (loadFields_cons_decides (f := fields[2])
        (loadField_decides_gives reads_texts hvalues "extensions" _ path)
        (loadFields_cons_decides (f := fields[3])
          (loadField_decides_gives reads_searched hvalues "lint_extensions" .null path)
          (loadFields_cons_decides (f := fields[4])
            (loadField_decides_gives reads_texts hvalues "exclude" _ path)
            (loadFields_cons_decides (f := fields[5])
              (loadField_decides_gives reads_flag hvalues "gitignore" _ path)
              (loadFields_cons_decides (f := fields[6])
                (loadField_decides_gives reads_rules hvalues "rules" _ path)
                (loadFields_nil_decides entries path)))))))
  refine (hload.congr ?_).imp ?_
  · constructor
    · rintro ⟨⟨a, ha⟩, ⟨b, hb⟩, ⟨c, hc⟩, ⟨d, hd⟩, ⟨e, he⟩, ⟨f, hf⟩, ⟨g, hg⟩, -⟩
      exact ⟨⟨a, b, c, d, e, f, g⟩, hknown, ha, hb, hc, hd, he, hf, hg⟩
    · rintro ⟨cf, h⟩
      exact ⟨⟨_, h.presets⟩, ⟨_, h.rootAlias⟩, ⟨_, h.extensions⟩, ⟨_, h.lintExtensions⟩,
        ⟨_, h.exclude⟩, ⟨_, h.gitignore⟩, ⟨_, h.rules⟩, trivial⟩
  · rintro _ ⟨a, _, rfl, ha, b, _, rfl, hb, c, _, rfl, hc, d, _, rfl, hd, e, _, rfl, he, f, _, rfl,
      hf,
      g, _, rfl, hg, rfl⟩
    exact ⟨hknown, ha, hb, hc, hd, he, hf, hg⟩

lemma namesField_iff {k : Value} : NamesField fields k ↔ ∃ key ∈ keys, k.text? = some key := by
  simp only [NamesField, Value.same_str_right, decide_eq_true_eq]
  constructor
  · rintro ⟨f, hf, -, hk⟩
    exact ⟨f.name, List.mem_map_of_mem hf, hk⟩
  · rintro ⟨key, hkey, hk⟩
    have hgiven : ∀ f ∈ fields, f.given = true := by simp [fields]
    obtain ⟨f, hf, rfl⟩ := List.mem_map.mp (show key ∈ fields.map (·.name) from hkey)
    exact ⟨f, hf, hgiven f hf, hk⟩

lemma schema_load_decides {raw : Value} (h : raw.WellKeyed) (path : String) :
    (schema.load raw path).Decides (∃ cf entries, raw = .map entries ∧ Describes entries cf)
      raw.Overlong fun w => ∃ entries, raw = .map entries ∧ Describes entries (ofRecord w) := by
  rw [schema_eq]
  by_cases hmap : ∃ entries, raw = .map entries
  · obtain ⟨entries, rfl⟩ := hmap
    obtain ⟨-, -, hvalues⟩ := h.of_map
    have hexists : (∃ cf, Describes entries cf) ↔
        ∃ cf entries', Value.map entries = .map entries' ∧ Describes entries' cf := by simp
    rw [load]
    apply Attempt.Decides.congr _ hexists
    -- an unknown key is refused before any field is looked at
    cases hunknown : unknownKeys fields entries with
    | cons k ks =>
      have hnot : ¬ ∃ cf, Describes entries cf := by
        rintro ⟨cf, hcf⟩
        have hnone := unknownKeys_eq_nil_iff.mpr fun e he => namesField_iff.mpr (hcf.known e he)
        rw [hunknown] at hnone
        cases hnone
      have hreject : (rejectUnknown path (unknownKeys fields entries)).Decides
          (∃ cf, Describes entries cf) (Value.map entries).Overlong fun w =>
            ∃ entries', Value.map entries = .map entries' ∧ Describes entries' (ofRecord w) :=
        rejectUnknown_decides hnot path
      rwa [hunknown] at hreject
    | nil =>
      have hknown : ∀ e ∈ entries, ∃ key ∈ keys, e.1.text? = some key :=
        fun e he => namesField_iff.mp (unknownKeys_eq_nil_iff.mp hunknown e he)
      apply (loadFields_decides_describes hvalues hknown path).bind_ok
      exact fun values hcf => ⟨.record "ConfigFile" values, rfl, entries, rfl, hcf⟩
  · rw [record_load_of_other hmap]
    refine .rejected ?_ rfl
    rintro ⟨cf, entries, rfl, -⟩
    exact hmap ⟨entries, rfl⟩

/-! ## No long integers -/

lemma isShowable_of_text {s : String} (h : v.text? = some s) : v.isShowable = true := by
  rcases eq_of_text h with rfl | ⟨enumeration, name, rfl⟩
  · rfl
  · rfl

lemma WritesTexts.isShowable {xs : List String} (h : WritesTexts v xs) : v.isShowable = true := by
  obtain ⟨items, hv, hitems⟩ := h
  have hall : Value.areShowable items = true := by
    rw [Value.areShowable_iff]
    intro x hx
    obtain ⟨s, hs⟩ := exists_forall₂_iff.mp ⟨xs, hitems⟩ x hx
    exact isShowable_of_text hs
  rcases hv with rfl | rfl
  · rwa [Value.isShowable]
  · rwa [Value.isShowable]

lemma WritesPresets.isShowable {a : PresetChoice} (h : WritesPresets v a) :
    v.isShowable = true := by
  cases h with
  | unspecified => rfl
  | one h => exact isShowable_of_text h
  | many h => exact h.isShowable

lemma WritesSearched.isShowable {a : Option (List String)} (h : WritesSearched v a) :
    v.isShowable = true := by
  cases h with
  | none => rfl
  | some h => exact h.isShowable

lemma WritesRules.isShowable {rules : NameMap Severity} (h : WritesRules v rules) :
    v.isShowable = true := by
  obtain ⟨entries, rfl, hentries⟩ := h
  rw [Value.isShowable, Value.entriesShowable_iff]
  intro e he
  obtain ⟨rule, hname, hlevel, -⟩ := exists_forall₂_iff.mp ⟨rules, hentries⟩ e he
  exact ⟨isShowable_of_text hname, isShowable_of_text hlevel⟩

lemma Gives.of_get? {key : String} {writes : Value → α → Prop} {default a : α}
    (h : Gives entries key writes default a) (hget : Value.get? entries (.str key) = some v) :
    writes v a := by
  rwa [Gives, hget] at h

/-- Equal texts are equal values. -/
lemma same_of_text {a b : Value} {s : String} (ha : a.text? = some s) (hb : b.text? = some s) :
    Value.same a b = true := by
  rcases eq_of_text ha with rfl | ⟨enumeration, name, rfl⟩
  · rw [Value.same_str_eq, hb, decide_eq_true rfl]
  · rcases eq_of_text hb with rfl | ⟨enumeration', name', rfl⟩
    · rw [Value.same_str_right, ha, decide_eq_true rfl]
    · simp [Value.same, Value.sameLeaf, Value.bare]

/-- Of different keys, one that is a text is found by that text. -/
lemma get?_of_mem {e : Value × Value} {key : String}
    (hdistinct : (entries.map Prod.fst).Pairwise fun a b => Value.same a b = false)
    (he : e ∈ entries) (htext : e.1.text? = some key) :
    Value.get? entries (.str key) = some e.2 := by
  induction entries with
  | nil => cases he
  | cons first entries ih =>
    rw [List.map_cons, List.pairwise_cons] at hdistinct
    rcases List.mem_cons.mp he with rfl | hrest
    · rw [Value.get?, List.find?_cons_of_pos]
      · rfl
      · show Value.same e.1 (.str key) = true
        rw [Value.same_str_right, htext, decide_eq_true rfl]
    · have hfirst : ¬ first.1.text? = some key := by
        intro hfirst
        have hdiffer := hdistinct.1 e.1 (List.mem_map_of_mem hrest)
        exact Bool.false_ne_true (hdiffer.symm.trans (same_of_text hfirst htext))
      rw [Value.get?, List.find?_cons_of_neg]
      · exact ih hdistinct.2 hrest
      · show ¬ Value.same first.1 (.str key) = true
        rwa [Value.same_str_right, decide_eq_true_iff]

/-- A mapping that describes a file holds texts and flags only, and so no long integer. -/
lemma Describes.not_overlong {cf : ConfigFile} (h : Describes entries cf)
    (hkeys : (Value.map entries).WellKeyed) : ¬ (Value.map entries).Overlong := by
  obtain ⟨-, hdistinct, -⟩ := hkeys.of_map
  rw [Value.Overlong, Bool.not_eq_false, Value.isShowable, Value.entriesShowable_iff]
  intro e he
  obtain ⟨key, hkey, htext⟩ := h.known e he
  have hget := get?_of_mem hdistinct he htext
  refine ⟨isShowable_of_text htext, ?_⟩
  simp only [keys, List.mem_cons, List.not_mem_nil, or_false] at hkey
  rcases hkey with rfl | rfl | rfl | rfl | rfl | rfl | rfl
  · exact (h.presets.of_get? hget).isShowable
  · exact isShowable_of_text (h.rootAlias.of_get? hget)
  · exact (h.extensions.of_get? hget).isShowable
  · exact (h.lintExtensions.of_get? hget).isShowable
  · exact (h.exclude.of_get? hget).isShowable
  · rw [h.gitignore.of_get? hget]
    rfl
  · exact (h.rules.of_get? hget).isShowable

/-! ## Uniqueness -/

lemma WritesTexts.unique {xs ys : List String} (hx : WritesTexts v xs) (hy : WritesTexts v ys) :
    xs = ys := by
  obtain ⟨items, hitems⟩ : ∃ items, items? v = some items := by
    obtain ⟨items, hsequence, -⟩ := hx
    exact ⟨items, items?_eq_some_iff.mpr hsequence⟩
  rw [← hx.filterMap hitems, ← hy.filterMap hitems]

/-- Nothing is two of null, a text and some texts. -/
lemma WritesTexts.text?_eq_none {xs : List String} (h : WritesTexts v xs) :
    v.text? = none ∧ v ≠ .null := by
  obtain ⟨items, rfl | rfl, -⟩ := h
  · exact ⟨rfl, nofun⟩
  · exact ⟨rfl, nofun⟩

lemma WritesPresets.unique {a b : PresetChoice} (ha : WritesPresets v a) (hb : WritesPresets v b) :
    a = b := by
  cases ha with
  | unspecified =>
    cases hb with
    | unspecified => rfl
    | one h => cases h
    | many h => exact absurd rfl h.text?_eq_none.2
  | one h =>
    cases hb with
    | unspecified => cases h
    | one h' => rw [Option.some_inj.mp (h.symm.trans h')]
    | many h' => cases h'.text?_eq_none.1.symm.trans h
  | many h =>
    cases hb with
    | unspecified => exact absurd rfl h.text?_eq_none.2
    | one h' => cases h.text?_eq_none.1.symm.trans h'
    | many h' => rw [h.unique h']

lemma WritesSearched.unique {a b : Option (List String)} (ha : WritesSearched v a)
    (hb : WritesSearched v b) : a = b := by
  cases ha with
  | none =>
    cases hb with
    | none => rfl
    | some h => exact absurd rfl h.text?_eq_none.2
  | some h =>
    cases hb with
    | none => exact absurd rfl h.text?_eq_none.2
    | some h' => rw [h.unique h']

lemma Gives.unique {key : String} {writes : Value → α → Prop} {default a b : α}
    (ha : Gives entries key writes default a) (hb : Gives entries key writes default b)
    (h : ∀ {v a b}, writes v a → writes v b → a = b) : a = b := by
  unfold Gives at ha hb
  cases hget : Value.get? entries (.str key) with
  | none =>
    rw [hget] at ha hb
    exact ha.trans hb.symm
  | some v =>
    rw [hget] at ha hb
    exact h ha hb

/-- A mapping describes one file at most. -/
lemma Describes.unique {cf cf' : ConfigFile} (h : Describes entries cf)
    (h' : Describes entries cf') :
    cf = cf' := by
  have hpresets := h.presets.unique h'.presets WritesPresets.unique
  have hrootAlias := h.rootAlias.unique h'.rootAlias fun ha hb =>
    Option.some_inj.mp (ha.symm.trans hb)
  have hextensions := h.extensions.unique h'.extensions WritesTexts.unique
  have hlint := h.lintExtensions.unique h'.lintExtensions WritesSearched.unique
  have hexclude := h.exclude.unique h'.exclude WritesTexts.unique
  have hgitignore := h.gitignore.unique h'.gitignore fun ha hb => Value.bool.inj (ha.symm.trans hb)
  have hrules := h.rules.unique h'.rules fun ha hb =>
    (rulesOf_of_writesRules ha).symm.trans (rulesOf_of_writesRules hb)
  cases cf
  cases cf'
  simp only at hpresets hrootAlias hextensions hlint hexclude hgitignore hrules
  rw [hpresets, hrootAlias, hextensions, hlint, hexclude, hgitignore, hrules]

/-- A value is read exactly when it is a mapping that describes a configuration file, and the file
is the one described. Everything else is refused with a message that starts with the origin and a
place in the document; there is no such message only where an integer in the value is too long to be
written. -/
theorem parse_iff_describes (raw : Value) (origin : String) (h : raw.WellKeyed) :
    (∀ cf, parse raw origin = .ok cf ↔ ∃ entries, raw = .map entries ∧ Describes entries cf) ∧
    ((∀ cf entries, raw = .map entries → ¬ Describes entries cf) →
      (∃ r rest, parse raw origin = .error (.malformed origin r) ∧
        (ConfigError.malformed origin r).message = origin ++ ": $" ++ rest) ∨
      parse raw origin = .error (.raised .tooLong) ∧ raw.Overlong) := by
  have hwithin := load_within schema raw "$"
  cases schema_load_decides h "$" with
  | @accepted w _ ok hw =>
    have hparse : parse raw origin = .ok (ofRecord w) := by
      simp only [parse, record, ok]
      rfl
    obtain ⟨entries, rfl, hcf⟩ := hw
    refine ⟨fun cf => ?_, fun hnone => absurd hcf (hnone _ entries rfl)⟩
    rw [hparse]
    constructor
    · rintro heq
      obtain rfl := Except.ok.inj heq
      exact ⟨entries, rfl, hcf⟩
    · rintro ⟨entries', heq, hcf'⟩
      obtain rfl := Value.map.inj heq
      rw [hcf.unique hcf']
  | @rejected r hnone error =>
    have hparse : parse raw origin = .error (.malformed origin r) := by
      simp only [parse, record, error]
      rfl
    obtain ⟨rest, hrest⟩ := hwithin r error
    refine ⟨fun cf => ?_, fun _ => .inl ⟨r, rest ++ (": " ++ r.reason.text), hparse, ?_⟩⟩
    · rw [hparse]
      exact ⟨nofun, fun hcf => absurd ⟨cf, hcf⟩ hnone⟩
    · -- the place in the document starts at its root, which is written as a dollar
      have hdollar : ": $" = ": " ++ "$" := rfl
      show origin ++ ": " ++ (r.path ++ ": " ++ r.reason.text) = _
      rw [hrest, hdollar]
      simp only [String.append_assoc]
  | tooLong hlong error =>
    have hparse : parse raw origin = .error (.raised .tooLong) := by
      simp only [parse, record, error]
      rfl
    refine ⟨fun cf => ?_, fun _ => .inr ⟨hparse, hlong⟩⟩
    rw [hparse]
    refine ⟨nofun, ?_⟩
    rintro ⟨entries, rfl, hcf⟩
    exact absurd hlong (hcf.not_overlong h)

/-- A mapping with two rules, a tuple of presets and no other key. -/
def sampleEntries : List (Value × Value) :=
  [(.str "rules", .map [(.str "b", .str "warn"), (.str "a", .str "off")]),
    (.str "extends", .tuple [.str "recommended"])]

/-- A mapping with a word that is no severity. -/
def malformedEntries : List (Value × Value) :=
  [(.str "rules", .map [(.str "a", .str "fatal")])]

lemma wellKeyed_sampleEntries : (Value.map sampleEntries).WellKeyed := by
  have hrules : (Value.map [(.str "b", .str "warn"), (.str "a", .str "off")]).WellKeyed := by
    refine .map (by simp [Value.unhashable?]) (by simp) ?_
    simpa using ⟨.str _, .str _⟩
  have hpresets : (Value.tuple [.str "recommended"]).WellKeyed := by
    refine .sequence (.inr rfl) ?_
    simpa using .str _
  refine .map (by simp [sampleEntries, Value.unhashable?]) (by simp [sampleEntries]) ?_
  simpa [sampleEntries] using ⟨hrules, hpresets⟩

/-- Keys that are one text each are well keyed where their values are. -/
lemma wellKeyed_singleton (key : String) (h : v.WellKeyed) :
    (Value.map [(.str key, v)]).WellKeyed := by
  refine .map (by simp [Value.unhashable?]) (List.pairwise_singleton _ _) ?_
  simpa using h

lemma wellKeyed_malformedEntries : (Value.map malformedEntries).WellKeyed :=
  wellKeyed_singleton "rules" (wellKeyed_singleton "a" (.str _))

lemma describes_sampleEntries : Describes sampleEntries
    { presets := .many ["recommended"], rules := [("b", .warn), ("a", .off)] } := by
  have hextends : WritesPresets (.tuple [.str "recommended"]) (.many ["recommended"]) :=
    .many ⟨_, .inr rfl, .cons rfl .nil⟩
  have hrules : WritesRules (.map [(.str "b", .str "warn"), (.str "a", .str "off")])
      [("b", .warn), ("a", .off)] :=
    ⟨_, rfl, .cons ⟨rfl, rfl, .inr (.inl rfl)⟩ (.cons ⟨rfl, rfl, .inr (.inr rfl)⟩ .nil)⟩
  constructor
  case known => simp [sampleEntries, keys, Value.text?, Value.bare]
  case presets => simpa [Gives, Value.get?, sampleEntries] using hextends
  case rules => simpa [Gives, Value.get?, sampleEntries] using hrules
  -- the other keys are absent
  all_goals simp [Gives, Value.get?, sampleEntries]

lemma not_describes_malformedEntries (cf : ConfigFile) : ¬ Describes malformedEntries cf := by
  intro h
  have hrules : WritesRules (.map [(.str "a", .str "fatal")]) cf.rules := by
    simpa [Gives, Value.get?, malformedEntries] using h.rules
  obtain ⟨entries, heq, hentries⟩ := hrules
  obtain rfl := Value.map.inj heq
  obtain ⟨rule, hrule⟩ := exists_forall₂_iff.mp ⟨_, hentries⟩ _ List.mem_cons_self
  obtain ⟨-, hlevel, hknown⟩ := hrule
  rcases hknown with hknown | hknown | hknown
  all_goals
    rw [hknown] at hlevel
    exact absurd (Option.some_inj.mp hlevel) (by decide)

theorem parse_iff_describes_sampleEntries :
    parse (.map sampleEntries) "eml.yaml" =
      .ok { presets := .many ["recommended"], rules := [("b", .warn), ("a", .off)] } ∧
    ∃ r rest, parse (.map malformedEntries) "eml.yaml" = .error (.malformed "eml.yaml" r) ∧
      (ConfigError.malformed "eml.yaml" r).message = "eml.yaml" ++ ": $" ++ rest := by
  constructor
  · have h := parse_iff_describes (.map sampleEntries) "eml.yaml" wellKeyed_sampleEntries
    exact (h.1 _).mpr ⟨_, rfl, describes_sampleEntries⟩
  · have h := parse_iff_describes (.map malformedEntries) "eml.yaml" wellKeyed_malformedEntries
    have hshort : ¬ (Value.map malformedEntries).Overlong := by decide
    refine (h.2 ?_).resolve_right fun hlong => hshort hlong.2
    intro cf entries heq
    obtain rfl := Value.map.inj heq
    exact not_describes_malformedEntries cf

/-! ## Long integers -/

/-- A field that is not given does not keep the others from failing. -/
lemma outcome_loadFields_of_absent {f : FieldSpec Schema} {fields : List (FieldSpec Schema)}
    {path : String} {w : Value} {e : LoadError}
    (hget : Value.get? entries (.str f.name) = none) (hdefault : f.default? = some w)
    (h : (loadFields fields entries path).outcome = .error e) :
    (loadFields (f :: fields) entries path).outcome = .error e := by
  obtain ⟨name, schema, default?, given⟩ := f
  have hfield : (loadField schema.load name default? given entries path).outcome =
      .ok (some w) := by
    simp only at hget hdefault
    unfold loadField
    cases given with
    | true => simp only [if_true, hget, hdefault, Traced.outcome_ok]
    | false => simp only [Bool.false_eq_true, if_false, hdefault, Traced.outcome_ok]
  rw [loadFields, Traced.outcome_bind_ok hfield]
  exact Traced.outcome_bind_error h _

/-- A number in place of a severity is not refused with a message if it is too long for one. -/
theorem parse_overlong :
    (Value.map [(.str "rules", .map [(.str "r", longInt)])]).WellKeyed ∧
    (∀ cf, ¬ Describes [(.str "rules", .map [(.str "r", longInt)])] cf) ∧
    parse (.map [(.str "rules", .map [(.str "r", longInt)])]) "eml.yaml" =
      .error (.raised .tooLong) := by
  have hkeys : (Value.map [(.str "rules", .map [(.str "r", longInt)])]).WellKeyed := by
    exact wellKeyed_singleton "rules" (wellKeyed_singleton "r" (.int _))
  have hlong : (Value.map [(.str "rules", .map [(.str "r", longInt)])]).Overlong := by
    refine Value.overlong_map_of_mem List.mem_cons_self (.inr ?_)
    exact Value.overlong_map_of_mem List.mem_cons_self (.inr overlong_longInt)
  -- the refusal would quote the number
  have hseverity : ∀ path, (severity.load longInt path).outcome = .error (.raised .tooLong) := by
    intro path
    rw [severity_eq, load, if_neg (by simp [same_str_longInt]), Attempt.rejectOther, if_neg]
    · rfl
    · rw [Bool.and_eq_true, not_and_or, Bool.not_eq_true, Bool.not_eq_true]
      exact .inr overlong_longInt
  have hrules : ∀ path, ((Schema.map (.scalar .str) severity).load (.map [(.str "r", longInt)])
      path).outcome = .error (.raised .tooLong) := by
    intro path
    rw [load]
    apply Traced.outcome_bind_error
    rw [loadEntries, Traced.outcome_bind_ok (a := .str "r") (by rw [load]; rfl),
      outcome_keyPath_bind (by rfl)]
    exact Traced.outcome_bind_error (hseverity _) _
  have hload : (schema.load (.map [(.str "rules", .map [(.str "r", longInt)])]) "$").outcome =
      .error (.raised .tooLong) := by
    have hunknown : unknownKeys fields [(.str "rules", .map [(.str "r", longInt)])] = [] := by
      rw [unknownKeys_eq_nil_iff]
      simp [NamesField, fields]
    rw [schema_eq, load]
    simp only [hunknown]
    apply Traced.outcome_bind_error
    -- the fields before the rules are absent
    rw [fields]
    iterate 6 apply outcome_loadFields_of_absent (by simp [Value.get?]) (by rfl)
    rw [loadFields]
    apply Traced.outcome_bind_error
    have hget : Value.get? [(.str "rules", .map [(.str "r", longInt)])] (.str "rules") =
        some (.map [(.str "r", longInt)]) := by simp [Value.get?]
    unfold loadField
    simp only [if_true, hget]
    exact Traced.outcome_bind_error (hrules _) _
  refine ⟨hkeys, fun cf hcf => hcf.not_overlong hkeys hlong, ?_⟩
  rw [parse, record, hload]
  rfl

end ConfigFile

end EntryLint
