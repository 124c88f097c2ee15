import EntryLint.Proofs.Config.Resolve
import EntryLint.Proofs.Schema.Load

/-!
# Configuration files that were read

A value is read into a configuration file only if it conforms to the schema of such files, and so
the rules of a file that was read have known severities. `ConfigFile.parse_cases` says this with
what comes of the values that are not read.
-/

namespace EntryLint

/-- What is equal to a text is that text. -/
lemma Value.same_str_eq (s : String) (v : Value) :
    Value.same (.str s) v = decide (v.text? = some s) := by
  have hleaf : Value.same (.str s) v = sameLeaf (.str s) v := by simp only [Value.same]
  rw [hleaf, sameLeaf, text?]
  cases v.bare with
  | str t => simp [bare, eq_comm]
  | _ => simp [bare]

lemma Value.same_str_right (v : Value) (s : String) :
    Value.same v (.str s) = decide (v.text? = some s) := by
  have hleaf : Value.same v (.str s) = sameLeaf v (.str s) := by simp only [Value.same]
  rw [hleaf, sameLeaf, text?]
  cases v.bare with
  | str t => simp [bare]
  | _ => simp [bare]

/-- A field of a typed record has a value of its schema or its default. -/
lemma Schema.InhabitsFields.of_mem {fields : List (FieldSpec Schema)}
    {values : List (String × Value)} (h : InhabitsFields fields values) {name : String} {w : Value}
    (hw : (name, w) ∈ values) :
    ∃ f ∈ fields, f.name = name ∧ (f.schema.Inhabits w ∨ f.default? = some w) := by
  induction fields generalizing values with
  | nil =>
    cases h
    exact absurd hw List.not_mem_nil
  | cons f fields ih =>
    have hrest : ∀ {rest}, InhabitsFields fields rest → (name, w) ∈ rest →
        ∃ f' ∈ f :: fields, f'.name = name ∧ (f'.schema.Inhabits w ∨ f'.default? = some w) := by
      intro rest hfields hmem
      obtain ⟨f', hf', hvalue⟩ := ih hfields hmem
      exact ⟨f', List.mem_cons_of_mem _ hf', hvalue⟩
    cases h with
    | typed htyped rest =>
      rcases List.mem_cons.mp hw with heq | hmem
      · obtain ⟨rfl, rfl⟩ := Prod.mk.inj heq
        exact ⟨f, List.mem_cons_self, rfl, .inl htyped⟩
      · exact hrest rest hmem
    | default hdefault rest =>
      rcases List.mem_cons.mp hw with heq | hmem
      · obtain ⟨rfl, rfl⟩ := Prod.mk.inj heq
        exact ⟨f, List.mem_cons_self, rfl, .inr hdefault⟩
      · exact hrest rest hmem
    | unset _ _ rest => exact hrest rest hw

namespace ConfigFile

open Schema

lemma severity_eq : severity = .literal [.str "error", .str "warn", .str "off"] := by
  simp [severity, oneOf, sameLiteral, Value.typeName]

/-- The fields of the schema, in the order of their declaration. -/
def fields : List (FieldSpec Schema) :=
  [{ name := "extends", schema := .union [.scalar .str, texts, .null], default? := some .null },
    { name := "top_level_alias", schema := .scalar .str, default? := some (.str "@") },
    { name := "extensions", schema := texts,
      default? := some (textsValue [".ts", ".tsx", ".js", ".jsx"]) },
    { name := "lint_extensions", schema := .union [texts, .null], default? := some .null },
    { name := "exclude", schema := texts, default? := some (.list []) },
    { name := "gitignore", schema := .scalar .bool, default? := some (.bool true) },
    { name := "rules", schema := .map (.scalar .str) severity, default? := some (.map []) }]

lemma schema_eq : schema = .record "ConfigFile" fields := by
  have htexts : bare texts = texts := by simp [texts, bare]
  have hpresets : bare (Schema.choice [.scalar .str, texts, .null]) =
      .union [.scalar .str, texts, .null] := by
    simp [Schema.choice, distinct, variants, Schema.same, bare, bareAll, texts]
  have hsearched : bare (Schema.optional texts) = .union [texts, .null] := by
    simp [Schema.optional, Schema.choice, distinct, variants, Schema.same, bare, bareAll, texts]
  have hrules : bare (.map (.scalar .str) severity) = .map (.scalar .str) severity := by
    simp [severity_eq, bare]
  simp only [schema, recordOf, List.map_cons, List.map_nil, htexts, hpresets, hsearched, hrules]
  simp only [bare, fields]

lemma supported_fields : ∀ f ∈ fields, f.schema.Supported := by
  have htexts : texts.Supported := .collection (.scalar _) nofun
  simp only [fields, List.forall_mem_cons]
  refine ⟨?_, .scalar _, htexts, ?_, htexts, .scalar _, ?_, by simp⟩
  · apply Supported.union
    simpa only [List.forall_mem_cons] using ⟨.scalar _, htexts, .null, by simp⟩
  · apply Supported.union
    simpa only [List.forall_mem_cons] using ⟨htexts, .null, by simp⟩
  · rw [severity_eq]
    exact .map (.scalar _) (.scalar _) (.literal _)

lemma isKnown_of_inhabits {v : Value} (h : severity.Inhabits v) {level : String}
    (hlevel : v.text? = some level) : (Severity.ofName level).IsKnown := by
  rw [severity_eq] at h
  cases h with
  | literal mem same =>
    simp only [List.mem_cons, List.not_mem_nil, or_false] at mem
    rcases mem with rfl | rfl | rfl
    all_goals
      rw [Value.same_str_eq, hlevel, decide_eq_true_iff, Option.some_inj] at same
      subst same
    · exact .inl rfl
    · exact .inr (.inl rfl)
    · exact .inr (.inr rfl)

lemma isKnown_of_mem_rulesOf {v : Value} (h : (Schema.map (.scalar .str) severity).Inhabits v) :
    ∀ e ∈ rulesOf v, e.2.IsKnown := by
  cases h with
  | map _ values =>
    intro e he
    rw [rulesOf, List.mem_filterMap] at he
    obtain ⟨⟨key, level⟩, hentry, he⟩ := he
    simp only at he
    split at he
    · rename_i hlevel
      obtain rfl := Option.some_inj.mp he
      exact isKnown_of_inhabits (values _ hentry) hlevel
    · cases he

lemma hasKnownSeverities_of_inhabits {v : Value} (h : schema.Inhabits v) :
    (ofRecord v).HasKnownSeverities := by
  have hrules : ∀ f ∈ fields, f.name = "rules" →
      f.schema = .map (.scalar .str) severity ∧ f.default? = some (.map []) := by simp [fields]
  rw [schema_eq] at h
  cases h with
  | record hfields =>
    rename_i values
    show ∀ e ∈ rulesOf ((NameMap.get? values "rules").getD .null), e.2.IsKnown
    -- the rules are absent, of their schema, or the default, which is empty
    cases hget : NameMap.get? values "rules" with
    | none => exact fun e he => absurd he List.not_mem_nil
    | some w =>
      obtain ⟨f, hf, hname, hw⟩ := hfields.of_mem (NameMap.mem_of_get? hget)
      obtain ⟨hmap, hdefault⟩ := hrules f hf hname
      rcases hw with hw | hw
      · rw [hmap] at hw
        exact isKnown_of_mem_rulesOf hw
      · rw [hdefault] at hw
        obtain rfl := Option.some_inj.mp hw
        exact fun e he => absurd he List.not_mem_nil

lemma supported_schema : schema.Supported := by
  rw [schema_eq]
  exact .record supported_fields

/-- No message about the schema itself quotes a long integer. -/
lemma not_overlong_schema : ¬ schema.Overlong := by
  have htexts : ¬ texts.Overlong := by
    rintro (_ | _ | ⟨⟨⟩⟩)
  have hseverity : ¬ severity.Overlong := by
    rw [severity_eq]
    rintro ⟨hlong⟩
    simp [Value.areShowable, Value.isShowable] at hlong
  rw [schema_eq]
  rintro (_ | _ | _ | _ | _ | _ | _ | _ | ⟨hmem, hlong⟩)
  simp only [fields, List.mem_cons, List.not_mem_nil, or_false] at hmem
  rcases hmem with rfl | rfl | rfl | rfl | rfl | rfl | rfl
  · cases hlong with
    | union hmem h =>
      simp only [List.mem_cons, List.not_mem_nil, or_false] at hmem
      rcases hmem with rfl | rfl | rfl
      · cases h
      · exact htexts h
      · cases h
  · cases hlong
  · exact htexts hlong
  · cases hlong with
    | union hmem h =>
      simp only [List.mem_cons, List.not_mem_nil, or_false] at hmem
      rcases hmem with rfl | rfl
      · exact htexts h
      · cases h
  · exact htexts hlong
  · cases hlong
  · cases hlong with
    | mapKey h => cases h
    | mapValue h => exact hseverity h

/-- What comes of a value: a file with known severities, a rejection, or an exception, if an integer
in the value is too long to be written. -/
lemma parse_cases (raw : Value) (origin : String) :
    (∃ cf, parse raw origin = .ok cf ∧ cf.HasKnownSeverities) ∨
      (∃ r, parse raw origin = .error (.malformed origin r)) ∨
      parse raw origin = .error (.raised .tooLong) ∧ raw.Overlong := by
  unfold parse record
  cases load_decides supported_schema raw "$" with
  | accepted _ ok hw =>
    simp only [ok]
    exact .inl ⟨_, rfl, hasKnownSeverities_of_inhabits hw⟩
  | @rejected r _ error =>
    simp only [error]
    exact .inr (.inl ⟨r, rfl⟩)
  | tooLong hlong error =>
    simp only [error]
    exact .inr (.inr ⟨rfl, hlong.resolve_right not_overlong_schema⟩)

/-- A file that was read has known severities only. -/
lemma hasKnownSeverities_of_parse {raw : Value} {origin : String} {cf : ConfigFile}
    (h : parse raw origin = .ok cf) : cf.HasKnownSeverities := by
  rcases parse_cases raw origin with ⟨cf', hcf', hknown⟩ | ⟨r, hr⟩ | ⟨hlong, -⟩
  · rwa [Except.ok.inj (h.symm.trans hcf')]
  · cases h.symm.trans hr
  · cases h.symm.trans hlong

end ConfigFile

end EntryLint
