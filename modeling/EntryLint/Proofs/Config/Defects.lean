import EntryLint.Config.Resolve
import EntryLint.Proofs.Failures
import EntryLint.Proofs.NameMap
import Mathlib.Data.List.Basic
import Mathlib.Data.List.Induction
import Mathlib.Tactic.Common

/-!
# Defects of a configuration file

`Valid` says which files resolve to a configuration, and `FirstDefect` which error reports the
defect of another: the checks come one after the other, and of several defects the first counts.
Aliases and extensions are checked before anything is looked up (`checkFile_eq_ok_iff`,
`checkFile_eq_error_iff`).
-/

namespace EntryLint

/-- The members of a list in the order of their first occurrences, each once. -/
structure FirstOccurrences (xs ys : List String) : Prop where
  mem : ∀ x, x ∈ ys ↔ x ∈ xs
  order : ys.Pairwise fun a b => xs.idxOf a < xs.idxOf b

/-- The severities that a preset gives; a preset that is unknown gives none. -/
def Registry.severitiesIn (registry : Registry) (preset : String) : NameMap Severity :=
  ((registry.presets.get? preset).map registry.content).getD []

/-- The rules that a preset has severities for. -/
def Registry.namesIn (registry : Registry) (preset : String) : List String :=
  (registry.severitiesIn preset).names

namespace Config

/-! ## Valid files -/

/-- An alias is not empty, has no slash and does not start with a dot. -/
structure ProperAlias (rootAlias : String) : Prop where
  ne_empty : rootAlias ≠ ""
  noSlash : '/' ∉ rootAlias.toList
  noDot : rootAlias.toList.head? ≠ some '.'

/-- An extension is a dot with something after it. -/
structure ProperExtension (e : String) : Prop where
  dot : e.toList.head? = some '.'
  long : 2 ≤ e.length

/-- The extensions that a file asks to search, as they are written: its own list, or those that are
cut off and the extra ones. -/
def searchedExtensions (cf : ConfigFile) : List String :=
  cf.lintExtensions.getD (cf.extensions ++ extraLintExtensions)

/-- The presets that a file names. -/
def namedPresets (cf : ConfigFile) : List String :=
  match cf.presets with
  | .unspecified => []
  | .one name => [name]
  | .many names => names

/-- The rules that a file has a severity for, as its presets and then its own rules mention them. -/
def mentionedRules (registry : Registry) (cf : ConfigFile) : List String :=
  (presetsOf cf).flatMap registry.namesIn ++ cf.rules.names

/-- Alias and extensions of a file are proper. -/
structure ProperTexts (cf : ConfigFile) (rootAlias : String) : Prop where
  rootAlias : ProperAlias rootAlias
  extensions : ∀ e ∈ cf.extensions, ProperExtension e
  lintExtensions : ∀ e ∈ searchedExtensions cf, ProperExtension e
  supported : ∀ e ∈ searchedExtensions cf, Grammar.isSupported e = true

/-- A file resolves: its texts are proper, the presets that it names are known, and the rules that
these and the file mention are registered. -/
structure Valid (registry : Registry) (cf : ConfigFile) (rootAlias : String) : Prop where
  texts : ProperTexts cf rootAlias
  presets : ∀ p ∈ namedPresets cf, p ∈ registry.presetNames
  rules : ∀ n ∈ mentionedRules registry cf, n ∈ registry.ruleNames

/-! ## Defects -/

/-- The first defect of alias and extensions, and the error that reports it. -/
inductive TextDefect (cf : ConfigFile) (rootAlias origin : String) : ConfigError → Prop
  | emptyAlias (empty : rootAlias = "") : TextDefect cf rootAlias origin (.emptyAlias origin)
  | badAlias (ne_empty : rootAlias ≠ "")
      (bad : '/' ∈ rootAlias.toList ∨ rootAlias.toList.head? = some '.') :
      TextDefect cf rootAlias origin (.badAlias origin rootAlias)
  | extension {e : String} (proper : ProperAlias rootAlias)
      (first : FirstFailing ProperExtension cf.extensions e) :
      TextDefect cf rootAlias origin (.badExtension origin "extensions" e)
  | lintExtension {e : String} (proper : ProperAlias rootAlias)
      (extensions : ∀ x ∈ cf.extensions, ProperExtension x)
      (first : FirstFailing ProperExtension (searchedExtensions cf) e) :
      TextDefect cf rootAlias origin (.badExtension origin "lint_extensions" e)
  | unsupported {es : List String} (proper : ProperAlias rootAlias)
      (extensions : ∀ x ∈ cf.extensions, ProperExtension x)
      (lintExtensions : ∀ x ∈ searchedExtensions cf, ProperExtension x)
      (all : FirstOccurrences ((searchedExtensions cf).filter fun e => !Grammar.isSupported e) es)
      (ne_nil : es ≠ []) : TextDefect cf rootAlias origin (.noParser origin es)

/-- The first defect of a file, and the error that reports it: texts come before presets, and
presets before rules. -/
inductive FirstDefect (registry : Registry) (cf : ConfigFile) (rootAlias origin : String) :
    ConfigError → Prop
  | text {e : ConfigError} (h : TextDefect cf rootAlias origin e) :
      FirstDefect registry cf rootAlias origin e
  | preset {p : String} (texts : ProperTexts cf rootAlias)
      (first : FirstFailing (· ∈ registry.presetNames) (presetsOf cf) p) :
      FirstDefect registry cf rootAlias origin (.registry (.unknownPreset p registry.presetNames))
  | rule {n : String} (texts : ProperTexts cf rootAlias)
      (presets : ∀ p ∈ presetsOf cf, p ∈ registry.presetNames)
      (first : FirstFailing (· ∈ registry.ruleNames) (mentionedRules registry cf) n) :
      FirstDefect registry cf rootAlias origin (.registry (.unknownRule n registry.ruleNames))

end Config

/-! ## First occurrences -/

namespace FirstOccurrences

variable {xs ys ys' : List String}

lemma nodup (h : FirstOccurrences xs ys) : ys.Nodup :=
  h.order.imp fun hlt heq => absurd hlt (by rw [heq]; exact Nat.lt_irrefl _)

lemma unique (h : FirstOccurrences xs ys) (h' : FirstOccurrences xs ys') : ys = ys' := by
  have hperm : ys.Perm ys' := by
    rw [List.perm_ext_iff_of_nodup h.nodup h'.nodup]
    exact fun x => (h.mem x).trans (h'.mem x).symm
  apply hperm.eq_of_pairwise _ h.order h'.order
  intro a b _ _ hab hba
  omega

end FirstOccurrences

namespace Config

/-- What one more member does to a list without repeats. -/
lemma dedup_concat (xs : List String) (x : String) :
    dedup (xs ++ [x]) = if (dedup xs).contains x then dedup xs else dedup xs ++ [x] := by
  rw [dedup, List.foldl_append]
  rfl

lemma firstOccurrences_dedup (xs : List String) : FirstOccurrences xs (dedup xs) := by
  induction xs using List.reverseRecOn with
  | nil => exact ⟨fun x => Iff.rfl, List.Pairwise.nil⟩
  | append_singleton xs x ih =>
    -- the places of earlier members stay
    have horder : (dedup xs).Pairwise fun a b => (xs ++ [x]).idxOf a < (xs ++ [x]).idxOf b := by
      refine ih.order.imp_of_mem ?_
      intro a b ha hb hlt
      rwa [List.idxOf_append_of_mem ((ih.mem a).mp ha), List.idxOf_append_of_mem ((ih.mem b).mp hb)]
    rw [dedup_concat]
    split
    · rename_i hmem
      rw [List.contains_iff_mem, ih.mem] at hmem
      refine ⟨fun y => ?_, horder⟩
      rw [ih.mem, List.mem_append, List.mem_singleton]
      exact ⟨.inl, fun h => h.elim id fun heq => heq ▸ hmem⟩
    · rename_i hmem
      rw [List.contains_iff_mem, ih.mem] at hmem
      refine ⟨fun y => by rw [List.mem_append, List.mem_append, ih.mem], ?_⟩
      rw [List.pairwise_append]
      refine ⟨horder, List.pairwise_singleton _ _, ?_⟩
      intro a ha b hb
      have hlt := List.idxOf_lt_length_of_mem ((ih.mem a).mp ha)
      rw [List.mem_singleton.mp hb, List.idxOf_append_of_mem ((ih.mem a).mp ha),
        List.idxOf_append_of_notMem hmem]
      omega

/-- A member that is dropped stood earlier, so the first member with a property is the same. -/
lemma find?_dedup (p : String → Bool) (xs : List String) : (dedup xs).find? p = xs.find? p := by
  induction xs using List.reverseRecOn with
  | nil => rfl
  | append_singleton xs x ih =>
    rw [dedup_concat, List.find?_append, ← ih]
    split
    · rename_i hmem
      cases hfind : (dedup xs).find? p with
      | some y => rfl
      | none =>
        have hnot := List.find?_eq_none.mp hfind x (List.contains_iff_mem.mp hmem)
        rw [List.find?_cons_of_neg hnot]
        rfl
    · rw [List.find?_append]

lemma filter_dedup (p : String → Bool) (xs : List String) :
    (dedup xs).filter p = dedup (xs.filter p) := by
  induction xs using List.reverseRecOn with
  | nil => rfl
  | append_singleton xs x ih =>
    rw [dedup_concat, List.filter_append]
    cases hp : p x with
    | false =>
      rw [List.filter_cons_of_neg (by simp [hp]), List.filter_nil, List.append_nil, ← ih]
      split
      · rfl
      · rw [List.filter_append, List.filter_cons_of_neg (by simp [hp]), List.filter_nil,
          List.append_nil]
    | true =>
      rw [List.filter_cons_of_pos hp, List.filter_nil, dedup_concat, ← ih]
      have hcontains : ((dedup xs).filter p).contains x = (dedup xs).contains x := by
        rw [Bool.eq_iff_iff, List.contains_iff_mem, List.contains_iff_mem, List.mem_filter]
        exact ⟨And.left, fun hmem => ⟨hmem, hp⟩⟩
      rw [hcontains]
      split
      · rfl
      · rw [List.filter_append, List.filter_cons_of_pos hp, List.filter_nil]

/-- Setting names over those of a list without repeats adds the new ones to it. -/
lemma names_update_of_dedup {α : Type} {m : NameMap α} {xs : List String} (h : m.names = dedup xs)
    (entries : NameMap α) : (m.update entries).names = dedup (xs ++ entries.names) := by
  induction entries generalizing m xs with
  | nil =>
    rw [show NameMap.names ([] : NameMap α) = [] from rfl, List.append_nil]
    exact h
  | cons e entries ih =>
    have hput : (m.put e.1 e.2).names = dedup (xs ++ [e.1]) := by
      simp only [NameMap.names_put, dedup_concat, h, List.contains_iff_mem]
    rw [NameMap.names_cons, List.append_cons]
    exact ih hput

lemma lintExtensionsOf_eq (cf : ConfigFile) :
    lintExtensionsOf cf = dedup (searchedExtensions cf) := by
  unfold lintExtensionsOf searchedExtensions
  cases cf.lintExtensions with
  | none => rfl
  | some given => rfl

/-! ## Aliases and extensions -/

lemma startsWith_dot_iff {s : String} :
    Text.startsWith "." s = true ↔ s.toList.head? = some '.' := by
  show ['.'].isPrefixOf s.toList = true ↔ _
  cases s.toList with
  | nil => simp
  | cons c cs =>
    show ('.' == c && true) = true ↔ some c = some '.'
    rw [Bool.and_true, beq_iff_eq, Option.some_inj, eq_comm]

instance : DecidablePred ProperExtension := fun e =>
  decidable_of_iff (e.toList.head? = some '.' ∧ 2 ≤ e.length)
    ⟨fun h => ⟨h.1, h.2⟩, fun h => ⟨h.dot, h.long⟩⟩

lemma isExtension_eq (e : String) : isExtension e = decide (ProperExtension e) := by
  rw [Bool.eq_iff_iff, isExtension, Bool.and_eq_true, startsWith_dot_iff, decide_eq_true_eq,
    decide_eq_true_eq]
  exact ⟨fun h => ⟨h.1, h.2⟩, fun h => ⟨h.dot, h.long⟩⟩

/-- Whether an alias is proper is decided in two steps, since an empty one has its own message. -/
lemma checkAlias_eq (rootAlias origin : String) :
    checkAlias rootAlias origin =
      if rootAlias = "" then .error (.emptyAlias origin)
      else if '/' ∈ rootAlias.toList ∨ rootAlias.toList.head? = some '.' then
        .error (.badAlias origin rootAlias)
      else .ok () := by
  have hbad : (Text.contains '/' rootAlias || Text.startsWith "." rootAlias) = true ↔
      '/' ∈ rootAlias.toList ∨ rootAlias.toList.head? = some '.' := by
    rw [Bool.or_eq_true, startsWith_dot_iff, Text.contains, List.contains_iff_mem]
  simp only [checkAlias, hbad]

lemma checkAlias_eq_ok_iff {rootAlias origin : String} :
    checkAlias rootAlias origin = .ok () ↔ ProperAlias rootAlias := by
  rw [checkAlias_eq]
  constructor
  · intro h
    split at h
    · cases h
    · rename_i hempty
      split at h
      · cases h
      · rename_i hbad
        rw [not_or] at hbad
        exact ⟨hempty, hbad.1, hbad.2⟩
  · intro h
    rw [if_neg h.ne_empty, if_neg (not_or.mpr ⟨h.noSlash, h.noDot⟩)]

lemma checkAlias_eq_error_iff {rootAlias origin : String} {e : ConfigError} :
    checkAlias rootAlias origin = .error e ↔
      (rootAlias = "" ∧ .emptyAlias origin = e) ∨
      (rootAlias ≠ "" ∧ ('/' ∈ rootAlias.toList ∨ rootAlias.toList.head? = some '.') ∧
        .badAlias origin rootAlias = e) := by
  rw [checkAlias_eq]
  by_cases hempty : rootAlias = ""
  · simp [hempty]
  · by_cases hbad : '/' ∈ rootAlias.toList ∨ rootAlias.toList.head? = some '.'
    · simp [hempty, hbad]
    · simp [hempty, hbad]

lemma checkExtensions_eq (extensions : List String) (key origin : String) :
    checkExtensions extensions key origin =
      match extensions.find? (fun e => !decide (ProperExtension e)) with
      | some e => .error (.badExtension origin key e)
      | none => .ok () := by
  cases hfind : extensions.find? (fun e => !decide (ProperExtension e)) with
  | none => simp only [checkExtensions, isExtension_eq, hfind]
  | some e => simp only [checkExtensions, isExtension_eq, hfind]

lemma checkExtensions_eq_ok_iff {extensions : List String} {key origin : String} :
    checkExtensions extensions key origin = .ok () ↔ ∀ e ∈ extensions, ProperExtension e := by
  rw [checkExtensions_eq]
  cases hfind : extensions.find? (fun e => !decide (ProperExtension e)) with
  | none => simpa using List.find?_eq_none.mp hfind
  | some e =>
    refine ⟨nofun, fun h => ?_⟩
    have hbad := List.find?_some hfind
    simp [h e (List.mem_of_find?_eq_some hfind)] at hbad

lemma checkExtensions_eq_error_iff {extensions : List String} {key origin : String}
    {e : ConfigError} :
    checkExtensions extensions key origin = .error e ↔
      ∃ x, FirstFailing ProperExtension extensions x ∧ .badExtension origin key x = e := by
  simp only [checkExtensions_eq, firstFailing_iff]
  cases extensions.find? (fun e => !decide (ProperExtension e)) with
  | none => simp
  | some x => simp

/-! ## Texts of a file -/

/-- The last check of a file's texts: every extension that is searched has a grammar. -/
def checkSupported (cf : ConfigFile) (origin : String) : Except ConfigError Unit :=
  match (lintExtensionsOf cf).filter fun e => !Grammar.isSupported e with
  | [] => .ok ()
  | unsupported => .error (.noParser origin unsupported)

lemma checkFile_eq (cf : ConfigFile) (rootAlias origin : String) :
    checkFile cf rootAlias origin = (do
      checkAlias rootAlias origin
      checkExtensions cf.extensions "extensions" origin
      checkExtensions (lintExtensionsOf cf) "lint_extensions" origin
      checkSupported cf origin) := rfl

lemma checkSupported_eq (cf : ConfigFile) (origin : String) :
    checkSupported cf origin =
      match dedup ((searchedExtensions cf).filter fun e => !Grammar.isSupported e) with
      | [] => .ok ()
      | unsupported => .error (.noParser origin unsupported) := by
  rw [checkSupported, lintExtensionsOf_eq, filter_dedup]

lemma checkSupported_eq_ok_iff {cf : ConfigFile} {origin : String} :
    checkSupported cf origin = .ok () ↔
      ∀ e ∈ searchedExtensions cf, Grammar.isSupported e = true := by
  have hmem := (firstOccurrences_dedup
    ((searchedExtensions cf).filter fun e => !Grammar.isSupported e)).mem
  rw [checkSupported_eq]
  cases hdedup : dedup ((searchedExtensions cf).filter fun e => !Grammar.isSupported e) with
  | nil =>
    refine ⟨fun _ e he => ?_, fun _ => rfl⟩
    by_contra hnot
    have hin := (hmem e).mpr (List.mem_filter.mpr ⟨he, by simpa using hnot⟩)
    rw [hdedup] at hin
    exact List.not_mem_nil hin
  | cons e es =>
    have he := (hmem e).mp (hdedup ▸ List.mem_cons_self)
    have hnot := List.mem_filter.mp he
    refine ⟨fun h => by simp at h, fun h => ?_⟩
    simp [h e hnot.1] at hnot

lemma checkSupported_eq_error_iff {cf : ConfigFile} {origin : String} {e : ConfigError} :
    checkSupported cf origin = .error e ↔
      ∃ es, FirstOccurrences ((searchedExtensions cf).filter fun e => !Grammar.isSupported e) es ∧
        es ≠ [] ∧ .noParser origin es = e := by
  have hfirst := firstOccurrences_dedup
    ((searchedExtensions cf).filter fun e => !Grammar.isSupported e)
  rw [checkSupported_eq]
  cases hdedup : dedup ((searchedExtensions cf).filter fun e => !Grammar.isSupported e) with
  | nil =>
    refine ⟨fun h => by simp at h, ?_⟩
    rintro ⟨es, hes, hne, -⟩
    exact absurd ((hes.unique hfirst).trans hdedup) hne
  | cons x xs =>
    rw [hdedup] at hfirst
    constructor
    · intro h
      exact ⟨x :: xs, hfirst, List.cons_ne_nil x xs, Except.error.inj h⟩
    · rintro ⟨es, hes, -, rfl⟩
      rw [hes.unique hfirst]

lemma forall_mem_lintExtensionsOf {cf : ConfigFile} {P : String → Prop} :
    (∀ e ∈ lintExtensionsOf cf, P e) ↔ ∀ e ∈ searchedExtensions cf, P e := by
  rw [lintExtensionsOf_eq]
  exact forall_congr' fun e => by rw [(firstOccurrences_dedup _).mem]

lemma firstFailing_lintExtensionsOf {cf : ConfigFile} {e : String} :
    FirstFailing ProperExtension (lintExtensionsOf cf) e ↔
      FirstFailing ProperExtension (searchedExtensions cf) e := by
  rw [firstFailing_iff, firstFailing_iff, lintExtensionsOf_eq, find?_dedup]

section Bind

variable {ε α : Type} {x : Except ε Unit} {f : Unit → Except ε α}

lemma bind_eq_ok_iff {a : α} : (x >>= f) = .ok a ↔ x = .ok () ∧ f () = .ok a := by
  cases x with
  | error e => simp [bind, Except.bind]
  | ok u => simp [bind, Except.bind]

lemma bind_eq_error_iff {e : ε} :
    (x >>= f) = .error e ↔ x = .error e ∨ (x = .ok () ∧ f () = .error e) := by
  cases x with
  | error e' => simp [bind, Except.bind]
  | ok u => simp [bind, Except.bind]

end Bind

lemma checkFile_eq_ok_iff {cf : ConfigFile} {rootAlias origin : String} :
    checkFile cf rootAlias origin = .ok () ↔ ProperTexts cf rootAlias := by
  simp only [checkFile_eq, bind_eq_ok_iff, checkAlias_eq_ok_iff, checkExtensions_eq_ok_iff,
    checkSupported_eq_ok_iff, forall_mem_lintExtensionsOf]
  exact ⟨fun ⟨h₁, h₂, h₃, h₄⟩ => ⟨h₁, h₂, h₃, h₄⟩, fun ⟨h₁, h₂, h₃, h₄⟩ => ⟨h₁, h₂, h₃, h₄⟩⟩

lemma checkFile_eq_error_iff {cf : ConfigFile} {rootAlias origin : String} {e : ConfigError} :
    checkFile cf rootAlias origin = .error e ↔ TextDefect cf rootAlias origin e := by
  simp only [checkFile_eq, bind_eq_error_iff, checkAlias_eq_ok_iff, checkAlias_eq_error_iff,
    checkExtensions_eq_ok_iff, checkExtensions_eq_error_iff, checkSupported_eq_error_iff,
    forall_mem_lintExtensionsOf, firstFailing_lintExtensionsOf]
  constructor
  · rintro ((⟨hempty, rfl⟩ | ⟨hne, hbad, rfl⟩) | ⟨halias, ⟨x, hx, rfl⟩ | ⟨hext, ⟨x, hx, rfl⟩ |
      ⟨hlint, es, hes, hne, rfl⟩⟩⟩)
    · exact .emptyAlias hempty
    · exact .badAlias hne hbad
    · exact .extension halias hx
    · exact .lintExtension halias hext hx
    · exact .unsupported halias hext hlint hes hne
  · intro h
    cases h with
    | emptyAlias hempty => exact .inl (.inl ⟨hempty, rfl⟩)
    | badAlias hne hbad => exact .inl (.inr ⟨hne, hbad, rfl⟩)
    | extension halias hx => exact .inr ⟨halias, .inl ⟨_, hx, rfl⟩⟩
    | lintExtension halias hext hx => exact .inr ⟨halias, .inr ⟨hext, .inl ⟨_, hx, rfl⟩⟩⟩
    | unsupported halias hext hlint hes hne =>
      exact .inr ⟨halias, .inr ⟨hext, .inr ⟨hlint, _, hes, hne, rfl⟩⟩⟩

end Config

end EntryLint
