import EntryLint.Proofs.Check.Lines
import Mathlib.Data.List.Nodup
import Mathlib.Data.Prod.Lex
import Mathlib.Data.String.Basic

/-!
# The layout of a report

A text shows the diagnostics of a report file by file, whatever their order in the report is. That
every file has one heading rests on sorting first: only neighbours are put together. The main result
is `text_layout`: the files are in order, each with all of its diagnostics by their places, and
those at the same place as in the report. So the order in the report does not show unless two places
are the same.
-/

namespace EntryLint

namespace Diagnostic

/-- Where a diagnostic stands among those of its file: line, column and rule, in this order. -/
def place (d : Diagnostic) : ℤ ×ₗ ℤ ×ₗ String :=
  toLex (d.span.line, toLex (d.span.column, d.ruleId))

/-- Where a diagnostic stands in a text. -/
def key (d : Diagnostic) : String ×ₗ ℤ ×ₗ ℤ ×ₗ String :=
  toLex (d.file, d.place)

variable {a b : Diagnostic}

lemma before_iff_key_lt : a.before b = true ↔ a.key < b.key := by
  rw [before_iff, key, key, Prod.Lex.toLex_lt_toLex, place, place, Prod.Lex.toLex_lt_toLex,
    Prod.Lex.toLex_lt_toLex, Span.StartsBefore]
  simp only
  tauto

lemma not_before_iff_key_le : (!b.before a) = true ↔ a.key ≤ b.key := by
  rw [Bool.not_eq_true', ← Bool.not_eq_true, before_iff_key_lt, not_lt]

lemma file_le_of_key_le (h : a.key ≤ b.key) : a.file ≤ b.file := by
  rw [key, key, Prod.Lex.toLex_le_toLex] at h
  rcases h with hlt | ⟨heq, -⟩
  · exact hlt.le
  · exact heq.le

lemma place_le_of_key_le (h : a.key ≤ b.key) (hfile : a.file = b.file) : a.place ≤ b.place := by
  rw [key, key, Prod.Lex.toLex_le_toLex] at h
  rcases h with hlt | ⟨-, hle⟩
  · exact absurd hfile hlt.ne
  · exact hle

/-! ## Sorting -/

lemma notBefore_trans (a b c : Diagnostic) (hab : (!b.before a) = true)
    (hbc : (!c.before b) = true) :
    (!c.before a) = true := by
  rw [not_before_iff_key_le] at hab hbc ⊢
  exact hab.trans hbc

lemma notBefore_total (a b : Diagnostic) : (!b.before a || !a.before b) = true := by
  rw [Bool.or_eq_true, not_before_iff_key_le, not_before_iff_key_le]
  exact le_total _ _

lemma pairwise_sorted (ds : List Diagnostic) : (sorted ds).Pairwise fun a b => a.key ≤ b.key :=
  (List.pairwise_mergeSort notBefore_trans notBefore_total ds).imp not_before_iff_key_le.mp

/-- Sorting moves no two diagnostics with the same key past each other. -/
lemma filter_sorted (ds : List Diagnostic) {p : Diagnostic → Bool}
    (h : ∀ a b, p a = true → p b = true → a.key = b.key) :
    (sorted ds).filter p = ds.filter p := by
  have hpairwise : (ds.filter p).Pairwise fun a b => (!b.before a) = true := by
    apply List.pairwise_of_forall_mem_list
    intro a ha b hb
    rw [not_before_iff_key_le]
    exact (h a b (List.mem_filter.mp ha).2 (List.mem_filter.mp hb).2).le
  have hsublist : (ds.filter p).Sublist (sorted ds) :=
    List.sublist_mergeSort notBefore_trans notBefore_total hpairwise List.filter_sublist
  have hfilter := hsublist.filter p
  rw [List.filter_filter] at hfilter
  simp only [Bool.and_self] at hfilter
  -- sorting loses nothing, so the part is as long as the whole
  exact (hfilter.eq_of_length ((sorted_perm ds).filter p).length_eq.symm).symm

/-- Diagnostics with different keys are sorted in one way only. -/
lemma sorted_eq_of_perm {ds ds' : List Diagnostic} (hperm : ds'.Perm ds)
    (hkeys : (ds.map key).Nodup) : sorted ds' = sorted ds := by
  have hsame : (sorted ds').Perm (sorted ds) :=
    ((sorted_perm ds').trans hperm).trans (sorted_perm ds).symm
  apply hsame.eq_of_pairwise _ (pairwise_sorted ds') (pairwise_sorted ds)
  intro a b ha hb hab hba
  have ha' : a ∈ ds := hperm.mem_iff.mp ((sorted_perm ds').mem_iff.mp ha)
  have hb' : b ∈ ds := (sorted_perm ds).mem_iff.mp hb
  exact List.inj_on_of_nodup_map hkeys ha' hb' (hab.antisymm hba)

/-! ## Grouping -/

/-- The file that a group of diagnostics is headed by. -/
def heading (g : List Diagnostic) : String :=
  (g.head?.map file).getD ""

variable {ds g : List Diagnostic}

lemma file_eq_heading (h : g ∈ ds.splitBy fun a b => a.file = b.file) :
    ∀ d ∈ g, d.file = heading g := by
  obtain ⟨f, hf⟩ := exists_file_of_mem_splitBy h
  cases g with
  | nil => exact fun d hd => absurd hd List.not_mem_nil
  | cons first g =>
    intro d hd
    exact (hf d hd).trans (hf first List.mem_cons_self).symm

/-- Where the files of diagnostics increase, those of the groups increase strictly. -/
lemma increasing_headings (h : ds.Pairwise fun a b => a.file ≤ b.file) :
    ((ds.splitBy fun a b => a.file = b.file).map heading).Pairwise (· < ·) := by
  have hflatten := h
  rw [← List.flatten_splitBy (fun a b => a.file = b.file) ds, List.pairwise_flatten] at hflatten
  have hle : (ds.splitBy fun a b => a.file = b.file).Pairwise fun g g' =>
      heading g ≤ heading g' := by
    refine (List.Pairwise.and_mem.mp hflatten.2).imp ?_
    rintro g g' ⟨hg, hg', hle⟩
    obtain ⟨d, hd⟩ := List.exists_mem_of_ne_nil g (List.ne_nil_of_mem_splitBy hg)
    obtain ⟨d', hd'⟩ := List.exists_mem_of_ne_nil g' (List.ne_nil_of_mem_splitBy hg')
    rw [← file_eq_heading hg d hd, ← file_eq_heading hg' d' hd']
    exact hle d hd d' hd'
  have hne : (ds.splitBy fun a b => a.file = b.file).IsChain fun g g' =>
      heading g ≠ heading g' := by
    refine List.IsChain.imp_of_mem_imp ?_ (List.isChain_getLast_head_splitBy _ ds)
    rintro g g' hg hg' ⟨hnil, hnil', hdiffer⟩
    rw [← file_eq_heading hg _ (List.getLast_mem hnil),
      ← file_eq_heading hg' _ (List.head_mem hnil')]
    exact of_decide_eq_false hdiffer
  -- neighbours differ and nothing decreases
  have hlt : ((ds.splitBy fun a b => a.file = b.file).map heading).IsChain (· < ·) := by
    rw [List.isChain_map, List.isChain_iff_getElem]
    intro i hi
    exact lt_of_le_of_ne (List.pairwise_iff_getElem.mp hle i (i + 1) (by omega) hi (by omega))
      (List.isChain_iff_getElem.mp hne i hi)
  exact hlt.pairwise

/-- A group holds all diagnostics of its file, in their order. -/
lemma filter_heading (h : ds.Pairwise fun a b => a.file ≤ b.file)
    (hg : g ∈ ds.splitBy fun a b => a.file = b.file) :
    (ds.filter fun d => d.file = heading g) = g := by
  obtain ⟨front, back, hsplit⟩ := List.append_of_mem hg
  have hincreasing := increasing_headings h
  rw [hsplit, List.map_append, List.map_cons, List.pairwise_append,
    List.pairwise_cons] at hincreasing
  obtain ⟨-, ⟨hback, -⟩, hfront⟩ := hincreasing
  -- the files of the other groups are less or greater
  have hnone : ∀ groups : List (List Diagnostic),
      (∀ g' ∈ groups, g' ∈ (ds.splitBy fun a b => a.file = b.file) ∧ heading g' ≠ heading g) →
      (groups.flatten.filter fun d => d.file = heading g) = [] := by
    intro groups hgroups
    rw [List.filter_eq_nil_iff]
    intro d hd
    obtain ⟨g', hg', hdg'⟩ := List.mem_flatten.mp hd
    obtain ⟨hmem, hne⟩ := hgroups g' hg'
    rw [file_eq_heading hmem d hdg', decide_eq_true_eq]
    exact hne
  have hall : (g.filter fun d => d.file = heading g) = g := by
    rw [List.filter_eq_self]
    exact fun d hd => decide_eq_true (file_eq_heading hg d hd)
  calc (ds.filter fun d => d.file = heading g)
      = ((front ++ g :: back).flatten.filter fun d => d.file = heading g) := by
        rw [← hsplit, List.flatten_splitBy]
    _ = g := by
        rw [List.flatten_append, List.flatten_cons, List.filter_append, List.filter_append, hall,
          hnone front, hnone back, List.nil_append, List.append_nil]
        · intro g' hg'
          refine ⟨?_, (hback _ (List.mem_map_of_mem hg')).ne'⟩
          rw [hsplit]
          exact List.mem_append_right _ (List.mem_cons_of_mem _ hg')
        · intro g' hg'
          refine ⟨?_, (hfront _ (List.mem_map_of_mem hg') _ List.mem_cons_self).ne⟩
          rw [hsplit]
          exact List.mem_append_left _ hg'

/-- Diagnostics in the order of their files are split into one group for each file. -/
lemma exists_files (h : ds.Pairwise fun a b => a.file ≤ b.file) :
    ∃ files : List String, files.Pairwise (· < ·) ∧ (∀ f, f ∈ files ↔ ∃ d ∈ ds, d.file = f) ∧
      (ds.splitBy fun a b => a.file = b.file) =
        files.map fun f => ds.filter fun d => d.file = f := by
  refine ⟨_, increasing_headings h, fun f => ?_, ?_⟩
  · rw [List.mem_map]
    constructor
    · rintro ⟨g, hg, rfl⟩
      obtain ⟨d, hd⟩ := List.exists_mem_of_ne_nil g (List.ne_nil_of_mem_splitBy hg)
      refine ⟨d, ?_, file_eq_heading hg d hd⟩
      rw [← List.flatten_splitBy (fun a b => a.file = b.file) ds]
      exact List.mem_flatten.mpr ⟨g, hg, hd⟩
    · rintro ⟨d, hd, rfl⟩
      rw [← List.flatten_splitBy (fun a b => a.file = b.file) ds] at hd
      obtain ⟨g, hg, hdg⟩ := List.mem_flatten.mp hd
      exact ⟨g, hg, (file_eq_heading hg d hdg).symm⟩
  · rw [List.map_map]
    conv_lhs => rw [← List.map_id (ds.splitBy fun a b => a.file = b.file)]
    exact List.map_congr_left fun g hg => (filter_heading h hg).symm

end Diagnostic

/-! ## The text -/

namespace CheckReport

/-- `ds` are the diagnostics of a report about a file, each of them once: by their places, and those
at one place as in the report. -/
structure Lists (r : CheckReport) (f : String) (ds : List Diagnostic) : Prop where
  perm : ds.Perm (r.diagnostics.filter fun d => d.file = f)
  ordered : ds.Pairwise fun a b => a.place ≤ b.place
  stable : ∀ p, (ds.filter fun d => d.place = p) =
    r.diagnostics.filter fun d => d.file = f && d.place = p

/-- The lines about a file: its name, its diagnostics and an empty line. -/
def sectionOf (listed : String → List Diagnostic) (f : String) : List ReportLine :=
  .file f :: ((listed f).map .entry ++ [.blank])

/-- Lines show the diagnostics of a report: the files in increasing order, each of them once and
with all of its diagnostics. -/
def LaysOut (r : CheckReport) (lines : List ReportLine) : Prop :=
  ∃ (files : List String) (listed : String → List Diagnostic), files.Pairwise (· < ·) ∧
    (∀ f, f ∈ files ↔ ∃ d ∈ r.diagnostics, d.file = f) ∧ (∀ f, r.Lists f (listed f)) ∧
    lines = files.flatMap (sectionOf listed)

lemma lists_sorted (r : CheckReport) (f : String) :
    r.Lists f ((Diagnostic.sorted r.diagnostics).filter fun d => d.file = f) where
  perm := (Diagnostic.sorted_perm r.diagnostics).filter _
  ordered := by
    have hfilter := (Diagnostic.pairwise_sorted r.diagnostics).sublist
      (List.filter_sublist (p := fun d => d.file = f))
    refine (List.Pairwise.and_mem.mp hfilter).imp ?_
    rintro a b ⟨ha, hb, hle⟩
    refine Diagnostic.place_le_of_key_le hle ?_
    rw [of_decide_eq_true (List.mem_filter.mp ha).2, of_decide_eq_true (List.mem_filter.mp hb).2]
  stable := by
    intro p
    rw [List.filter_filter, ← Diagnostic.filter_sorted r.diagnostics]
    · congr 1
      funext d
      exact Bool.and_comm _ _
    · intro a b ha hb
      rw [Bool.and_eq_true, decide_eq_true_eq, decide_eq_true_eq] at ha hb
      rw [Diagnostic.key, Diagnostic.key, ha.1, ha.2, hb.1, hb.2]

lemma laysOut_diagnosticBlock (r : CheckReport) : r.LaysOut r.diagnosticBlock := by
  have hfiles : (Diagnostic.sorted r.diagnostics).Pairwise fun a b => a.file ≤ b.file :=
    (Diagnostic.pairwise_sorted r.diagnostics).imp Diagnostic.file_le_of_key_le
  obtain ⟨files, hincreasing, hmem, hgroups⟩ := Diagnostic.exists_files hfiles
  have hmem' : ∀ f, f ∈ files ↔ ∃ d ∈ r.diagnostics, d.file = f := by
    intro f
    simp only [hmem, (Diagnostic.sorted_perm r.diagnostics).mem_iff]
  refine ⟨files, _, hincreasing, hmem', r.lists_sorted, ?_⟩
  rw [diagnosticBlock, hgroups, List.flatMap_map]
  refine List.flatMap_congr fun f hf => ?_
  -- the name above a group is the file it was taken for
  obtain ⟨d, hd, hfile⟩ := (hmem f).mp hf
  have hin : d ∈ (Diagnostic.sorted r.diagnostics).filter fun d => d.file = f :=
    List.mem_filter.mpr ⟨hd, decide_eq_true hfile⟩
  obtain ⟨first, rest, hgroup⟩ := List.exists_cons_of_ne_nil (List.ne_nil_of_mem hin)
  have hfirst : first.file = f := by
    have hhead : first ∈ (Diagnostic.sorted r.diagnostics).filter fun d => d.file = f := by
      rw [hgroup]
      exact List.mem_cons_self
    exact of_decide_eq_true (List.mem_filter.mp hhead).2
  rw [sectionOf, hgroup, fileBlock, List.head?_cons, Option.map_some, hfirst]
  rfl

lemma text_eq_of_perm {r : CheckReport} {ds : List Diagnostic} (hperm : ds.Perm r.diagnostics)
    (hkeys : (r.diagnostics.map Diagnostic.key).Nodup) :
    ({ r with diagnostics := ds } : CheckReport).text = r.text := by
  rw [text, text, diagnosticLines, diagnosticLines, Diagnostic.sorted_eq_of_perm hperm hkeys]
  rfl

/-- A text shows the diagnostics of a report file by file, then what was skipped, then the counts.
It does not depend on the order of the diagnostics if they have different keys. -/
theorem text_layout :
    (∀ r : CheckReport, ∃ lines, r.LaysOut lines ∧
      r.text = ReportLine.render (lines ++ r.skippedBlock ++ r.summaryBlock)) ∧
    ∀ (r : CheckReport) (ds : List Diagnostic), ds.Perm r.diagnostics →
      (r.diagnostics.map Diagnostic.key).Nodup →
      ({ r with diagnostics := ds } : CheckReport).text = r.text := by
  refine ⟨fun r => ⟨_, r.laysOut_diagnosticBlock, text_eq_render r⟩, ?_⟩
  exact fun r ds hperm hkeys => text_eq_of_perm hperm hkeys

/-- A diagnostic at the start of a line. -/
def sampleDiagnostic (file : String) (line : Int) (ruleId : String) : Diagnostic where
  file := file
  span := { line }
  ruleId := ruleId
  messageId := "invalidParentImport"
  message := ""
  severity := .warn
  importPath := ".."

/-- Three diagnostics, the first and the last one about the same line of a file. -/
def sampleReport : CheckReport where
  warningCount := 3
  diagnostics := [sampleDiagnostic "b.ts" 10 "r", sampleDiagnostic "a.ts" 2 "r",
    sampleDiagnostic "b.ts" 10 "q"]

theorem text_layout_sample :
    sampleReport.diagnostics.reverse.Perm sampleReport.diagnostics ∧
    (sampleReport.diagnostics.map Diagnostic.key).Nodup ∧
    ({ sampleReport with diagnostics := sampleReport.diagnostics.reverse } : CheckReport).text =
      sampleReport.text := by
  have hperm : sampleReport.diagnostics.reverse.Perm sampleReport.diagnostics :=
    List.reverse_perm _
  have hkeys : (sampleReport.diagnostics.map Diagnostic.key).Nodup := by decide
  exact ⟨hperm, hkeys, text_layout.2 _ _ hperm hkeys⟩

end CheckReport

end EntryLint
