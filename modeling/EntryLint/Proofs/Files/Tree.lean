import EntryLint.Files.Tree
import EntryLint.Proofs.Files.Path

/-!
# Well-formed file trees

`descend` goes down a tree by names. In a well-formed tree, where the entries of a directory have
distinct proper names, looking up any path is the same as going down by its resolved parts
(`descend_of_find?`), and sorting the entries of directories moves nothing (`descend_sorted`).
-/

namespace EntryLint.FileTree

/-- Induction on trees: a directory has what all its entries have. -/
theorem induction {P : FileTree → Prop} (file : ∀ bytes, P (.file bytes))
    (dir : ∀ entries, (∀ e ∈ entries, P e.2) → P (.dir entries)) : ∀ t, P t
  | .file bytes => file bytes
  | .dir entries => dir entries fun e _he => induction file dir e.2
termination_by t => sizeOf t
decreasing_by
  have hlt := List.sizeOf_lt_of_mem _he
  have hsnd : sizeOf e.2 < sizeOf e := by
    obtain ⟨name, t⟩ := e
    show sizeOf t < sizeOf (name, t)
    rw [Prod.mk.sizeOf_spec]
    omega
  rw [FileTree.dir.sizeOf_spec]
  omega

/-- The entries of every directory have distinct proper names. -/
inductive WellFormed : FileTree → Prop
  | file (bytes : List UInt8) : WellFormed (.file bytes)
  | dir {entries : List (String × FileTree)} (names : ∀ e ∈ entries, IsFileName e.1)
      (distinct : (entries.map Prod.fst).Nodup) (below : ∀ e ∈ entries, WellFormed e.2) :
      WellFormed (.dir entries)

mutual

/-- Whether a tree is well-formed. -/
def isWellFormed : FileTree → Bool
  | file _ => true
  | dir entries => decide (entries.map Prod.fst).Nodup && areWellFormed entries

/-- Whether entries have proper names and well-formed trees. -/
def areWellFormed : List (String × FileTree) → Bool
  | [] => true
  | (name, t) :: rest => decide (IsFileName name) && isWellFormed t && areWellFormed rest

end

lemma areWellFormed_iff {entries : List (String × FileTree)} :
    areWellFormed entries = true ↔
      ∀ e ∈ entries, IsFileName e.1 ∧ e.2.isWellFormed = true := by
  induction entries with
  | nil => simp [areWellFormed]
  | cons e entries ih =>
    rw [areWellFormed, Bool.and_eq_true, Bool.and_eq_true, decide_eq_true_eq, ih,
      List.forall_mem_cons]

lemma isWellFormed_iff {t : FileTree} : t.isWellFormed = true ↔ t.WellFormed := by
  induction t using FileTree.induction with
  | file bytes => exact ⟨fun _ => .file bytes, fun _ => by rw [isWellFormed]⟩
  | dir entries ih =>
    rw [isWellFormed, Bool.and_eq_true, decide_eq_true_eq, areWellFormed_iff]
    constructor
    · rintro ⟨hdistinct, hentries⟩
      exact .dir (fun e he => (hentries e he).1) hdistinct
        fun e he => (ih e he).mp (hentries e he).2
    · rintro ⟨⟩
      rename_i hnames hdistinct hbelow
      exact ⟨hdistinct, fun e he => ⟨hnames e he, (ih e he).mpr (hbelow e he)⟩⟩

instance (t : FileTree) : Decidable t.WellFormed :=
  decidable_of_iff _ isWellFormed_iff

/-- What stands at the end of a way down through named entries. -/
def descend : FileTree → List String → Option FileTree
  | t, [] => some t
  | file _, _ :: _ => none
  | dir entries, name :: names => (lookup? entries name).bind fun t => descend t names

/-! ## Looking up entries -/

lemma mem_of_lookup? {entries : List (String × FileTree)} {name : String} {t : FileTree}
    (h : lookup? entries name = some t) : (name, t) ∈ entries := by
  rw [lookup?, Option.map_eq_some_iff] at h
  obtain ⟨⟨n, t'⟩, hfind, rfl⟩ := h
  have hname : n = name := by simpa using List.find?_some hfind
  rw [← hname]
  exact List.mem_of_find?_eq_some hfind

/-- With distinct names, an entry is found under its name. -/
lemma lookup?_of_mem {entries : List (String × FileTree)} (hd : (entries.map Prod.fst).Nodup)
    {name : String} {t : FileTree} (h : (name, t) ∈ entries) : lookup? entries name = some t := by
  induction entries with
  | nil => exact absurd h List.not_mem_nil
  | cons e entries ih =>
    rw [List.map_cons, List.nodup_cons] at hd
    rcases List.mem_cons.mp h with rfl | h
    · simp [lookup?]
    · have hne : e.1 ≠ name := by
        rintro rfl
        exact hd.1 (List.mem_map.mpr ⟨_, h, rfl⟩)
      have hskip : lookup? (e :: entries) name = lookup? entries name := by
        simp [lookup?, hne]
      rw [hskip]
      exact ih hd.2 h

lemma lookup?_eq_some_iff {entries : List (String × FileTree)}
    (hd : (entries.map Prod.fst).Nodup) {name : String} {t : FileTree} :
    lookup? entries name = some t ↔ (name, t) ∈ entries :=
  ⟨mem_of_lookup?, lookup?_of_mem hd⟩

/-! ## Going down -/

@[simp] lemma descend_nil (t : FileTree) : t.descend [] = some t := by
  cases t <;> rfl

lemma descend_append (t : FileTree) (names rest : List String) :
    t.descend (names ++ rest) = (t.descend names).bind fun t' => t'.descend rest := by
  induction names generalizing t with
  | nil => simp
  | cons name names ih =>
    cases t with
    | file bytes => rfl
    | dir entries =>
      rw [List.cons_append, descend, descend]
      cases lookup? entries name with
      | none => rfl
      | some t' => exact ih t'

lemma descend_cons_eq_some {t t' : FileTree} {name : String} {names : List String}
    (h : t.descend (name :: names) = some t') :
    ∃ entries next, t = .dir entries ∧ lookup? entries name = some next ∧
      next.descend names = some t' := by
  cases t with
  | file bytes => exact absurd h (by simp [descend])
  | dir entries =>
    rw [descend, Option.bind_eq_some_iff] at h
    obtain ⟨next, hnext, hrest⟩ := h
    exact ⟨entries, next, rfl, hnext, hrest⟩

namespace WellFormed

lemma names {entries : List (String × FileTree)} (h : WellFormed (.dir entries)) :
    ∀ e ∈ entries, IsFileName e.1 := by
  cases h
  assumption

lemma distinct {entries : List (String × FileTree)} (h : WellFormed (.dir entries)) :
    (entries.map Prod.fst).Nodup := by
  cases h
  assumption

lemma of_mem {entries : List (String × FileTree)} (h : WellFormed (.dir entries)) :
    ∀ e ∈ entries, WellFormed e.2 := by
  cases h
  assumption

/-- Going down a well-formed tree leads to well-formed trees, by proper names. -/
lemma descend {t t' : FileTree} (ht : WellFormed t) {names : List String}
    (h : t.descend names = some t') : WellFormed t' ∧ ∀ n ∈ names, IsFileName n := by
  induction names generalizing t with
  | nil =>
    rw [descend_nil, Option.some_inj] at h
    exact ⟨h ▸ ht, by simp⟩
  | cons name names ih =>
    obtain ⟨entries, next, rfl, hlookup, hrest⟩ := descend_cons_eq_some h
    have hmem := mem_of_lookup? hlookup
    obtain ⟨hwf, hnames⟩ := ih (ht.of_mem _ hmem) hrest
    refine ⟨hwf, ?_⟩
    intro n hn
    rcases List.mem_cons.mp hn with rfl | hn
    · exact ht.names _ hmem
    · exact hnames n hn

end WellFormed

/-! ## Paths with dots -/

lemma follow_dir_cons (above : List FileTree) (entries : List (String × FileTree)) (part : String)
    (parts : List String) :
    follow above (.dir entries) (part :: parts) =
      if part = ".." then
        match above with
        | [] => follow [] (.dir entries) parts
        | up :: rest => follow rest up parts
      else
        match lookup? entries part with
        | some t => follow (.dir entries :: above) t parts
        | none => none := rfl

/-- `Trail tree done above here`: going down by `done` leads to `here`, past the directories
`above`, the last one first. -/
inductive Trail (tree : FileTree) : List String → List FileTree → FileTree → Prop
  | top : Trail tree [] [] tree
  | down {done : List String} {above : List FileTree} {entries : List (String × FileTree)}
      {name : String} {t : FileTree} (trail : Trail tree done above (.dir entries))
      (found : lookup? entries name = some t) :
      Trail tree (done ++ [name]) (.dir entries :: above) t

lemma Trail.descend_eq {tree here : FileTree} {done : List String} {above : List FileTree}
    (h : Trail tree done above here) : tree.descend done = some here := by
  induction h with
  | top => simp
  | down _ found ih => simp [descend_append, ih, descend, found]

/-- Following parts keeps a trail, and the way down that it keeps is the resolved one. -/
lemma Trail.follow {tree t : FileTree} (parts : List String) :
    ∀ {here : FileTree} {done : List String} {above : List FileTree},
      Trail tree done above here → FileTree.follow above here parts = some t →
      ∃ above', Trail tree (parts.foldl Path.resolveStep done) above' t := by
  induction parts with
  | nil =>
    intro here done above htrail hfollow
    rw [FileTree.follow, Option.some_inj] at hfollow
    exact ⟨above, hfollow ▸ htrail⟩
  | cons part parts ih =>
    intro here done above htrail hfollow
    cases here with
    | file bytes => exact absurd hfollow (by simp [FileTree.follow])
    | dir entries =>
      rw [follow_dir_cons] at hfollow
      rw [List.foldl_cons, Path.resolveStep]
      by_cases hpart : part = ".."
      · rw [if_pos hpart] at hfollow ⊢
        -- a step up goes back along the trail; above the top there is nothing
        cases htrail with
        | top => exact ih Trail.top hfollow
        | down trail found =>
          rw [List.dropLast_concat]
          exact ih trail hfollow
      · rw [if_neg hpart] at hfollow ⊢
        cases hlookup : lookup? entries part with
        | none => rw [hlookup] at hfollow; exact absurd hfollow (by simp)
        | some next =>
          rw [hlookup] at hfollow
          exact ih (Trail.down htrail hlookup) hfollow

/-- What stands at a path is reached by going down its resolved parts. -/
lemma descend_of_find? {tree t : FileTree} {p : Path} (h : tree.find? p = some t) :
    tree.descend p.resolve.parts = some t := by
  obtain ⟨above, htrail⟩ := Trail.follow p.parts Trail.top h
  exact htrail.descend_eq

/-- Without dots, following parts is going down. -/
lemma follow_eq_descend {parts : List String} (h : ".." ∉ parts) :
    ∀ (above : List FileTree) (t : FileTree), FileTree.follow above t parts = t.descend parts := by
  induction parts with
  | nil => intro above t; rw [FileTree.follow, descend_nil]
  | cons part parts ih =>
    intro above t
    rw [List.mem_cons, not_or] at h
    cases t with
    | file bytes => rfl
    | dir entries =>
      rw [follow_dir_cons, if_neg (Ne.symm h.1), descend]
      cases lookup? entries part with
      | none => rfl
      | some next => exact ih h.2 _ next

lemma find?_eq_descend {tree : FileTree} {p : Path} (h : ".." ∉ p.parts) :
    tree.find? p = tree.descend p.parts :=
  follow_eq_descend h [] tree

lemma read_eq_ok_iff {tree : FileTree} {p : Path} {bytes : List UInt8} :
    tree.read p = .ok bytes ↔ tree.find? p = some (.file bytes) := by
  rw [read]
  split
  · rename_i bytes' hfind
    rw [hfind]
    simp
  · rename_i entries hfind
    rw [hfind]
    simp
  · rename_i hfind
    rw [hfind]
    simp

/-! ## All files of a tree -/

mutual

/-- Whether the bytes of every file of a tree pass a test. -/
def everyFile (p : List UInt8 → Bool) : FileTree → Bool
  | file bytes => p bytes
  | dir entries => everyEntry p entries

/-- Whether the bytes of every file below some entries pass a test. -/
def everyEntry (p : List UInt8 → Bool) : List (String × FileTree) → Bool
  | [] => true
  | (_, t) :: rest => everyFile p t && everyEntry p rest

end

lemma everyEntry_iff {p : List UInt8 → Bool} {entries : List (String × FileTree)} :
    everyEntry p entries = true ↔ ∀ e ∈ entries, e.2.everyFile p = true := by
  induction entries with
  | nil => simp [everyEntry]
  | cons e entries ih => rw [everyEntry, Bool.and_eq_true, ih, List.forall_mem_cons]

/-- The way down to a file leads to bytes that pass. -/
lemma everyFile_of_descend {p : List UInt8 → Bool} {t : FileTree} {names : List String}
    {bytes : List UInt8} (h : t.everyFile p = true) (hfile : t.descend names = some (.file bytes)) :
    p bytes = true := by
  induction names generalizing t with
  | nil =>
    rw [descend_nil, Option.some_inj] at hfile
    rwa [hfile, everyFile] at h
  | cons name names ih =>
    obtain ⟨entries, next, rfl, hlookup, hnext⟩ := descend_cons_eq_some hfile
    rw [everyFile, everyEntry_iff] at h
    exact ih (h _ (mem_of_lookup? hlookup)) hnext

/-! ## Sorted trees -/

lemma sortedEntries_eq_map (entries : List (String × FileTree)) :
    sortedEntries entries = entries.map fun e => (e.1, e.2.sorted) := by
  induction entries with
  | nil => rfl
  | cons e entries ih => rw [sortedEntries, ih]; rfl

lemma sorted_dir_perm (entries : List (String × FileTree)) :
    ∃ es, (FileTree.dir entries).sorted = .dir es ∧
      es.Perm (entries.map fun e => (e.1, e.2.sorted)) := by
  refine ⟨_, rfl, ?_⟩
  rw [sortedEntries_eq_map]
  exact List.mergeSort_perm _ _

lemma WellFormed.sorted {t : FileTree} (h : WellFormed t) : WellFormed t.sorted := by
  induction t using FileTree.induction with
  | file bytes => rw [FileTree.sorted]; exact h
  | dir entries ih =>
    obtain ⟨es, hes, hperm⟩ := sorted_dir_perm entries
    rw [hes]
    refine .dir ?_ ?_ ?_
    · intro e he
      obtain ⟨e', he', rfl⟩ := List.mem_map.mp (hperm.mem_iff.mp he)
      exact h.names e' he'
    · have hnames : (es.map Prod.fst).Perm (entries.map Prod.fst) := by
        have := hperm.map Prod.fst
        rwa [List.map_map] at this
      exact hnames.nodup_iff.mpr h.distinct
    · intro e he
      obtain ⟨e', he', rfl⟩ := List.mem_map.mp (hperm.mem_iff.mp he)
      exact ih e' he' (h.of_mem e' he')

/-- Sorting the entries of directories moves nothing to another path. -/
lemma descend_sorted {t : FileTree} (h : WellFormed t) (names : List String) :
    t.sorted.descend names = (t.descend names).map FileTree.sorted := by
  induction names generalizing t with
  | nil => simp
  | cons name names ih =>
    cases t with
    | file bytes => rfl
    | dir entries =>
      obtain ⟨es, hes, hperm⟩ := sorted_dir_perm entries
      have hsorted := h.sorted
      rw [hes] at hsorted
      have hlookup : lookup? es name = (lookup? entries name).map FileTree.sorted := by
        ext t'
        rw [lookup?_eq_some_iff hsorted.distinct, hperm.mem_iff, List.mem_map,
          Option.map_eq_some_iff]
        constructor
        · rintro ⟨e, he, heq⟩
          obtain ⟨rfl, rfl⟩ := Prod.mk.inj heq
          exact ⟨e.2, lookup?_of_mem h.distinct he, rfl⟩
        · rintro ⟨t, ht, rfl⟩
          exact ⟨(name, t), mem_of_lookup? ht, rfl⟩
      rw [hes, descend, descend, hlookup]
      cases hl : lookup? entries name with
      | none => rfl
      | some next => exact ih (h.of_mem _ (mem_of_lookup? hl))

end EntryLint.FileTree
