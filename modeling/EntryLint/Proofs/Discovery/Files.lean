import EntryLint.Proofs.Discovery.Walk
import EntryLint.Proofs.SortedNames

/-!
# The files of some targets

`Finds` says file by file what a target stands for: the file that it names, or every file that a
walk from it reaches. `TargetFails` says why it may stand for nothing. The main result is
`files_eq_found`: where all patterns can be read and all targets exist inside the root, the files of
the targets are exactly those, in increasing order.
-/

namespace EntryLint

/-- A file system with the resolved path of a directory in it as the root of a project. -/
structure IsProject (tree : FileTree) (root : Path) : Prop where
  wellFormed : tree.WellFormed
  resolved : root.resolve = root
  isDir : tree.isDir root = true

/-- The library raises no exception on the patterns of a configuration, nor on those of the ignore
files if it asks for them. -/
structure HasPatterns (lib : PatternLibrary) (tree : FileTree) (root : Path) (cfg : LintConfig) :
    Prop where
  exclude : cfg.exclude ≠ [] → ∃ selection, lib.select cfg.exclude = .ok selection
  ignore : cfg.gitignore = true → Ignore.Readable lib tree root

/-- A target stands at `parts` below the root, and `node` is what is there. -/
structure Locates (tree : FileTree) (root target : Path) (parts : List String) (node : FileTree) :
    Prop where
  found : tree.find? (root.under target) = some node
  inside : root.below? (root.under target).resolve = some parts

/-- A target exists inside the root. -/
def IsTarget (tree : FileTree) (root target : Path) : Prop :=
  ∃ parts node, Locates tree root target parts node

lemma IsProject.descend_root {tree : FileTree} {root : Path} (h : IsProject tree root) :
    ∃ entries, tree.descend root.parts = some (.dir entries) := by
  have hdir := h.isDir
  rw [FileTree.isDir] at hdir
  split at hdir
  · rename_i entries hfind
    have hdescend := FileTree.descend_of_find? hfind
    rw [h.resolved] at hdescend
    exact ⟨entries, hdescend⟩
  · exact absurd hdir Bool.false_ne_true

/-- The root stands at itself. -/
lemma IsProject.locates_root {tree : FileTree} {root : Path} (h : IsProject tree root) :
    ∃ entries, Locates tree root root [] (.dir entries) := by
  have habsolute : root.isAbsolute = true := by
    rw [← h.resolved]
    rfl
  have hunder : root.under root = root := by
    rw [Path.under, if_pos habsolute]
  obtain ⟨entries, hdescend⟩ := h.descend_root
  refine ⟨entries, ?_, ?_⟩
  · rw [hunder, FileTree.find?_eq_descend, hdescend]
    rw [← h.resolved]
    exact Path.dots_not_mem_resolve root
  · rw [hunder, h.resolved, Path.below?_eq_some_iff, List.append_nil]

/-- The root is always inside itself. -/
lemma IsProject.isTarget_root {tree : FileTree} {root : Path} (h : IsProject tree root) :
    IsTarget tree root root := by
  obtain ⟨entries, hroot⟩ := h.locates_root
  exact ⟨_, _, hroot⟩

namespace Locates

variable {tree : FileTree} {root target : Path} {parts parts' : List String}
  {node node' : FileTree}

lemma unique (h : Locates tree root target parts node)
    (h' : Locates tree root target parts' node') :
    parts = parts' ∧ node = node' := by
  constructor
  · have heq := h.inside.symm.trans h'.inside
    exact Option.some_inj.mp heq
  · have heq := h.found.symm.trans h'.found
    exact Option.some_inj.mp heq

lemma descend (h : Locates tree root target parts node) :
    tree.descend (root.parts ++ parts) = some node := by
  have hdescend := FileTree.descend_of_find? h.found
  rwa [Path.below?_eq_some_iff.mp h.inside] at hdescend

/-- What stands inside the root is well-formed and stands there by proper names. -/
lemma wellFormed (h : Locates tree root target parts node) (htree : tree.WellFormed) :
    node.WellFormed ∧ ∀ n ∈ parts, IsFileName n := by
  obtain ⟨hnode, hnames⟩ := htree.descend h.descend
  exact ⟨hnode, fun n hn => hnames n (List.mem_append_right _ hn)⟩

/-- A file is not the root itself. -/
lemma ne_nil {bytes : List UInt8} (h : Locates tree root target parts (.file bytes))
    (hp : IsProject tree root) : parts ≠ [] := by
  rintro rfl
  obtain ⟨entries, hroot⟩ := hp.descend_root
  have hfile := h.descend
  rw [List.append_nil, hroot] at hfile
  simp at hfile

end Locates

namespace Discovery

variable {lib : PatternLibrary}

/-- The files that a target stands for. -/
inductive Finds (d : Discovery lib) (target : Path) (f : String) : Prop
  /-- A file that is named is found whatever ignore files say. -/
  | named {parts : List String} {bytes : List UInt8}
      (located : Locates d.tree d.root target parts (.file bytes))
      (name : f = Text.join "/" parts)
      (lintable : d.isLintable f = true)
      (not_excluded : d.isExcluded f = false)
  /-- Below a directory, what a walk from it reaches is found. -/
  | below {parts names : List String} {entries : List (String × FileTree)}
      (located : Locates d.tree d.root target parts (.dir entries))
      (name : f = Text.join "/" (parts ++ names))
      (reaches : d.Reaches parts (.dir entries) names)

/-- Why a target stands for no files. -/
inductive TargetFails (d : Discovery lib) (target : Path) : DiscoveryError → Prop
  | missing (none : d.tree.find? (d.root.under target) = none) :
      TargetFails d target (.missingTarget target.text)
  | outside {node : FileTree} (found : d.tree.find? (d.root.under target) = some node)
      (none : d.root.below? (d.root.under target).resolve = none) :
      TargetFails d target (.outsideRoot d.root.text (d.root.under target).text)
  /-- Ignore files have no answer on an entry below a directory. -/
  | stuck {parts : List String} {entries : List (String × FileTree)} {e : Raised}
      (located : Locates d.tree d.root target parts (.dir entries))
      (stuck : d.GetsStuck parts (.dir entries)) : TargetFails d target (.pattern e)

/-- A target does not fail. -/
def Passes (d : Discovery lib) (target : Path) : Prop :=
  ∀ e, ¬ d.TargetFails target e

/-- The choice of files that a configuration stands for. -/
structure Chooses (d : Discovery lib) (tree : FileTree) (root : Path) (cfg : LintConfig) :
    Prop where
  tree_eq : d.tree = tree
  root_eq : d.root = root
  extensions : d.extensions = cfg.lintExtensions.map Text.lower
  excluded : cfg.exclude ≠ [] →
    ∃ selection, lib.select cfg.exclude = .ok selection ∧ d.exclude = some selection
  not_excluded : cfg.exclude = [] → d.exclude = none
  ignored : cfg.gitignore = true →
    ∃ session, (IgnoreSession.start lib tree root).outcome = .ok session ∧ d.session = some session
  not_ignored : cfg.gitignore = false → d.session = none

variable {d : Discovery lib}

/-! ## Configurations -/

/-- Excluding patterns are compiled, if there are any. -/
lemma selectionOf_settles (lib : PatternLibrary) (cfg : LintConfig) :
    Settles (selectionOf lib cfg)
      (fun e => ∃ e', e = .pattern e' ∧ cfg.exclude ≠ [] ∧ lib.select cfg.exclude = .error e')
      fun selection? => (cfg.exclude ≠ [] →
        ∃ selection, lib.select cfg.exclude = .ok selection ∧ selection? = some selection) ∧
        (cfg.exclude = [] → selection? = none) := by
  rw [selectionOf]
  by_cases hempty : cfg.exclude = []
  · rw [if_pos (List.isEmpty_iff.mpr hempty)]
    exact .ok rfl (fun e ⟨_, _, hne, _⟩ => hne hempty) ⟨fun hne => absurd hempty hne, fun _ => rfl⟩
  · rw [if_neg (mt List.isEmpty_iff.mp hempty)]
    cases hselect : lib.select cfg.exclude with
    | error e => exact .error rfl ⟨e, rfl, hempty, rfl⟩
    | ok selection =>
      refine .ok rfl (fun e ⟨_, _, _, he⟩ => by cases he) ⟨fun _ => ⟨selection, rfl, rfl⟩, ?_⟩
      exact fun h => absurd h hempty

lemma start_error_iff {tree : FileTree} {root : Path} {e : Raised} :
    (IgnoreSession.start lib tree root).outcome = .error e ↔
      (Ignore.rootPatterns lib tree root).outcome = .error e := by
  rw [IgnoreSession.start, Traced.outcome_bind_eq_error_iff]
  apply or_iff_left
  rintro ⟨top, -, htop⟩
  cases htop

/-- A session is opened, if ignore files count. -/
lemma sessionOf_settles (lib : PatternLibrary) (tree : FileTree) (root : Path) (cfg : LintConfig) :
    Settles (sessionOf lib tree root cfg).outcome
      (fun e => ∃ e', e = .pattern e' ∧ cfg.gitignore = true ∧
        (Ignore.rootPatterns lib tree root).outcome = .error e')
      fun session? => (cfg.gitignore = true → ∃ session,
        (IgnoreSession.start lib tree root).outcome = .ok session ∧ session? = some session) ∧
        (cfg.gitignore = false → session? = none) := by
  rw [sessionOf]
  by_cases hignore : cfg.gitignore = true
  · have hstart := (Settles.self (IgnoreSession.start lib tree root).outcome).mapError
      DiscoveryError.pattern
    rw [if_pos hignore, Traced.outcome_bind, Traced.outcome_mapError]
    have hcounts : ¬ cfg.gitignore = false := by simp [hignore]
    refine (hstart.bind_ok fun session hsession => ⟨some session, rfl,
      fun _ => ⟨session, hsession, rfl⟩, fun h => absurd h hcounts⟩).congr fun e => ?_
    simp only [start_error_iff, hignore, true_and]
  · rw [if_neg hignore]
    exact .ok rfl (fun e ⟨_, _, h, _⟩ => hignore h) ⟨fun h => absurd h hignore, fun _ => rfl⟩

/-- A configuration stands for no choice when the library refuses what it excludes by, or when
ignore files count and the library refuses a line of those of the root. -/
lemma ofConfig_settles (lib : PatternLibrary) (tree : FileTree) (root : Path) (cfg : LintConfig) :
    Settles (ofConfig lib tree root cfg).outcome
      (fun e => ∃ e', e = .pattern e' ∧
        ((cfg.exclude ≠ [] ∧ lib.select cfg.exclude = .error e') ∨
          (cfg.gitignore = true ∧ (Ignore.rootPatterns lib tree root).outcome = .error e')))
      fun d => d.Chooses tree root cfg := by
  rw [ofConfig, Traced.outcome_bind, Traced.outcome_ofExcept]
  have hsession := sessionOf_settles lib tree root cfg
  refine ((selectionOf_settles lib cfg).bind_or (q := fun e => ∃ e', e = .pattern e' ∧
    cfg.gitignore = true ∧ (Ignore.rootPatterns lib tree root).outcome = .error e')
    fun selection hselection => ?_).congr fun e => ?_
  · rw [Traced.outcome_bind]
    exact hsession.bind_ok fun session hsession =>
      ⟨_, rfl, rfl, rfl, rfl, hselection.1, hselection.2, hsession.1, hsession.2⟩
  · simp only [and_or_left, exists_or]

lemma chooses_of_ofConfig {tree : FileTree} {root : Path} {cfg : LintConfig}
    (h : (ofConfig lib tree root cfg).outcome = .ok d) : d.Chooses tree root cfg := by
  cases ofConfig_settles lib tree root cfg with
  | ok eq _ hd => rwa [Except.ok.inj (h.symm.trans eq)]
  | error eq _ => cases h.symm.trans eq

lemma exists_ofConfig {tree : FileTree} {root : Path} {cfg : LintConfig}
    (h : HasPatterns lib tree root cfg) :
    ∃ d, (ofConfig lib tree root cfg).outcome = .ok d ∧ d.Chooses tree root cfg := by
  cases ofConfig_settles lib tree root cfg with
  | ok eq _ hd => exact ⟨_, eq, hd⟩
  | error _ hfails =>
    obtain ⟨e, -, ⟨hne, he⟩ | ⟨hignore, he⟩⟩ := hfails
    · obtain ⟨selection, hok⟩ := h.exclude hne
      cases hok.symm.trans he
    · obtain ⟨top, hok⟩ := (h.ignore hignore).top
      cases hok.symm.trans he

/-- The patterns of a choice that hold for the whole project are those of the root's two files. -/
lemma Chooses.top?_eq {tree : FileTree} {root : Path} {cfg : LintConfig}
    (hd : d.Chooses tree root cfg) (hignore : cfg.gitignore = true) :
    ∃ top session, (Ignore.rootPatterns lib tree root).outcome = .ok top ∧ d.top? = some top ∧
      d.session = some session ∧ session.Remembers tree root top [] := by
  obtain ⟨session, hstart, hsession⟩ := hd.ignored hignore
  cases htop : (Ignore.rootPatterns lib tree root).outcome with
  | error e => cases hstart.symm.trans (start_error_iff.mpr htop)
  | ok top =>
    obtain ⟨session', hstart', hremembers⟩ := IgnoreSession.remembers_start htop
    obtain rfl := Except.ok.inj (hstart.symm.trans hstart')
    refine ⟨top, session, rfl, ?_, hsession, hremembers⟩
    rw [top?, hsession, Option.map_some, hremembers.top_eq, Option.getD_some]

/-- Without ignore files a choice has no patterns for the whole project. -/
lemma Chooses.top?_eq_none {tree : FileTree} {root : Path} {cfg : LintConfig}
    (hd : d.Chooses tree root cfg) (hignore : cfg.gitignore = false) : d.top? = none := by
  rw [top?, hd.not_ignored hignore, Option.map_none]

/-- A search starts with a session that knows nothing that is not true. -/
lemma Chooses.knows {tree : FileTree} {root : Path} {cfg : LintConfig}
    (hd : d.Chooses tree root cfg) : d.Knows d.session := by
  unfold Knows
  cases hignore : cfg.gitignore with
  | false => rw [hd.top?_eq_none hignore, hd.not_ignored hignore]; trivial
  | true =>
    obtain ⟨top, session, -, htop, hsession, hremembers⟩ := hd.top?_eq hignore
    rw [htop, hsession]
    exact ⟨[], by rwa [hd.tree_eq, hd.root_eq]⟩

lemma Chooses.judges {tree : FileTree} {root : Path} {cfg : LintConfig}
    (hd : d.Chooses tree root cfg) (h : HasPatterns lib tree root cfg) : d.Judges := by
  intro rel hrel
  rw [verdictOn]
  cases hignore : cfg.gitignore with
  | false =>
    rw [hd.top?_eq_none hignore]
    exact ⟨false, rfl⟩
  | true =>
    obtain ⟨top, -, -, htop, -⟩ := hd.top?_eq hignore
    rw [htop, hd.tree_eq, hd.root_eq]
    exact Ignore.exists_isIgnored (h.ignore hignore) top hrel

/-! ## Targets -/

lemma relative_of_locates {target : Path} {parts : List String} {node : FileTree}
    (h : Locates d.tree d.root target parts node) :
    d.relative (d.root.under target) = .ok (Text.join "/" parts) := by
  rw [relative, h.inside]

/-- A walk over a sorted directory reaches what a walk over the directory reaches. -/
lemma reaches_sorted_iff {base names : List String} {t : FileTree} (ht : t.WellFormed) :
    d.Reaches base t.sorted names ↔ d.Reaches base t names := by
  have hfile : (∃ bytes, t.sorted.descend names = some (.file bytes)) ↔
      ∃ bytes, t.descend names = some (.file bytes) := by
    rw [FileTree.descend_sorted ht]
    constructor
    · rintro ⟨bytes, hbytes⟩
      obtain ⟨t', ht', hsorted⟩ := Option.map_eq_some_iff.mp hbytes
      cases t' with
      | file bytes' => exact ⟨bytes', ht'⟩
      | dir entries => exact absurd hsorted (by simp [FileTree.sorted])
    · rintro ⟨bytes, hbytes⟩
      exact ⟨bytes, by rw [hbytes, Option.map_some, FileTree.sorted]⟩
  constructor
  · rintro ⟨hf, hkeeps, henters⟩
    exact ⟨hfile.mp hf, hkeeps, henters⟩
  · rintro ⟨hf, hkeeps, henters⟩
    exact ⟨hfile.mpr hf, hkeeps, henters⟩

lemma getsStuck_sorted_iff {base : List String} {t : FileTree} (ht : t.WellFormed) :
    d.GetsStuck base t.sorted ↔ d.GetsStuck base t := by
  -- sorting keeps what kind of entry stands under a name, and nothing else is asked
  have hpuzzles : ∀ {names node}, d.Puzzles names (FileTree.sorted node) ↔
      d.Puzzles names node := by
    intro names node
    cases node with
    | file bytes => rw [FileTree.sorted]
    | dir entries =>
      rw [FileTree.sorted]
      rfl
  constructor
  · rintro ⟨names, node, hne, ⟨hdescend, henters⟩, hnode⟩
    rw [FileTree.descend_sorted ht] at hdescend
    obtain ⟨node', hnode', rfl⟩ := Option.map_eq_some_iff.mp hdescend
    exact ⟨names, node', hne, ⟨hnode', henters⟩, hpuzzles.mp hnode⟩
  · rintro ⟨names, node, hne, ⟨hdescend, henters⟩, hnode⟩
    refine ⟨names, node.sorted, hne, ⟨?_, henters⟩, hpuzzles.mpr hnode⟩
    rw [FileTree.descend_sorted ht, hdescend, Option.map_some]

/-- A file target stands for itself, if it is to be checked. -/
lemma ofTarget_file_searches {target : Path} {parts : List String} {bytes : List UInt8}
    (h : Locates d.tree d.root target parts (.file bytes)) :
    d.Searches (d.ofTarget target) False fun fs => ∀ f, f ∈ fs ↔
      f = fileName (Text.join "/" parts) ∧ d.isLintable f = true ∧ d.isExcluded f = false := by
  simp only [ofTarget, h.found]
  refine .lift_bind (by rw [Traced.outcome_ofExcept, relative_of_locates h]) ?_
  by_cases hlint : d.isLintable (fileName (Text.join "/" parts)) = true
  · by_cases hexcluded : d.isExcluded (fileName (Text.join "/" parts)) = true
    · rw [if_neg (by simp [hlint]), if_pos hexcluded]
      refine .lift_bind rfl (searches_pure (fun f => ?_) id)
      simp only [List.not_mem_nil, false_iff]
      rintro ⟨rfl, -, hnot⟩
      exact absurd (hexcluded.symm.trans hnot) (by simp)
    · rw [if_neg (by simp [hlint]), if_neg hexcluded]
      refine searches_pure (fun f => ?_) id
      rw [List.mem_singleton]
      refine ⟨?_, And.left⟩
      rintro rfl
      exact ⟨rfl, hlint, by simpa using hexcluded⟩
  · rw [if_pos (by simpa using hlint)]
    refine .lift_bind rfl (searches_pure (fun f => ?_) id)
    simp only [List.not_mem_nil, false_iff]
    rintro ⟨rfl, hnot, -⟩
    exact hlint hnot

/-- A file of a project is named by the names on the way to it. -/
lemma fileName_of_locates {target : Path} {parts : List String} {bytes : List UInt8}
    (hp : IsProject d.tree d.root) (h : Locates d.tree d.root target parts (.file bytes)) :
    fileName (Text.join "/" parts) = Text.join "/" parts := by
  rw [fileName, if_neg (join_ne_empty (h.ne_nil hp) (h.wellFormed hp.wellFormed).2)]

lemma finds_iff_of_file {target : Path} {parts : List String} {bytes : List UInt8}
    (hp : IsProject d.tree d.root) (h : Locates d.tree d.root target parts (.file bytes))
    {f : String} :
    d.Finds target f ↔
      f = fileName (Text.join "/" parts) ∧ d.isLintable f = true ∧ d.isExcluded f = false := by
  rw [fileName_of_locates hp h]
  constructor
  · rintro (⟨h', hname, hlint, hexcluded⟩ | ⟨h', -, -⟩)
    · obtain ⟨rfl, -⟩ := h.unique h'
      exact ⟨hname, hlint, hexcluded⟩
    · exact absurd (h.unique h').2 (by simp)
  · rintro ⟨hname, hlint, hexcluded⟩
    exact .named h hname hlint hexcluded

lemma finds_iff_of_dir {target : Path} {parts : List String} {entries : List (String × FileTree)}
    (h : Locates d.tree d.root target parts (.dir entries)) {f : String} :
    d.Finds target f ↔
      ∃ names, names ≠ [] ∧ d.Reaches parts (.dir entries) names ∧
        f = Text.join "/" (parts ++ names) := by
  constructor
  · rintro (⟨h', -, -, -⟩ | ⟨h', hname, hreach⟩)
    · exact absurd (h.unique h').2 (by simp)
    · obtain ⟨rfl, hentries⟩ := h.unique h'
      rw [← hentries] at hreach
      refine ⟨_, ?_, hreach, hname⟩
      -- the directory itself is no file
      rintro rfl
      obtain ⟨bytes, hbytes⟩ := hreach.file
      simp at hbytes
  · rintro ⟨names, -, hreach, hname⟩
    exact .below h hname hreach

/-- What lies inside the root fails only as a directory whose walk gets stuck. -/
lemma targetFails_iff_of_locates {target : Path} {parts : List String} {node : FileTree}
    (h : Locates d.tree d.root target parts node) {e : DiscoveryError} :
    d.TargetFails target e ↔
      ∃ entries e', node = .dir entries ∧ e = .pattern e' ∧ d.GetsStuck parts (.dir entries) := by
  constructor
  · intro hfails
    cases hfails with
    | missing hnone => cases h.found.symm.trans hnone
    | outside _ hnone => cases h.inside.symm.trans hnone
    | @stuck _ entries e' h' hstuck =>
      obtain ⟨rfl, hnode⟩ := h.unique h'
      exact ⟨entries, e', hnode, rfl, hstuck⟩
  · rintro ⟨entries, e', rfl, rfl, hstuck⟩
    exact .stuck h hstuck

/-- Nothing outside the root is searched. -/
lemma ofTarget_of_outside {target : Path} {node : FileTree}
    (hfind : d.tree.find? (d.root.under target) = some node)
    (hbelow : d.root.below? (d.root.under target).resolve = none)
    (session? : Option (IgnoreSession lib)) :
    (d.ofTarget target session?).outcome =
      .error (.outsideRoot d.root.text (d.root.under target).text) := by
  have hrelative : d.relative (d.root.under target) =
      .error (.outsideRoot d.root.text (d.root.under target).text) := by
    rw [relative, hbelow]
  cases node with
  | file bytes =>
    simp only [ofTarget, hfind]
    rw [hrelative]
    rfl
  | dir entries =>
    simp only [ofTarget, hfind]
    rw [hrelative]
    rfl

/-- A directory target gets stuck, or it stands for what a walk from it reaches. -/
lemma ofTarget_dir_searches (htree : d.tree.WellFormed) {target : Path} {parts : List String}
    {entries : List (String × FileTree)} (h : Locates d.tree d.root target parts (.dir entries)) :
    d.Searches (d.ofTarget target) (d.GetsStuck parts (.dir entries))
      fun fs => ∀ f, f ∈ fs ↔ d.Finds target f := by
  obtain ⟨hdir, hparts⟩ := h.wellFormed htree
  have hwalk := walk_settles (d := d) hdir.sorted hparts
  simp only [ofTarget, h.found]
  refine .lift_bind (by rw [Traced.outcome_ofExcept, relative_of_locates h]) ?_
  -- the entries are walked in the order of their names, which is no matter for what is found
  refine searches_congr (hwalk.imp fun fs hfs f => ?_) (getsStuck_sorted_iff hdir)
  rw [hfs, finds_iff_of_dir h]
  simp only [reaches_sorted_iff hdir]

/-- A target fails for one of the reasons that there are, or it stands for what it finds. -/
lemma ofTarget_settles (htree : d.tree.WellFormed) (target : Path) :
    SettlesWith d.Knows (d.ofTarget target) (d.TargetFails target)
      fun fs => IsProject d.tree d.root → ∀ f, f ∈ fs ↔ d.Finds target f := by
  cases hfind : d.tree.find? (d.root.under target) with
  | none =>
    intro session? _
    refine .error ?_ (.missing hfind)
    simp only [ofTarget, hfind]
    rfl
  | some node =>
    cases hbelow : d.root.below? (d.root.under target).resolve with
    | none =>
      exact fun session? _ => .error (ofTarget_of_outside hfind hbelow session?)
        (.outside hfind hbelow)
    | some parts =>
      have hloc : Locates d.tree d.root target parts node := ⟨hfind, hbelow⟩
      cases node with
      | file bytes =>
        refine ((ofTarget_file_searches hloc).imp fun fs hfs hp f => ?_).congr fun e => ?_
        · rw [hfs, finds_iff_of_file hp hloc]
        · simp [targetFails_iff_of_locates hloc, StuckIf]
      | dir entries =>
        refine ((ofTarget_dir_searches htree hloc).imp fun fs hfs _ => hfs).congr fun e => ?_
        simp [targetFails_iff_of_locates hloc, StuckIf]

/-- The first target that fails is the one that is reported. -/
lemma ofTargets_settles (htree : d.tree.WellFormed) (targets : List Path) :
    SettlesWith d.Knows (d.ofTargets targets)
      (fun e => ∃ t, FirstFailing d.Passes targets t ∧ d.TargetFails t e)
      fun fs => IsProject d.tree d.root → ∀ f, f ∈ fs ↔ ∃ t ∈ targets, d.Finds t f := by
  induction targets with
  | nil =>
    refine .of_pure (by simp) ?_
    rintro e ⟨t, ⟨before, after, hnil, -⟩, -⟩
    simp at hnil
  | cons target targets ih =>
    rw [ofTargets]
    refine ((ofTarget_settles htree target).bind fun here hhere =>
      ih.bind_pure fun rest hrest hp f => ?_).congr fun e => ?_
    · rw [List.mem_append, hhere hp, hrest hp]
      simp only [List.mem_cons, exists_eq_or_imp]
    · -- a later target fails only if this one passes
      simp only [firstFailing_cons_iff]
      constructor
      · rintro (hfails | ⟨hpasses, t, hfirst, hfails⟩)
        · exact ⟨target, .inl ⟨rfl, fun hpasses => hpasses e hfails⟩, hfails⟩
        · exact ⟨t, .inr ⟨hpasses, hfirst⟩, hfails⟩
      · rintro ⟨t, ⟨rfl, -⟩ | ⟨hpasses, hfirst⟩, hfails⟩
        · exact .inl hfails
        · exact .inr ⟨hpasses, t, hfirst, hfails⟩

/-- A target inside the root passes where there is a verdict on every path. -/
lemma passes_of_isTarget (htree : d.tree.WellFormed) (hj : d.Judges) {target : Path}
    (h : IsTarget d.tree d.root target) : d.Passes target := by
  obtain ⟨parts, node, hloc⟩ := h
  intro e hfails
  obtain ⟨entries, e', rfl, -, hstuck⟩ := (targetFails_iff_of_locates hloc).mp hfails
  obtain ⟨hdir, hparts⟩ := hloc.wellFormed htree
  exact hj.not_getsStuck hdir hparts hstuck

/-! ## Files -/

lemma nodup_eraseDups (names : List String) : names.eraseDups.Nodup := by
  cases names with
  | nil => simp
  | cons name names =>
    rw [List.eraseDups_cons, List.nodup_cons]
    constructor
    · rw [List.mem_eraseDups, List.mem_filter]
      rintro ⟨-, hne⟩
      simp at hne
    · exact nodup_eraseDups _
termination_by names.length
decreasing_by
  -- the later copies of the head are dropped, so what is left is no longer than the tail
  exact Nat.lt_succ_of_le (List.length_filter_le _ _)

@[simp]
lemma mem_sortedOnce {names : List String} {n : String} : n ∈ sortedOnce names ↔ n ∈ names := by
  rw [sortedOnce, mem_sortNames, List.mem_eraseDups]

lemma pairwise_sortedOnce (names : List String) : (sortedOnce names).Pairwise (· < ·) :=
  increasing_sortNames (nodup_eraseDups names)

/-- The targets of a run: none stands for the root. -/
def effectiveTargets (root : Path) (targets : List Path) : List Path :=
  if targets.isEmpty then [root] else targets

lemma isTarget_of_mem_effectiveTargets {tree : FileTree} {root : Path} {targets : List Path}
    (hp : IsProject tree root) (h : ∀ t ∈ targets, IsTarget tree root t) :
    ∀ t ∈ effectiveTargets root targets, IsTarget tree root t := by
  intro t ht
  rw [effectiveTargets] at ht
  split at ht
  · rw [List.mem_singleton.mp ht]
    exact hp.isTarget_root
  · exact h t ht

lemma mem_effectiveTargets_congr (root : Path) {targets targets' : List Path}
    (h : ∀ t, t ∈ targets ↔ t ∈ targets') (t : Path) :
    t ∈ effectiveTargets root targets ↔ t ∈ effectiveTargets root targets' := by
  have hempty : targets.isEmpty = targets'.isEmpty := by
    rw [Bool.eq_iff_iff, List.isEmpty_iff, List.isEmpty_iff, List.eq_nil_iff_forall_not_mem,
      List.eq_nil_iff_forall_not_mem]
    exact forall_congr' fun t => not_congr (h t)
  rw [effectiveTargets, effectiveTargets, hempty]
  split
  · rfl
  · exact h t

lemma files_settles (hd : d.Knows d.session) (htree : d.tree.WellFormed) (targets : List Path) :
    Settles (d.files targets).outcome
      (fun e => ∃ t, FirstFailing d.Passes (effectiveTargets d.root targets) t ∧ d.TargetFails t e)
      fun fs => fs.Pairwise (· < ·) ∧ (IsProject d.tree d.root →
        ∀ f, f ∈ fs ↔ ∃ t ∈ effectiveTargets d.root targets, d.Finds t f) := by
  rw [files, Traced.outcome_bind]
  refine (ofTargets_settles htree (effectiveTargets d.root targets) d.session hd).bind_ok
    fun found hfound => ⟨sortedOnce found.1, rfl, pairwise_sortedOnce found.1, fun hp f => ?_⟩
  rw [mem_sortedOnce, hfound.1 hp]

/-- A run ends when all its targets pass, and gives what they find, in strictly increasing order. -/
lemma outcome_files_eq_ok_iff (hd : d.Knows d.session) (hp : IsProject d.tree d.root)
    {targets : List Path} {fs : List String} :
    (d.files targets).outcome = .ok fs ↔
      (∀ t ∈ effectiveTargets d.root targets, d.Passes t) ∧ fs.Pairwise (· < ·) ∧
        ∀ f, f ∈ fs ↔ ∃ t ∈ effectiveTargets d.root targets, d.Finds t f := by
  classical
  cases files_settles hd hp.wellFormed targets with
  | @error e eq hfails =>
    obtain ⟨t, hfirst, -⟩ := hfails
    rw [eq]
    exact ⟨nofun, fun h => absurd h.1 hfirst.not_forall⟩
  | @ok found eq hnone hfound =>
    have hpass : ∀ t ∈ effectiveTargets d.root targets, d.Passes t := by
      refine (forall_or_firstFailing d.Passes _).resolve_right fun ⟨t, hfirst⟩ => ?_
      obtain ⟨e, he⟩ := not_forall_not.mp hfirst.not_holds
      exact hnone e ⟨t, hfirst, he⟩
    rw [eq]
    constructor
    · rintro ⟨⟩
      exact ⟨hpass, hfound.1, hfound.2 hp⟩
    · rintro ⟨-, hsorted, hmem⟩
      rw [eq_of_increasing hfound.1 hsorted fun f => (hfound.2 hp f).trans (hmem f).symm]

lemma exists_files {targets : List Path} (hd : d.Knows d.session) (hp : IsProject d.tree d.root)
    (hj : d.Judges) (h : ∀ t ∈ targets, IsTarget d.tree d.root t) :
    ∃ fs, (d.files targets).outcome = .ok fs ∧ fs.Pairwise (· < ·) ∧
      ∀ f, f ∈ fs ↔ ∃ t ∈ effectiveTargets d.root targets, d.Finds t f := by
  have htargets := isTarget_of_mem_effectiveTargets hp h
  cases files_settles hd hp.wellFormed targets with
  | ok eq _ hfs => exact ⟨_, eq, hfs.1, hfs.2 hp⟩
  | error _ hfails =>
    obtain ⟨t, hfirst, -⟩ := hfails
    exact absurd (fun t ht => passes_of_isTarget hp.wellFormed hj (htargets t ht)) hfirst.not_forall

/-- Whatever library compiles and matches the patterns: where it raises no exception on them,
targets inside the root stand for the files that one of them finds, in strictly increasing order,
whatever the order and repetition of the targets. -/
theorem files_eq_found (lib : PatternLibrary) (tree : FileTree) (root : Path) (cfg : LintConfig)
    (targets : List Path) (hp : IsProject tree root) (hpatterns : HasPatterns lib tree root cfg)
    (htargets : ∀ t ∈ targets, IsTarget tree root t) :
    ∃ d fs, (ofConfig lib tree root cfg).outcome = .ok d ∧ d.Chooses tree root cfg ∧
      (d.files targets).outcome = .ok fs ∧
      fs.Pairwise (· < ·) ∧
      (∀ f, f ∈ fs ↔ ∃ t ∈ effectiveTargets root targets, d.Finds t f) ∧
      ∀ targets', (∀ t, t ∈ targets' ↔ t ∈ targets) → (d.files targets').outcome = .ok fs := by
  obtain ⟨d, hd, hchooses⟩ := exists_ofConfig hpatterns
  have hj := hchooses.judges hpatterns
  have hknows := hchooses.knows
  obtain rfl := hchooses.tree_eq
  obtain rfl := hchooses.root_eq
  obtain ⟨fs, hfs, hsorted, hmem⟩ := exists_files hknows hp hj htargets
  refine ⟨d, fs, hd, hchooses, hfs, hsorted, hmem, fun targets' hsame => ?_⟩
  obtain ⟨fs', hfs', hsorted', hmem'⟩ :=
    exists_files hknows hp hj fun t ht => htargets t ((hsame t).mp ht)
  rw [hfs']
  congr 1
  apply eq_of_increasing hsorted' hsorted
  intro f
  rw [hmem' f, hmem f]
  simp only [mem_effectiveTargets_congr d.root hsame]

/-- A project at `/p` with an ignore file, a file beside it and one in a directory below. -/
def sampleTree : FileTree :=
  .dir [("p", .dir [(".gitignore", .file "*.log\n".toUTF8.toList), ("b.ts", .file []),
    ("a", .dir [("c.ts", .file [])])])]

/-- The root of the sample project. -/
def sampleRoot : Path := { anchor := "/", parts := ["p"] }

/-- A configuration that excludes and ignores. -/
def sampleConfig : LintConfig :=
  { policy := { }, lintExtensions := [".ts"], exclude := ["dist/"], gitignore := true, rules := [],
    source := none }

lemma isProject_sample : IsProject sampleTree sampleRoot :=
  ⟨by decide +kernel, by decide, by decide +kernel⟩

lemma hasPatterns_sample :
    HasPatterns IgnorePattern.library sampleTree sampleRoot sampleConfig where
  exclude _ := ⟨_, by rfl⟩
  ignore _ := Ignore.readable_of_everyFile (by decide +kernel)

/-- The directory and the file of the sample project are inside it. -/
lemma isTarget_sample : ∀ t ∈ [Path.ofText "b.ts", Path.ofText "a"],
    IsTarget sampleTree sampleRoot t := by
  intro t ht
  rcases List.mem_cons.mp ht with rfl | ht
  · exact ⟨_, _, rfl, rfl⟩
  · rw [List.mem_singleton.mp ht]
    exact ⟨_, _, rfl, rfl⟩

theorem files_eq_found_sample :
    ∃ d fs, (ofConfig IgnorePattern.library sampleTree sampleRoot sampleConfig).outcome = .ok d ∧
      (d.files [Path.ofText "b.ts", Path.ofText "a"]).outcome = .ok fs ∧
      (d.files [Path.ofText "a", Path.ofText "b.ts", Path.ofText "a"]).outcome = .ok fs ∧
      fs.Pairwise (· < ·) ∧
      ∀ f, f ∈ fs ↔ ∃ t ∈ [Path.ofText "b.ts", Path.ofText "a"], d.Finds t f := by
  obtain ⟨d, fs, hd, -, hfs, hsorted, hmem, hsame⟩ :=
    files_eq_found IgnorePattern.library sampleTree sampleRoot sampleConfig
      [Path.ofText "b.ts", Path.ofText "a"]
      isProject_sample hasPatterns_sample isTarget_sample
  refine ⟨d, fs, hd, hfs, ?_, hsorted, hmem⟩
  exact hsame [Path.ofText "a", Path.ofText "b.ts", Path.ofText "a"]
    fun t => by simp only [List.mem_cons, List.not_mem_nil, or_false]; tauto

end Discovery

end EntryLint
