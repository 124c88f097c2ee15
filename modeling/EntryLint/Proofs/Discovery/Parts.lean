import EntryLint.Proofs.Discovery.Files

/-!
# Parts of a project

A run on a directory against a run on the whole project, and a run on some targets against runs on
fewer. A walk from the root comes to a directory below it only past directories that it enters
(`leads_append_iff`), so it finds nothing there that a walk from the directory misses; and where all
of them are entered, both find the same. The main result is `files_of_part`.
-/

namespace EntryLint

namespace Discovery

variable {lib : PatternLibrary}

/-- A directory that a walk leaves out when it meets it: for its name, by an excluding pattern or by
ignore files. -/
inductive Bars (d : Discovery lib) (dir : List String) : Prop
  | name (h : dir.getLast? = some ".git" ∨ dir.getLast? = some "node_modules")
  | excluded (h : d.isExcluded (Text.join "/" dir ++ "/") = true)
  | ignored (h : d.verdictOn (Text.join "/" dir ++ "/") = .ok true)

/-- Whether a file lies under a directory, by their paths; the empty path is the root. -/
def liesUnder (dir f : String) : Bool :=
  dir = "" || Text.startsWith (dir ++ "/") f

variable {d : Discovery lib}

/-- A file lies under a directory when its names go on after those of the directory. -/
lemma liesUnder_join_iff {dir names : List String} (hdir : ∀ n ∈ dir, IsFileName n)
    (hnames : ∀ n ∈ names, IsFileName n) (hne : names ≠ []) :
    liesUnder (Text.join "/" dir) (Text.join "/" names) = true ↔
      ∃ rest, rest ≠ [] ∧ names = dir ++ rest := by
  rw [liesUnder, Bool.or_eq_true, decide_eq_true_eq, Text.startsWith_iff]
  by_cases hnil : dir = []
  · subst hnil
    exact ⟨fun _ => ⟨names, hne, rfl⟩, fun _ => .inl rfl⟩
  · rw [or_iff_right (join_ne_empty hnil hdir)]
    constructor
    · rintro ⟨rest, hrest⟩
      have hsplit := congrArg (Text.split '/') hrest
      rw [split_join_names hne hnames] at hsplit
      refine ⟨Text.split '/' rest, ?_, ?_⟩
      · simpa [Text.split] using Text.pieces_ne_nil '/' rest.toList
      · exact hsplit.trans (Text.split_join_append hnil (fun n hn => (hdir n hn).noSlash) rest)
    · rintro ⟨rest, hrest, rfl⟩
      exact ⟨_, Text.join_append hnil hrest⟩

/-! ## Walks from a directory on the way -/

/-- A walk comes past a directory if it enters all directories down to it, and goes on from there as
a walk from the directory does. -/
lemma leads_append_iff {base dir rest : List String} {t t' node : FileTree}
    (h : t.descend dir = some t') (hrest : rest ≠ []) :
    d.Leads base t (dir ++ rest) node ↔
      (∀ k, 0 < k → k ≤ dir.length → d.Enters (base ++ dir.take k)) ∧
        d.Leads (base ++ dir) t' rest node := by
  have hdescend : t.descend (dir ++ rest) = t'.descend rest := by
    rw [FileTree.descend_append, h, Option.bind_some]
  have hlength : 0 < rest.length := List.length_pos_iff.mpr hrest
  constructor
  · rintro ⟨hnode, henters⟩
    refine ⟨fun k hk hle => ?_, hdescend ▸ hnode, fun k hk hlt => ?_⟩
    · have henter := henters k hk (by rw [List.length_append]; omega)
      rwa [List.take_append_of_le_length hle] at henter
    · have henter := henters (dir.length + k) (by omega) (by rw [List.length_append]; omega)
      rwa [List.take_length_add_append, ← List.append_assoc] at henter
  · rintro ⟨habove, hnode, hbelow⟩
    refine ⟨hdescend ▸ hnode, fun k hk hlt => ?_⟩
    by_cases hle : k ≤ dir.length
    · rw [List.take_append_of_le_length hle]
      exact habove k hk hle
    · rw [List.length_append] at hlt
      obtain ⟨j, rfl⟩ := Nat.exists_eq_add_of_le (Nat.le_of_not_le hle)
      rw [List.take_length_add_append, ← List.append_assoc]
      exact hbelow j (by omega) (by omega)

lemma reaches_append_iff {dir rest : List String} {t t' : FileTree} (h : t.descend dir = some t')
    (hrest : rest ≠ []) :
    d.Reaches [] t (dir ++ rest) ↔
      (∀ k, 0 < k → k ≤ dir.length → d.Enters (dir.take k)) ∧ d.Reaches dir t' rest := by
  simp only [reaches_iff_leads, leads_append_iff h hrest, List.nil_append, exists_and_left,
    and_assoc]

/-- Where a walk from a directory on the way gets stuck, so does the walk. -/
lemma GetsStuck.of_below {dir : List String} {t t' : FileTree} (h : t.descend dir = some t')
    (henters : ∀ k, 0 < k → k ≤ dir.length → d.Enters (dir.take k)) (hstuck : d.GetsStuck dir t') :
    d.GetsStuck [] t := by
  obtain ⟨names, node, hne, hleads, hpuzzles⟩ := hstuck
  exact ⟨dir ++ names, node, by simp [hne], (leads_append_iff h hne).mpr ⟨henters, hleads⟩,
    hpuzzles⟩

lemma descend_take_dir {names : List String} {t : FileTree} {entries : List (String × FileTree)}
    (h : t.descend names = some (.dir entries)) (k : Nat) :
    ∃ es, t.descend (names.take k) = some (.dir es) := by
  rw [← List.take_append_drop k names, FileTree.descend_append, Option.bind_eq_some_iff] at h
  obtain ⟨node, hnode, hrest⟩ := h
  cases node with
  | dir es => exact ⟨es, hnode⟩
  | file bytes =>
    -- below a file there is nothing, and it is no directory itself
    cases hdrop : names.drop k with
    | nil => simp [hdrop] at hrest
    | cons n ns => simp [hdrop, FileTree.descend] at hrest

/-- A walk that does not get stuck enters every directory that is not barred, down to the last. -/
lemma enters_of_not_bars {dir : List String} {t : FileTree} {entries : List (String × FileTree)}
    (h : t.descend dir = some (.dir entries)) (hstuck : ¬ d.GetsStuck [] t)
    (hopen : ∀ k, 0 < k → k ≤ dir.length → ¬ d.Bars (dir.take k)) (k : Nat) (hk : 0 < k)
    (hle : k ≤ dir.length) : d.Enters (dir.take k) := by
  induction k using Nat.strongRecOn with
  | ind k ih =>
    obtain ⟨es, hes⟩ := descend_take_dir h k
    have hbars := hopen k hk hle
    have hname : ∀ name, (dir.take k).getLast? = some name → name ≠ ".git" ∧
        name ≠ "node_modules" := by
      intro name hlast
      constructor
      · rintro rfl
        exact hbars (.name (.inl hlast))
      · rintro rfl
        exact hbars (.name (.inr hlast))
    have hexcluded : d.isExcluded (Text.join "/" (dir.take k) ++ "/") = false := by
      rw [← Bool.not_eq_true]
      exact fun htrue => hbars (.excluded htrue)
    refine ⟨hname, hexcluded, ?_⟩
    cases hverdict : d.verdictOn (Text.join "/" (dir.take k) ++ "/") with
    | ok verdict =>
      cases verdict with
      | false => rfl
      | true => exact absurd (.ignored hverdict) hbars
    | error e =>
      -- the walk comes here, so it would get stuck
      refine absurd ⟨dir.take k, .dir es, ?_, ⟨hes, fun j hj hlt => ?_⟩, ⟨hname, hexcluded⟩, e,
        hverdict⟩
        hstuck
      · rw [← List.length_pos_iff, List.length_take]
        omega
      · rw [List.length_take] at hlt
        rw [List.nil_append, List.take_take, Nat.min_eq_left (by omega)]
        exact ih j (by omega) hj (by omega)

/-! ## Runs on one directory -/

/-- A run on one directory fails where a walk from it gets stuck. Else it finds what the walk
reaches. -/
lemma files_dir_cases (hd : d.Knows d.session) (htree : d.tree.WellFormed) {target : Path}
    {parts : List String} {entries : List (String × FileTree)}
    (h : Locates d.tree d.root target parts (.dir entries)) :
    (d.GetsStuck parts (.dir entries) ∧ ∃ e, (d.files [target]).outcome = .error e) ∨
      (¬ d.GetsStuck parts (.dir entries) ∧ ∃ fs, (d.files [target]).outcome = .ok fs ∧
        fs.Pairwise (· < ·) ∧ ∀ f, f ∈ fs ↔ ∃ names, names ≠ [] ∧
          d.Reaches parts (.dir entries) names ∧ f = Text.join "/" (parts ++ names)) := by
  cases ofTarget_dir_searches htree h d.session hd with
  | @error e eq hfails =>
    refine .inl ⟨hfails.2, e, ?_⟩
    exact Traced.outcome_bind_error (Traced.outcome_bind_error eq _) _
  | @ok found eq hnone hfound =>
    have hrun : (d.ofTargets [target] d.session).outcome = .ok (found.1 ++ [], found.2) :=
      Traced.outcome_bind_ok eq _
    refine .inr ⟨fun hstuck => hnone (.pattern ⟨"", ""⟩) ⟨⟨_, rfl⟩, hstuck⟩,
      sortedOnce (found.1 ++ []),
      Traced.outcome_bind_ok hrun _, pairwise_sortedOnce _, fun f => ?_⟩
    rw [mem_sortedOnce, List.append_nil, hfound.1, finds_iff_of_dir h]

section Part

variable {target : Path} {parts fs : List String} {entries : List (String × FileTree)}
  (hd : d.Knows d.session) (hp : IsProject d.tree d.root)
  (h : Locates d.tree d.root target parts (.dir entries)) (hfs : (d.files []).outcome = .ok fs)

include hd hp h hfs

/-- A directory of a project stands below a tree on which the walk from the root does not get stuck,
once a run on the whole project has ended. -/
lemma exists_whole :
    ∃ t, t.WellFormed ∧ t.descend parts = some (.dir entries) ∧ ¬ d.GetsStuck [] t ∧
      fs.Pairwise (· < ·) ∧
      ∀ f, f ∈ fs ↔ ∃ names, names ≠ [] ∧ d.Reaches [] t names ∧ f = Text.join "/" names := by
  obtain ⟨top, hroot⟩ := hp.locates_root
  have hdescend : (FileTree.dir top).descend parts = some (.dir entries) := by
    have hnode := h.descend
    have htop := hroot.descend
    rw [List.append_nil] at htop
    rwa [FileTree.descend_append, htop] at hnode
  refine ⟨_, (hroot.wellFormed hp.wellFormed).1, hdescend, ?_⟩
  -- no target stands for the root
  rcases files_dir_cases hd hp.wellFormed hroot with ⟨-, e, he⟩ | ⟨hstuck, fs', hfs', hmem⟩
  · cases hfs.symm.trans he
  · obtain rfl := Except.ok.inj (hfs.symm.trans hfs')
    exact ⟨hstuck, hmem⟩

/-- What a run on the whole project finds under a directory, a run on the directory finds. -/
lemma exists_files_of_whole {f : String} (hf : f ∈ fs)
    (hunder : liesUnder (Text.join "/" parts) f = true) :
    ∃ gs, (d.files [target]).outcome = .ok gs ∧ f ∈ gs := by
  obtain ⟨t, ht, hdescend, hstuck, -, hmem⟩ := exists_whole hd hp h hfs
  obtain ⟨names, hne, hreach, rfl⟩ := (hmem f).mp hf
  obtain ⟨bytes, hfile⟩ := hreach.file
  rw [liesUnder_join_iff (h.wellFormed hp.wellFormed).2 (ht.descend hfile).2 hne] at hunder
  obtain ⟨rest, hrest, rfl⟩ := hunder
  obtain ⟨henters, hreach⟩ := (reaches_append_iff hdescend hrest).mp hreach
  rcases files_dir_cases hd hp.wellFormed h with ⟨hbelow, -⟩ | ⟨-, gs, hgs, -, hmem'⟩
  · exact absurd (hbelow.of_below hdescend henters) hstuck
  · exact ⟨gs, hgs, (hmem' _).mpr ⟨rest, hrest, hreach, rfl⟩⟩

/-- Where no directory on the way is barred, a run on a directory finds what a run on the whole
project finds under it. -/
lemma files_eq_filter (hopen : ∀ k, 0 < k → k ≤ parts.length → ¬ d.Bars (parts.take k)) :
    (d.files [target]).outcome = .ok (fs.filter (liesUnder (Text.join "/" parts))) := by
  obtain ⟨t, ht, hdescend, hstuck, hsorted, hmem⟩ := exists_whole hd hp h hfs
  have henters := enters_of_not_bars hdescend hstuck hopen
  rcases files_dir_cases hd hp.wellFormed h with ⟨hbelow, -⟩ | ⟨-, gs, hgs, hsorted', hmem'⟩
  · exact absurd (hbelow.of_below hdescend henters) hstuck
  · rw [hgs, eq_of_increasing hsorted' (hsorted.filter _) fun f => ?_]
    rw [hmem', List.mem_filter, hmem]
    have hparts := (h.wellFormed hp.wellFormed).2
    constructor
    · rintro ⟨rest, hrest, hreach, rfl⟩
      have hwhole := (reaches_append_iff hdescend hrest).mpr ⟨henters, hreach⟩
      obtain ⟨bytes, hfile⟩ := hwhole.file
      have hne : parts ++ rest ≠ [] := by simp [hrest]
      exact ⟨⟨_, hne, hwhole, rfl⟩,
        (liesUnder_join_iff hparts (ht.descend hfile).2 hne).mpr ⟨rest, hrest, rfl⟩⟩
    · rintro ⟨⟨names, hne, hreach, rfl⟩, hunder⟩
      obtain ⟨bytes, hfile⟩ := hreach.file
      obtain ⟨rest, hrest, rfl⟩ := (liesUnder_join_iff hparts (ht.descend hfile).2 hne).mp hunder
      exact ⟨rest, hrest, ((reaches_append_iff hdescend hrest).mp hreach).2, rfl⟩

end Part

/-! ## Runs on several targets -/

lemma effectiveTargets_of_ne_nil (root : Path) {targets : List Path} (h : targets ≠ []) :
    effectiveTargets root targets = targets := by
  rw [effectiveTargets, if_neg (mt List.isEmpty_iff.mp h)]

/-- A run on two lists of targets ends when both runs on one of them end, and finds what these find.
All the runs may differ in what their session knows when it comes to a target, but not in what is
true. -/
lemma outcome_files_append_eq_ok_iff (hd : d.Knows d.session) (hp : IsProject d.tree d.root)
    {ts us : List Path} (hts : ts ≠ []) (hus : us ≠ []) {hs : List String} :
    (d.files (ts ++ us)).outcome = .ok hs ↔
      ∃ fs gs, (d.files ts).outcome = .ok fs ∧ (d.files us).outcome = .ok gs ∧
        hs.Pairwise (· < ·) ∧ ∀ f, f ∈ hs ↔ f ∈ fs ∨ f ∈ gs := by
  have hall : ts ++ us ≠ [] := List.append_ne_nil_of_left_ne_nil hts us
  have hfound : ∀ f, (∃ t ∈ ts ++ us, d.Finds t f) ↔
      (∃ t ∈ ts, d.Finds t f) ∨ ∃ t ∈ us, d.Finds t f := by
    intro f
    simp only [List.mem_append, or_and_right, exists_or]
  simp only [effectiveTargets_of_ne_nil _ hts, effectiveTargets_of_ne_nil _ hus,
    effectiveTargets_of_ne_nil _ hall, outcome_files_eq_ok_iff hd hp, hfound,
      List.forall_mem_append]
  constructor
  · rintro ⟨⟨hpass, hpass'⟩, hsorted, hmem⟩
    -- what one list of targets finds, in order, is part of what both find
    have hpart : ∀ vs : List Path, (∀ f, (∃ t ∈ vs, d.Finds t f) → f ∈ hs) →
        ∃ fs : List String, fs.Pairwise (· < ·) ∧ ∀ f, f ∈ fs ↔ ∃ t ∈ vs, d.Finds t f := by
      classical
      intro vs hvs
      refine ⟨hs.filter fun f => decide (∃ t ∈ vs, d.Finds t f), hsorted.filter _, fun f => ?_⟩
      rw [List.mem_filter, decide_eq_true_eq]
      exact and_iff_right_of_imp (hvs f)
    obtain ⟨fs, hfs, hmemfs⟩ := hpart ts fun f hf => (hmem f).mpr (.inl hf)
    obtain ⟨gs, hgs, hmemgs⟩ := hpart us fun f hf => (hmem f).mpr (.inr hf)
    refine ⟨fs, gs, ⟨hpass, hfs, hmemfs⟩, ⟨hpass', hgs, hmemgs⟩, hsorted, fun f => ?_⟩
    rw [hmem, hmemfs, hmemgs]
  · rintro ⟨fs, gs, ⟨hpass, -, hmemfs⟩, ⟨hpass', -, hmemgs⟩, hsorted, hmem⟩
    refine ⟨⟨hpass, hpass'⟩, hsorted, fun f => ?_⟩
    rw [hmem, hmemfs, hmemgs]

/-- What a run on the whole project finds under a directory is also found by a run on the directory,
and if no directory on the way is barred, by name, exclusion or ignore files, nothing else is. A run
on two lists of targets finds, in strictly increasing order, what runs on each of them find. Where
the library raises no exception on the patterns, every run on targets inside the root ends. -/
theorem files_of_part (lib : PatternLibrary) (tree : FileTree) (root : Path) (cfg : LintConfig)
    (d : Discovery lib) (hp : IsProject tree root)
    (hd : (ofConfig lib tree root cfg).outcome = .ok d) :
    (∀ target parts entries, Locates tree root target parts (.dir entries) →
      ∀ fs, (d.files []).outcome = .ok fs →
        (∀ f ∈ fs, liesUnder (Text.join "/" parts) f = true →
          ∃ gs, (d.files [target]).outcome = .ok gs ∧ f ∈ gs) ∧
        ((∀ k, 0 < k → k ≤ parts.length → ¬ d.Bars (parts.take k)) →
          (d.files [target]).outcome = .ok (fs.filter (liesUnder (Text.join "/" parts))))) ∧
      (∀ ts us, ts ≠ [] → us ≠ [] → ∀ hs, (d.files (ts ++ us)).outcome = .ok hs ↔
        ∃ fs gs, (d.files ts).outcome = .ok fs ∧ (d.files us).outcome = .ok gs ∧
          hs.Pairwise (· < ·) ∧ ∀ f, f ∈ hs ↔ f ∈ fs ∨ f ∈ gs) ∧
      (HasPatterns lib tree root cfg → ∀ targets, (∀ t ∈ targets, IsTarget tree root t) →
        ∃ fs, (d.files targets).outcome = .ok fs) := by
  have hchooses := chooses_of_ofConfig hd
  have hknows := hchooses.knows
  obtain rfl := hchooses.tree_eq
  obtain rfl := hchooses.root_eq
  refine ⟨fun target parts entries h fs hfs => ⟨fun f hf hunder => ?_,
    files_eq_filter hknows hp h hfs⟩,
    fun ts us hts hus hs => outcome_files_append_eq_ok_iff hknows hp hts hus,
    fun hpatterns targets htargets => ?_⟩
  · exact exists_files_of_whole hknows hp h hfs hf hunder
  · obtain ⟨fs, hfs, -⟩ := exists_files hknows hp (hchooses.judges hpatterns) htargets
    exact ⟨fs, hfs⟩

/-- Nothing bars the directory of the sample project. -/
lemma not_bars_sample {d : Discovery IgnorePattern.library}
    (hd : d.Chooses sampleTree sampleRoot sampleConfig) : ¬ d.Bars ["a"] := by
  rintro (hname | hexcluded | hignored)
  · exact absurd hname (by decide)
  · have hselects : (IgnorePattern.library.select sampleConfig.exclude).toOption.map
        (IgnorePattern.library.selects · "a/") = some false := by
      decide +kernel
    obtain ⟨selection, hselection, hexclude⟩ := hd.excluded (by decide)
    rw [isExcluded, hexclude] at hexcluded
    rw [hselection, Except.toOption, Option.map_some] at hselects
    exact absurd (hexcluded.symm.trans (Option.some_inj.mp hselects)) (by simp)
  · have hverdict :
        (Ignore.rootPatterns IgnorePattern.library sampleTree sampleRoot).outcome.toOption.map
        (fun top => (Ignore.isIgnored sampleTree sampleRoot top "a/").toOption) =
          some (some false) := by
      decide +kernel
    obtain ⟨top, -, htop, hchosen, -⟩ := hd.top?_eq rfl
    rw [verdictOn, hchosen, hd.tree_eq, hd.root_eq] at hignored
    rw [htop, Except.toOption, Option.map_some] at hverdict
    have hasked : Ignore.isIgnored sampleTree sampleRoot top "a/" = .ok true := hignored
    rw [hasked] at hverdict
    cases hverdict

theorem files_of_part_sample :
    ∃ d fs gs hs,
      (ofConfig IgnorePattern.library sampleTree sampleRoot sampleConfig).outcome = .ok d ∧
      (d.files []).outcome = .ok fs ∧
      (d.files [Path.ofText "a"]).outcome = .ok (fs.filter (liesUnder "a")) ∧
      (d.files [Path.ofText "b.ts"]).outcome = .ok gs ∧
      (d.files ([Path.ofText "b.ts"] ++ [Path.ofText "a"])).outcome = .ok hs ∧
      hs.Pairwise (· < ·) ∧
      ∀ f, f ∈ hs ↔ f ∈ gs ∨ f ∈ fs.filter (liesUnder "a") := by
  obtain ⟨d, hd, hchooses⟩ := exists_ofConfig hasPatterns_sample
  obtain ⟨hpart, happend, hends⟩ :=
    files_of_part IgnorePattern.library sampleTree sampleRoot sampleConfig d isProject_sample hd
  have hends := hends hasPatterns_sample
  obtain ⟨fs, hfs⟩ := hends [] (by simp)
  obtain ⟨hs, hhs⟩ := hends ([Path.ofText "b.ts"] ++ [Path.ofText "a"]) isTarget_sample
  have hopen : ∀ k, 0 < k → k ≤ ["a"].length → ¬ d.Bars (["a"].take k) := by
    intro k hk hle
    obtain rfl : k = 1 := Nat.le_antisymm hle hk
    exact not_bars_sample hchooses
  have ha := (hpart (Path.ofText "a") ["a"] _ ⟨rfl, rfl⟩ fs hfs).2 hopen
  obtain ⟨gs, as, hgs, has, hsorted, hmem⟩ := (happend _ _ (by simp) (by simp) hs).mp hhs
  obtain rfl := Except.ok.inj (has.symm.trans ha)
  exact ⟨d, fs, gs, hs, hd, hfs, ha, hgs, hhs, hsorted, hmem⟩

end Discovery

end EntryLint
