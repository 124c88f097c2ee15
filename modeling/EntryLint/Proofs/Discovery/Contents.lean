import EntryLint.Proofs.Discovery.Files
import EntryLint.Proofs.Files.Shape

/-!
# What is found does not depend on contents

Every path that is found names a file of the project (`namesFile_of_mem_files`). Which paths are
found depends on the shape of the tree and on verdicts about paths, but not on what the files hold
(`Resembles.outcome_files`). A walk over a tree of the same shape comes to the same entries, and
where the verdicts agree, it makes the same of them.
-/

namespace EntryLint.Discovery

variable {lib : PatternLibrary} {d d' : Discovery lib}

/-! ## Found paths name files -/

/-- A path names a file of the project. -/
def NamesFile (tree : FileTree) (root : Path) (f : String) : Prop :=
  ∃ names bytes, (∀ n ∈ names, IsFileName n) ∧
    tree.descend (root.parts ++ names) = some (.file bytes) ∧ f = Text.join "/" names

lemma Finds.namesFile {target : Path} {f : String} (htree : d.tree.WellFormed)
    (h : d.Finds target f) : NamesFile d.tree d.root f := by
  cases h with
  | @named parts bytes hloc hname _ _ =>
    exact ⟨parts, bytes, (hloc.wellFormed htree).2, hloc.descend, hname⟩
  | @below parts names entries hloc hname hreaches =>
    obtain ⟨bytes, hfile⟩ := hreaches.file
    have hdescend : d.tree.descend (d.root.parts ++ (parts ++ names)) = some (.file bytes) := by
      rw [← List.append_assoc, FileTree.descend_append, hloc.descend]
      exact hfile
    refine ⟨parts ++ names, bytes, fun n hn => ?_, hdescend, hname⟩
    exact (htree.descend hdescend).2 n (List.mem_append_right _ hn)

lemma namesFile_of_mem_files (hd : d.Knows d.session) (hp : IsProject d.tree d.root)
    {targets : List Path} {fs : List String} {f : String} (h : (d.files targets).outcome = .ok fs)
    (hf : f ∈ fs) : NamesFile d.tree d.root f := by
  obtain ⟨-, -, hmem⟩ := (outcome_files_eq_ok_iff hd hp).mp h
  obtain ⟨t, -, hfinds⟩ := (hmem f).mp hf
  exact hfinds.namesFile hp.wellFormed

/-! ## Trees of the same shape -/

/-- Two choices of files for trees of the same shape that agree on what they leave out. -/
structure Resembles (d d' : Discovery lib) : Prop where
  shape : d.tree.shape = d'.tree.shape
  root : d.root = d'.root
  extensions : d.extensions = d'.extensions
  exclude : d.exclude = d'.exclude
  verdictOn : ∀ rel, (∀ n ∈ Ignore.parts rel, IsFileName n) → d.verdictOn rel = d'.verdictOn rel

namespace Resembles

lemma symm (h : d.Resembles d') : d'.Resembles d :=
  ⟨h.shape.symm, h.root.symm, h.extensions.symm, h.exclude.symm,
    fun rel hrel => (h.verdictOn rel hrel).symm⟩

lemma isProject (h : d.Resembles d') (hp : IsProject d.tree d.root) :
    IsProject d'.tree d'.root := by
  refine ⟨hp.wellFormed.of_shape h.shape, h.root ▸ hp.resolved, ?_⟩
  obtain ⟨entries, hroot⟩ := hp.descend_root
  obtain ⟨node, hnode, hshape⟩ := FileTree.exists_descend_of_shape h.shape hroot
  obtain ⟨entries', rfl⟩ := FileTree.eq_dir_of_shape hshape
  have hdots : ".." ∉ d.root.parts := hp.resolved ▸ Path.dots_not_mem_resolve d.root
  rw [FileTree.isDir, ← h.root, FileTree.find?_eq_descend hdots, hnode]

lemma isLintable (h : d.Resembles d') (rel : String) : d.isLintable rel = d'.isLintable rel := by
  rw [Discovery.isLintable, Discovery.isLintable, h.extensions]

lemma isExcluded (h : d.Resembles d') (rel : String) : d.isExcluded rel = d'.isExcluded rel := by
  rw [Discovery.isExcluded, Discovery.isExcluded, h.exclude]

lemma keeps (h : d.Resembles d') {names : List String} (hnames : ∀ n ∈ names, IsFileName n)
    (hkeeps : d.Keeps (Text.join "/" names)) : d'.Keeps (Text.join "/" names) where
  lintable := h.isLintable _ ▸ hkeeps.lintable
  not_excluded := h.isExcluded _ ▸ hkeeps.not_excluded
  not_ignored := h.verdictOn _ (by rwa [Ignore.parts_join hnames]) ▸ hkeeps.not_ignored

lemma enters (h : d.Resembles d') {dir : List String} (hdir : ∀ n ∈ dir, IsFileName n)
    (henters : d.Enters dir) : d'.Enters dir where
  not_skipped := henters.not_skipped
  not_excluded := h.isExcluded _ ▸ henters.not_excluded
  not_ignored := h.verdictOn _ (by rwa [Ignore.parts_join_slash hdir]) ▸ henters.not_ignored

section Walk

variable {base names : List String} {t t' : FileTree}

lemma leads (h : d.Resembles d') (ht : t.WellFormed) (hshape : t.shape = t'.shape)
    (hbase : ∀ n ∈ base, IsFileName n) {node : FileTree} (hleads : d.Leads base t names node) :
    ∃ node', d'.Leads base t' names node' ∧ node.shape = node'.shape := by
  obtain ⟨hdescend, henters⟩ := hleads
  obtain ⟨node', hnode', hsame⟩ := FileTree.exists_descend_of_shape hshape hdescend
  refine ⟨node', ⟨hnode', fun k hk hlt => h.enters (fun n hn => ?_) (henters k hk hlt)⟩, hsame⟩
  rcases List.mem_append.mp hn with hn | hn
  · exact hbase n hn
  · exact (ht.descend hdescend).2 n (List.mem_of_mem_take hn)

lemma reaches (h : d.Resembles d') (ht : t.WellFormed) (hshape : t.shape = t'.shape)
    (hbase : ∀ n ∈ base, IsFileName n) (hreaches : d.Reaches base t names) :
    d'.Reaches base t' names := by
  obtain ⟨⟨bytes, hleads⟩, hkeeps⟩ := reaches_iff_leads.mp hreaches
  obtain ⟨node', hleads', hsame⟩ := h.leads ht hshape hbase hleads
  obtain ⟨bytes', rfl⟩ := FileTree.eq_file_of_shape hsame
  refine reaches_iff_leads.mpr ⟨⟨bytes', hleads'⟩, h.keeps (fun n hn => ?_) hkeeps⟩
  rcases List.mem_append.mp hn with hn | hn
  · exact hbase n hn
  · exact (ht.descend hleads.descend).2 n hn

lemma getsStuck (h : d.Resembles d') (ht : t.WellFormed) (hshape : t.shape = t'.shape)
    (hbase : ∀ n ∈ base, IsFileName n) (hstuck : d.GetsStuck base t) : d'.GetsStuck base t' := by
  obtain ⟨names, node, hne, hleads, hasks, e, hverdict⟩ := hstuck
  obtain ⟨node', hleads', hsame⟩ := h.leads ht hshape hbase hleads
  obtain ⟨hparts, hproper⟩ := parts_askedPath ht hbase hleads.descend
  rw [h.verdictOn _ (by rwa [hparts])] at hverdict
  -- an entry of the same kind stands there, and nothing else is asked
  cases node with
  | file bytes =>
    obtain ⟨bytes', rfl⟩ := FileTree.eq_file_of_shape hsame
    exact ⟨names, _, hne, hleads', ⟨h.isLintable _ ▸ hasks.1, h.isExcluded _ ▸ hasks.2⟩, e,
      hverdict⟩
  | dir entries =>
    obtain ⟨entries', rfl⟩ := FileTree.eq_dir_of_shape hsame
    exact ⟨names, _, hne, hleads', ⟨hasks.1, h.isExcluded _ ▸ hasks.2⟩, e, hverdict⟩

end Walk

section Targets

variable {target : Path}

lemma locates (h : d.Resembles d') {parts : List String} {node : FileTree}
    (hloc : Locates d.tree d.root target parts node) :
    ∃ node', Locates d'.tree d'.root target parts node' ∧ node.shape = node'.shape := by
  obtain ⟨node', hfind, hsame⟩ := FileTree.exists_find?_of_shape h.shape hloc.found
  exact ⟨node', ⟨h.root ▸ hfind, h.root ▸ hloc.inside⟩, hsame⟩

lemma finds (h : d.Resembles d') (htree : d.tree.WellFormed) {f : String}
    (hfinds : d.Finds target f) : d'.Finds target f := by
  cases hfinds with
  | named hloc hname hlint hexcluded =>
    obtain ⟨node', hloc', hsame⟩ := h.locates hloc
    obtain ⟨bytes', rfl⟩ := FileTree.eq_file_of_shape hsame
    exact .named hloc' hname (h.isLintable _ ▸ hlint) (h.isExcluded _ ▸ hexcluded)
  | below hloc hname hreaches =>
    obtain ⟨node', hloc', hsame⟩ := h.locates hloc
    obtain ⟨entries', rfl⟩ := FileTree.eq_dir_of_shape hsame
    obtain ⟨hdir, hparts⟩ := hloc.wellFormed htree
    exact .below hloc' hname (h.reaches hdir hsame hparts hreaches)

lemma targetFails (h : d.Resembles d') (htree : d.tree.WellFormed) {e : DiscoveryError}
    (hfails : d.TargetFails target e) : d'.TargetFails target e := by
  cases hfails with
  | missing hnone =>
    refine .missing (Option.eq_none_iff_forall_ne_some.mpr fun node hnode => ?_)
    rw [← h.root] at hnode
    obtain ⟨node', hnode', -⟩ := FileTree.exists_find?_of_shape h.shape.symm hnode
    cases hnone.symm.trans hnode'
  | outside hfound hnone =>
    obtain ⟨node', hnode', -⟩ := FileTree.exists_find?_of_shape h.shape hfound
    rw [h.root] at hnode' hnone ⊢
    exact .outside hnode' hnone
  | stuck hloc hstuck =>
    obtain ⟨node', hloc', hsame⟩ := h.locates hloc
    obtain ⟨entries', rfl⟩ := FileTree.eq_dir_of_shape hsame
    obtain ⟨hdir, hparts⟩ := hloc.wellFormed htree
    exact .stuck hloc' (h.getsStuck hdir hsame hparts hstuck)

/-- The same files are found in both. -/
lemma outcome_files (h : d.Resembles d') (hp : IsProject d.tree d.root) (hd : d.Knows d.session)
    (hd' : d'.Knows d'.session) {targets : List Path} {fs : List String}
    (hfs : (d.files targets).outcome = .ok fs) : (d'.files targets).outcome = .ok fs := by
  have hp' := h.isProject hp
  rw [outcome_files_eq_ok_iff hd hp] at hfs
  obtain ⟨hpass, hsorted, hmem⟩ := hfs
  rw [h.root] at hpass hmem
  refine (outcome_files_eq_ok_iff hd' hp').mpr ⟨fun t ht e hfails => ?_, hsorted, fun f => ?_⟩
  · exact hpass t ht e (h.symm.targetFails hp'.wellFormed hfails)
  · rw [hmem]
    constructor
    · rintro ⟨t, ht, hfinds⟩
      exact ⟨t, ht, h.finds hp.wellFormed hfinds⟩
    · rintro ⟨t, ht, hfinds⟩
      exact ⟨t, ht, h.symm.finds hp'.wellFormed hfinds⟩

end Targets

end Resembles

/-! ## Other contents -/

section Rewritten

variable {tree tree' : FileTree} {root : Path} {cfg : LintConfig}

lemma outcome_sessionOf_of_sameFiles (lib : PatternLibrary) (h : Ignore.SameFiles tree tree' root)
    (hroot : ".." ∉ root.parts) (cfg : LintConfig) :
    (sessionOf lib tree root cfg).outcome = (sessionOf lib tree' root cfg).outcome := by
  rw [sessionOf, sessionOf]
  split
  · rw [Traced.outcome_bind, Traced.outcome_bind, Traced.outcome_mapError, Traced.outcome_mapError,
      IgnoreSession.outcome_start, IgnoreSession.outcome_start, h.outcome_rootPatterns hroot]
  · rfl

/-- A configuration makes the same choice where ignore files are the same. -/
lemma ofConfig_of_sameFiles (h : Ignore.SameFiles tree tree' root) (hroot : ".." ∉ root.parts)
    (hd : (ofConfig lib tree root cfg).outcome = .ok d) :
    (ofConfig lib tree' root cfg).outcome = .ok { d with tree := tree' } := by
  rw [ofConfig, Traced.outcome_bind_eq_ok_iff] at hd
  obtain ⟨exclude, hexclude, hd⟩ := hd
  rw [Traced.outcome_bind_eq_ok_iff] at hd
  obtain ⟨session, hsession, hd⟩ := hd
  obtain rfl := Except.ok.inj hd
  rw [outcome_sessionOf_of_sameFiles lib h hroot] at hsession
  rw [ofConfig, Traced.outcome_bind_ok hexclude, Traced.outcome_bind_ok hsession]
  rfl

/-- Other contents of files that are no ignore files change no verdict. -/
lemma resembles_of_sameFiles (hshape : d.tree.shape = tree'.shape)
    (h : Ignore.SameFiles d.tree tree' d.root) (hroot : ".." ∉ d.root.parts) :
    d.Resembles { d with tree := tree' } where
  shape := hshape
  root := rfl
  extensions := rfl
  exclude := rfl
  verdictOn := by
    intro rel hrel
    rw [verdictOn, verdictOn]
    have htop : top? { d with tree := tree' } = d.top? := rfl
    rw [htop]
    cases d.top? with
    | none => rfl
    | some top => exact h.isIgnored hroot top hrel

end Rewritten

end EntryLint.Discovery
