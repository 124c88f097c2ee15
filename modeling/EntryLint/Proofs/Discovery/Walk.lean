import EntryLint.Discovery
import EntryLint.Proofs.Failures
import EntryLint.Proofs.Files.Tree
import EntryLint.Proofs.Ignore.Session

/-!
# Walks through a project

A walk prunes directories while it goes down, and asks one ignore session all the way. `verdictOn`
is what ignore files say about a path without any session, and `Knows` that a session only remembers
what is true, so its answers are these verdicts. `Reaches` says file by file what a walk finds: a
file that is kept itself, where every directory on the way to it is entered. `GetsStuck` says when a
walk fails: it comes to an entry about which ignore files have no answer. The main result is
`walk_settles`: from any such session, a walk over a well-formed tree gets stuck, or it ends and
finds exactly the files that it reaches.
-/

namespace EntryLint.Discovery

variable {lib : PatternLibrary}

/-! ## Verdicts -/

/-- The patterns that hold for the whole project, if ignore files count. -/
def top? (d : Discovery lib) : Option (List lib.Pattern) :=
  d.session.map fun session => (session.levels.get? "").getD []

/-- What ignore files say about a path. A path that ends in a slash is a directory. -/
def verdictOn (d : Discovery lib) (rel : String) : Except Raised Bool :=
  match d.top? with
  | none => .ok false
  | some top => Ignore.isIgnored d.tree d.root top rel

/-- What the session of a search remembers is true: the patterns that it has read, and the verdicts
on the paths that it was asked for. -/
def Knows (d : Discovery lib) (session? : Option (IgnoreSession lib)) : Prop :=
  match d.top?, session? with
  | none, none => True
  | some top, some session => ∃ asked, session.Remembers d.tree d.root top asked
  | _, _ => False

/-- A file that a walk keeps when it meets it. -/
structure Keeps (d : Discovery lib) (rel : String) : Prop where
  lintable : d.isLintable rel = true
  not_excluded : d.isExcluded rel = false
  not_ignored : d.verdictOn rel = .ok false

/-- A directory that a walk enters when it meets it, given by the names on the way to it. -/
structure Enters (d : Discovery lib) (dir : List String) : Prop where
  not_skipped : ∀ name, dir.getLast? = some name → name ≠ ".git" ∧ name ≠ "node_modules"
  not_excluded : d.isExcluded (Text.join "/" dir ++ "/") = false
  not_ignored : d.verdictOn (Text.join "/" dir ++ "/") = .ok false

/-- A walk over the tree `t` at `base` comes by `names` to a file that it keeps. -/
structure Reaches (d : Discovery lib) (base : List String) (t : FileTree) (names : List String) :
    Prop where
  file : ∃ bytes, t.descend names = some (.file bytes)
  keeps : d.Keeps (Text.join "/" (base ++ names))
  enters : ∀ k, 0 < k → k < names.length → d.Enters (base ++ names.take k)

/-- Ignore files give a verdict on every path of proper names. -/
def Judges (d : Discovery lib) : Prop :=
  ∀ rel, (∀ n ∈ Ignore.parts rel, IsFileName n) → ∃ b, d.verdictOn rel = .ok b

/-- Ignore files are asked about an entry that is neither excluded nor left out for its name. -/
def Asks (d : Discovery lib) (names : List String) : FileTree → Prop
  | .file _ => d.isLintable (Text.join "/" names) = true ∧
      d.isExcluded (Text.join "/" names) = false
  | .dir _ => (∀ name, names.getLast? = some name → name ≠ ".git" ∧ name ≠ "node_modules") ∧
      d.isExcluded (Text.join "/" names ++ "/") = false

/-- The path by which ignore files are asked about an entry: that of a directory ends in a slash. -/
def askedPath (names : List String) : FileTree → String
  | .file _ => Text.join "/" names
  | .dir _ => Text.join "/" names ++ "/"

/-- Ignore files are asked about an entry and have no answer. -/
def Puzzles (d : Discovery lib) (names : List String) (node : FileTree) : Prop :=
  d.Asks names node ∧ ∃ e, d.verdictOn (askedPath names node) = .error e

/-- A walk over the tree `t` at `base` comes by `names` to `node`, whatever it makes of it. -/
structure Leads (d : Discovery lib) (base : List String) (t : FileTree) (names : List String)
    (node : FileTree) : Prop where
  descend : t.descend names = some node
  enters : ∀ k, 0 < k → k < names.length → d.Enters (base ++ names.take k)

/-- A walk comes to an entry about which ignore files have no answer. -/
def GetsStuck (d : Discovery lib) (base : List String) (t : FileTree) : Prop :=
  ∃ names node, names ≠ [] ∧ d.Leads base t names node ∧ d.Puzzles (base ++ names) node

variable {d : Discovery lib}

/-! ## Searches -/

/-- A search fails on a line that the library refuses, and only if it gets stuck. -/
def StuckIf (stuck : Prop) (e : DiscoveryError) : Prop :=
  (∃ e', e = .pattern e') ∧ stuck

/-- A search that gets stuck, or ends with a good value, from every session that knows the truth. -/
abbrev Searches {α : Type} (d : Discovery lib) (x : Search lib α) (stuck : Prop) (good : α → Prop) :
    Prop :=
  SettlesWith d.Knows x (StuckIf stuck) good

section Searches

variable {α β : Type} {x : Search lib α} {f : α → Search lib β} {stuck stuck' : Prop}
  {good : α → Prop}
  {good' : β → Prop}

lemma searches_pure {a : α} (h : good a) (hnot : ¬ stuck) : d.Searches (pure a) stuck good :=
  .of_pure h fun _ he => hnot he.2

lemma searches_congr (h : d.Searches x stuck good) (hiff : stuck ↔ stuck') :
    d.Searches x stuck' good :=
  SettlesWith.congr h fun _ => and_congr_right fun _ => hiff

/-- Two searches in a row get stuck with one of them. -/
lemma searches_bind (h : d.Searches x stuck good)
    (hf : ∀ a, good a → d.Searches (f a) stuck' good') :
    d.Searches (x >>= f) (stuck ∨ stuck') good' :=
  (SettlesWith.bind_or h hf).congr fun _ => and_or_left.symm

end Searches

/-- A session that knows the truth answers with it, and goes on knowing it. -/
lemma knows_isIgnored {session : IgnoreSession lib} (h : d.Knows (some session)) (rel : String) :
    (session.isIgnored d.tree rel).2 = d.verdictOn rel ∧
      d.Knows (some (session.isIgnored d.tree rel).1) := by
  unfold Knows verdictOn at *
  cases htop : d.top? with
  | none => simp [htop] at h
  | some top =>
    simp only [htop] at h
    obtain ⟨asked, hremembers⟩ := h
    simp only
    cases hrel : Ignore.isIgnored d.tree d.root top rel with
    | error e =>
      obtain ⟨hanswer, hafter⟩ := hremembers.isIgnored_error hrel
      exact ⟨hanswer, _, hafter⟩
    | ok b =>
      obtain ⟨hanswer, hafter⟩ := hremembers.isIgnored hrel
      exact ⟨hanswer, _, hafter⟩

lemma verdictOn_of_knows_none (h : d.Knows none) (rel : String) : d.verdictOn rel = .ok false := by
  unfold Knows verdictOn at *
  cases htop : d.top? with
  | none => rfl
  | some top => simp [htop] at h

lemma isIgnored_searches (d : Discovery lib) (rel : String) :
    d.Searches (d.isIgnored rel) (∃ e, d.verdictOn rel = .error e) fun b =>
      d.verdictOn rel = .ok b := by
  intro session? h
  cases session? with
  | none =>
    have hnone := verdictOn_of_knows_none h rel
    refine .ok rfl ?_ ⟨hnone, h⟩
    rintro _ ⟨-, e, he⟩
    cases hnone.symm.trans he
  | some session =>
    obtain ⟨hanswer, hknows⟩ := knows_isIgnored h rel
    rw [isIgnored, ask, Traced.outcome_ofExcept]
    cases hask : session.isIgnored d.tree rel with
    | mk session' answer =>
      rw [hask] at hanswer hknows
      simp only at hanswer hknows
      simp only [hanswer]
      cases d.verdictOn rel with
      | error e => exact .error rfl ⟨⟨e, rfl⟩, e, rfl⟩
      | ok b => exact .ok rfl (fun _ he => he.2.elim nofun) ⟨rfl, hknows⟩

/-! ## Single entries -/

lemma keepsFile_searches (d : Discovery lib) (names : List String) (bytes : List UInt8) :
    d.Searches (d.keepsFile (Text.join "/" names)) (d.Puzzles names (.file bytes))
      fun k => k = true ↔ d.Keeps (Text.join "/" names) := by
  rw [keepsFile]
  by_cases hskip :
    (!d.isLintable (Text.join "/" names) || d.isExcluded (Text.join "/" names)) = true
  · rw [if_pos hskip]
    have hnot : ¬ (d.isLintable (Text.join "/" names) = true ∧
        d.isExcluded (Text.join "/" names) = false) := by
      rintro ⟨hl, he⟩
      rw [hl, he] at hskip
      exact absurd hskip (by simp)
    refine searches_pure ⟨fun hfalse => absurd hfalse (by simp), ?_⟩ fun hpuzzles => hnot hpuzzles.1
    exact fun hkeeps => absurd ⟨hkeeps.lintable, hkeeps.not_excluded⟩ hnot
  · rw [if_neg hskip]
    simp only [Bool.or_eq_true, Bool.not_eq_true', not_or, Bool.not_eq_false, Bool.not_eq_true]
      at hskip
    -- only the ignore files are left to decide
    refine searches_congr ((isIgnored_searches d (Text.join "/" names)).bind_pure fun b hb => ?_) ?_
    · constructor
      · intro hkeep
        exact ⟨hskip.1, hskip.2, by rw [hb, show b = false by simpa using hkeep]⟩
      · rintro ⟨-, -, hi⟩
        rw [hb, Except.ok.injEq] at hi
        rw [hi]
        rfl
    · exact ⟨fun he => ⟨hskip, he⟩, And.right⟩

/-- Names that lead to a directory are never empty, so its text takes the mark of a directory as it
is. -/
lemma skipsDir_searches {dir : List String} (hne : dir ≠ []) (h : ∀ n ∈ dir, IsFileName n)
    (hlast : ∀ name, dir.getLast? = some name → name ≠ ".git" ∧ name ≠ "node_modules")
    (entries : List (String × FileTree)) :
    d.Searches (d.skipsDir (Text.join "/" dir)) (d.Puzzles dir (.dir entries))
      fun s => s = false ↔ d.Enters dir := by
  have hdir : d.isDirIgnored (Text.join "/" dir) = d.isIgnored (Text.join "/" dir ++ "/") := by
    rw [← Ignore.asDirectory_join hne h]
    rfl
  rw [skipsDir, hdir]
  by_cases hx : d.isExcluded (Text.join "/" dir ++ "/") = true
  · rw [if_pos hx]
    have hnot : ¬ d.isExcluded (Text.join "/" dir ++ "/") = false := by simp [hx]
    refine searches_pure ⟨fun hfalse => absurd hfalse (by simp), ?_⟩ fun hpuzzles =>
      hnot hpuzzles.1.2
    exact fun henters => absurd henters.not_excluded hnot
  · rw [if_neg hx]
    rw [Bool.not_eq_true] at hx
    refine searches_congr ((isIgnored_searches d (Text.join "/" dir ++ "/")).imp fun s hs => ?_) ?_
    · constructor
      · rintro rfl
        exact ⟨hlast, hx, hs⟩
      · intro henters
        exact Except.ok.inj (hs.symm.trans henters.not_ignored)
    · exact ⟨fun he => ⟨⟨hlast, hx⟩, he⟩, And.right⟩

lemma inside_join {base : List String} (h : ∀ n ∈ base, IsFileName n) (name : String) :
    inside (Text.join "/" base) name = Text.join "/" (base ++ [name]) := by
  rw [inside]
  by_cases hne : base = []
  · subst hne
    rw [Text.join_nil, if_pos rfl, List.nil_append, Text.join_singleton]
  · rw [if_neg (join_ne_empty hne h), Text.join_concat hne]

/-! ## The entries of a directory -/

lemma forall_mem_concat {base : List String} (hbase : ∀ n ∈ base, IsFileName n) {name : String}
    (hname : IsFileName name) : ∀ n ∈ base ++ [name], IsFileName n := by
  intro n hn
  rcases List.mem_append.mp hn with hn | hn
  · exact hbase n hn
  · rw [List.mem_singleton.mp hn]
    exact hname

/-- One more entry in front: what there is among the entries is that one or among the others. -/
lemma exists_mem_cons_iff {β : Type} {c : β → FileTree} (hc : Function.Injective c) {name : String}
    {x : β} {entries : List (String × FileTree)} {P : String → β → Prop} :
    (∃ n y, (n, c y) ∈ (name, c x) :: entries ∧ P n y) ↔
      P name x ∨ ∃ n y, (n, c y) ∈ entries ∧ P n y := by
  simp only [List.mem_cons, Prod.mk.injEq, hc.eq_iff]
  constructor
  · rintro ⟨n, y, ⟨rfl, rfl⟩ | hmem, hP⟩
    · exact .inl hP
    · exact .inr ⟨n, y, hmem, hP⟩
  · rintro (hP | ⟨n, y, hmem, hP⟩)
    · exact ⟨name, x, .inl ⟨rfl, rfl⟩, hP⟩
    · exact ⟨n, y, .inr hmem, hP⟩

/-- What one more file adds to the files of a directory: itself, if it is kept. -/
lemma keptFiles_cons_searches {base : List String} (hbase : ∀ n ∈ base, IsFileName n)
    (name : String) (bytes : List UInt8) {entries : List (String × FileTree)} {stuck : Prop}
    {found : String → Prop} (hrest : d.Searches (d.keptFiles (Text.join "/" base) entries) stuck
      fun fs => ∀ f, f ∈ fs ↔ found f) :
    d.Searches (d.keptFiles (Text.join "/" base) ((name, .file bytes) :: entries))
      (d.Puzzles (base ++ [name]) (.file bytes) ∨ stuck)
      fun fs => ∀ f, f ∈ fs ↔ (f = Text.join "/" (base ++ [name]) ∧ d.Keeps f) ∨ found f := by
  rw [keptFiles, inside_join hbase]
  have hhere := keepsFile_searches d (base ++ [name]) bytes
  refine searches_bind hhere fun k hk => hrest.bind_pure fun fs hfs f => ?_
  cases k with
  | true =>
    have hkeeps := hk.mp rfl
    rw [if_pos rfl, List.mem_cons, hfs]
    exact or_congr_left ⟨fun hf => ⟨hf, hf ▸ hkeeps⟩, And.left⟩
  | false =>
    have hleft : ¬ d.Keeps (Text.join "/" (base ++ [name])) := fun h => absurd (hk.mpr h) (by simp)
    rw [if_neg (by simp), hfs, or_iff_right]
    rintro ⟨rfl, hkeeps⟩
    exact hleft hkeeps

lemma keptFiles_searches {base : List String} (hbase : ∀ n ∈ base, IsFileName n)
    (entries : List (String × FileTree)) :
    d.Searches (d.keptFiles (Text.join "/" base) entries)
      (∃ name bytes, (name, FileTree.file bytes) ∈ entries ∧
        d.Puzzles (base ++ [name]) (.file bytes))
      fun fs => ∀ f, f ∈ fs ↔ ∃ name bytes, (name, FileTree.file bytes) ∈ entries ∧
        f = Text.join "/" (base ++ [name]) ∧ d.Keeps f := by
  induction entries with
  | nil => exact searches_pure (by simp) (by simp)
  | cons e entries ih =>
    obtain ⟨name, t⟩ := e
    have hfile : Function.Injective FileTree.file := fun _ _ => FileTree.file.inj
    cases t with
    | dir es =>
      -- a directory is no file, here and in what is found
      rw [keptFiles]
      refine searches_congr (ih.imp fun fs hfs f => ?_) ?_
      · rw [hfs]
        simp
      · simp
    | file bytes =>
      refine searches_congr
        ((keptFiles_cons_searches hbase name bytes ih).imp fun fs hfs f => ?_) ?_
      · rw [hfs, exists_mem_cons_iff hfile]
      · rw [exists_mem_cons_iff hfile]

/-- A name that is never entered settles a directory before anything is asked about it. -/
lemma neverEntered_iff (base : List String) {name : String} :
    neverEntered.contains name = true ↔
      ¬ ∀ n, (base ++ [name]).getLast? = some n → n ≠ ".git" ∧ n ≠ "node_modules" := by
  simp only [List.getLast?_concat, Option.some_inj, forall_eq', not_and_or, not_not]
  simp [neverEntered]

/-- What one more directory adds to the names of those that are entered: its own, if it is entered.
-/
lemma enteredDirs_cons_searches {base : List String} (hbase : ∀ n ∈ base, IsFileName n)
    {name : String} (hname : IsFileName name) (es : List (String × FileTree))
    {entries : List (String × FileTree)} {stuck : Prop} {found : String → Prop}
    (hrest : d.Searches (d.enteredDirs (Text.join "/" base) entries) stuck
      fun ns => ∀ n, n ∈ ns ↔ found n) :
    d.Searches (d.enteredDirs (Text.join "/" base) ((name, .dir es) :: entries))
      (d.Puzzles (base ++ [name]) (.dir es) ∨ stuck)
      fun ns => ∀ n, n ∈ ns ↔ (n = name ∧ d.Enters (base ++ [name])) ∨ found n := by
  -- a directory that is not entered adds nothing
  have hskipped : ¬ d.Enters (base ++ [name]) → ∀ ns : List String, (∀ n, n ∈ ns ↔ found n) →
      ∀ n, n ∈ ns ↔ (n = name ∧ d.Enters (base ++ [name])) ∨ found n := by
    intro henters ns hns n
    rw [hns, or_iff_right fun h => henters h.2]
  rw [enteredDirs, inside_join hbase]
  by_cases hnever : neverEntered.contains name = true
  · have hnot := (neverEntered_iff base).mp hnever
    rw [if_pos hnever]
    refine searches_congr (hrest.imp (hskipped fun henters => hnot henters.not_skipped)) ?_
    rw [or_iff_right fun hpuzzles => hnot hpuzzles.1.1]
  · have hlast := not_not.mp (mt (neverEntered_iff base).mpr hnever)
    have hhere := skipsDir_searches (d := d) (by simp) (forall_mem_concat hbase hname) hlast es
    rw [if_neg hnever]
    refine searches_bind hhere fun skips hskips => ?_
    cases skips with
    | true =>
      rw [if_pos rfl]
      exact .lift_bind rfl
        (hrest.imp (hskipped fun henters => absurd (hskips.mpr henters) (by simp)))
    | false =>
      rw [if_neg (by simp)]
      refine hrest.bind_pure fun ns hns n => ?_
      rw [List.mem_cons, hns, and_iff_left (hskips.mp rfl)]

/-- The names of the directories that a walk enters. -/
lemma enteredDirs_searches {base : List String} (hbase : ∀ n ∈ base, IsFileName n)
    {entries : List (String × FileTree)} (hnames : ∀ e ∈ entries, IsFileName e.1) :
    d.Searches (d.enteredDirs (Text.join "/" base) entries)
      (∃ name es, (name, FileTree.dir es) ∈ entries ∧ d.Puzzles (base ++ [name]) (.dir es))
      fun ns => ∀ n, n ∈ ns ↔ ∃ name es, (name, FileTree.dir es) ∈ entries ∧
        n = name ∧ d.Enters (base ++ [name]) := by
  induction entries with
  | nil => exact searches_pure (by simp) (by simp)
  | cons e entries ih =>
    obtain ⟨name, t⟩ := e
    rw [List.forall_mem_cons] at hnames
    have hrest := ih hnames.2
    have hdir : Function.Injective FileTree.dir := fun _ _ => FileTree.dir.inj
    cases t with
    | file bytes =>
      rw [enteredDirs]
      refine searches_congr (hrest.imp fun ns hns n => ?_) ?_
      · rw [hns]
        simp
      · simp
    | dir es =>
      refine searches_congr
        ((enteredDirs_cons_searches hbase hnames.1 es hrest).imp fun ns hns n => ?_) ?_
      · rw [hns, exists_mem_cons_iff hdir]
      · rw [exists_mem_cons_iff hdir]

/-! ## The whole walk -/

/-- Below a directory lie the files that are found below the entries that are entered. -/
lemma walkEntries_searches {dir : String} (entered : List String)
    {entries : List (String × FileTree)} {stuck : String × FileTree → Prop}
    {found : String × FileTree → String → Prop}
    (h : ∀ e ∈ entries, d.Searches (d.walk (inside dir e.1) e.2) (stuck e)
      fun fs => ∀ f, f ∈ fs ↔ found e f) :
    d.Searches (d.walkEntries dir entered entries) (∃ e ∈ entries, e.1 ∈ entered ∧ stuck e)
      fun fs => ∀ f, f ∈ fs ↔ ∃ e ∈ entries, e.1 ∈ entered ∧ found e f := by
  induction entries with
  | nil =>
    rw [walkEntries]
    exact searches_pure (by simp) (by simp)
  | cons e entries ih =>
    obtain ⟨name, t⟩ := e
    rw [List.forall_mem_cons] at h
    simp only [List.mem_cons, exists_eq_or_imp]
    rw [walkEntries]
    by_cases hname : name ∈ entered
    · rw [if_pos (List.contains_iff_mem.mpr hname)]
      refine searches_congr (searches_bind h.1 fun below hbelow =>
        (ih h.2).bind_pure fun fs hfs f => ?_) (by simp [hname])
      rw [List.mem_append, hbelow, hfs]
      simp [hname]
    · have hnone : d.Searches (pure []) False fun fs : List String => fs = [] :=
        searches_pure rfl id
      rw [if_neg (mt List.contains_iff_mem.mp hname)]
      refine searches_congr (searches_bind hnone fun below hbelow =>
        (ih h.2).bind_pure fun fs hfs f => ?_) (by simp [hname])
      rw [hbelow, List.nil_append, hfs]
      simp [hname]

/-- One step of `Leads`: the first name leads to the entry, or to a directory that is entered and in
which the rest leads to it. -/
lemma leads_cons_iff {base : List String} {entries : List (String × FileTree)}
    (hd : (entries.map Prod.fst).Nodup) {name : String} {rest : List String} {node : FileTree} :
    d.Leads base (.dir entries) (name :: rest) node ↔
      (rest = [] ∧ (name, node) ∈ entries) ∨
      (rest ≠ [] ∧ ∃ es, (name, FileTree.dir es) ∈ entries ∧ d.Enters (base ++ [name]) ∧
        d.Leads (base ++ [name]) (.dir es) rest node) := by
  constructor
  · rintro ⟨hdescend, henters⟩
    rw [FileTree.descend, Option.bind_eq_some_iff] at hdescend
    obtain ⟨next, hnext, hrest⟩ := hdescend
    have hmem := FileTree.mem_of_lookup? hnext
    cases rest with
    | nil =>
      obtain rfl := Option.some_inj.mp ((FileTree.descend_nil next).symm.trans hrest)
      exact .inl ⟨rfl, hmem⟩
    | cons n rest =>
      cases next with
      | file bytes => exact absurd hrest (by simp [FileTree.descend])
      | dir es =>
        -- the directories on the way are the first one and, one step down, the others
        refine .inr ⟨by simp, es, hmem, henters 1 (by omega) (by simp), hrest, ?_⟩
        intro k hk hlt
        have henter := henters (k + 1) (by omega) (by simpa using hlt)
        rwa [List.take_succ_cons, ← List.singleton_append, ← List.append_assoc] at henter
  · rintro (⟨rfl, hmem⟩ | ⟨-, es, hmem, henter, hrest, henters⟩)
    · refine ⟨by simp [FileTree.descend, FileTree.lookup?_of_mem hd hmem], ?_⟩
      intro k hk hlt
      rw [List.length_singleton] at hlt
      omega
    · refine ⟨by simp [FileTree.descend, FileTree.lookup?_of_mem hd hmem, hrest], ?_⟩
      intro k hk hlt
      cases k with
      | zero => omega
      | succ k =>
        rw [List.take_succ_cons, ← List.singleton_append, ← List.append_assoc]
        by_cases hk0 : k = 0
        · subst hk0
          simpa using henter
        · exact henters k (by omega) (by simpa using hlt)

lemma reaches_iff_leads {base : List String} {t : FileTree} {names : List String} :
    d.Reaches base t names ↔
      (∃ bytes, d.Leads base t names (.file bytes)) ∧ d.Keeps (Text.join "/" (base ++ names)) := by
  constructor
  · rintro ⟨⟨bytes, hfile⟩, hkeeps, henters⟩
    exact ⟨⟨bytes, hfile, henters⟩, hkeeps⟩
  · rintro ⟨⟨bytes, hfile, henters⟩, hkeeps⟩
    exact ⟨⟨bytes, hfile⟩, hkeeps, henters⟩

/-- One step of `GetsStuck`: at an entry of the directory, or below one that is entered. -/
lemma getsStuck_dir_iff {base : List String} {entries : List (String × FileTree)}
    (hd : (entries.map Prod.fst).Nodup) :
    d.GetsStuck base (.dir entries) ↔
      (∃ e ∈ entries, d.Puzzles (base ++ [e.1]) e.2) ∨
      ∃ name es, (name, FileTree.dir es) ∈ entries ∧ d.Enters (base ++ [name]) ∧
        d.GetsStuck (base ++ [name]) (.dir es) := by
  constructor
  · rintro ⟨names, node, hne, hleads, hpuzzles⟩
    obtain ⟨name, rest, rfl⟩ := List.exists_cons_of_ne_nil hne
    rcases (leads_cons_iff hd).mp hleads with ⟨rfl, hmem⟩ | ⟨hrest, es, hmem, henter, hleads⟩
    · exact .inl ⟨_, hmem, hpuzzles⟩
    · refine .inr ⟨name, es, hmem, henter, rest, node, hrest, hleads, ?_⟩
      rwa [List.append_assoc]
  · rintro (⟨⟨name, node⟩, hmem, hpuzzles⟩ | ⟨name, es, hmem, henter, rest, node, hrest,
      hleads, hpuzzles⟩)
    · exact ⟨[name], node, by simp, (leads_cons_iff hd).mpr (.inl ⟨rfl, hmem⟩), hpuzzles⟩
    · refine ⟨name :: rest, node, by simp, ?_, by rwa [List.append_assoc] at hpuzzles⟩
      exact (leads_cons_iff hd).mpr (.inr ⟨hrest, es, hmem, henter, hleads⟩)

/-- One step of `Reaches`: a file of the directory that is kept, or one below a directory that is
entered. -/
lemma exists_reaches_dir_iff {base : List String} {entries : List (String × FileTree)}
    (hd : (entries.map Prod.fst).Nodup) {f : String} :
    (∃ names, names ≠ [] ∧ d.Reaches base (.dir entries) names ∧
        f = Text.join "/" (base ++ names)) ↔
      (∃ name bytes, (name, FileTree.file bytes) ∈ entries ∧
        f = Text.join "/" (base ++ [name]) ∧ d.Keeps f) ∨
      ∃ name es, (name, FileTree.dir es) ∈ entries ∧ d.Enters (base ++ [name]) ∧
        ∃ rest, rest ≠ [] ∧ d.Reaches (base ++ [name]) (.dir es) rest ∧
          f = Text.join "/" (base ++ [name] ++ rest) := by
  constructor
  · rintro ⟨names, hne, hreach, hf⟩
    obtain ⟨⟨bytes, hleads⟩, hkeeps⟩ := reaches_iff_leads.mp hreach
    obtain ⟨name, rest, rfl⟩ := List.exists_cons_of_ne_nil hne
    have happend : base ++ name :: rest = base ++ [name] ++ rest := by simp
    rcases (leads_cons_iff hd).mp hleads with ⟨rfl, hmem⟩ | ⟨hrest, es, hmem, henter, hleads⟩
    · exact .inl ⟨name, bytes, hmem, hf, hf ▸ hkeeps⟩
    · rw [happend] at hf hkeeps
      exact .inr ⟨name, es, hmem, henter, rest, hrest, reaches_iff_leads.mpr ⟨⟨bytes, hleads⟩,
        hkeeps⟩,
        hf⟩
  · rintro (⟨name, bytes, hmem, hf, hkeeps⟩ | ⟨name, es, hmem, henter, rest, hrest, hreach, hf⟩)
    · refine ⟨[name], by simp, reaches_iff_leads.mpr ⟨⟨bytes, ?_⟩, hf ▸ hkeeps⟩, hf⟩
      exact (leads_cons_iff hd).mpr (.inl ⟨rfl, hmem⟩)
    · obtain ⟨⟨bytes, hleads⟩, hkeeps⟩ := reaches_iff_leads.mp hreach
      have happend : base ++ [name] ++ rest = base ++ name :: rest := by simp
      rw [happend] at hf hkeeps
      refine ⟨name :: rest, by simp, reaches_iff_leads.mpr ⟨⟨bytes, ?_⟩, hkeeps⟩, hf⟩
      exact (leads_cons_iff hd).mpr (.inr ⟨hrest, es, hmem, henter, hleads⟩)

/-- Names are distinct, so the entry that is entered is the one that is walked. -/
lemma exists_entered_iff {base : List String} {entries : List (String × FileTree)}
    (hd : (entries.map Prod.fst).Nodup) {entered : List String}
    (hentered : ∀ n, n ∈ entered ↔ ∃ name es, (name, FileTree.dir es) ∈ entries ∧
      n = name ∧ d.Enters (base ++ [name])) {P : String × FileTree → Prop} :
    (∃ e ∈ entries, e.1 ∈ entered ∧ P e) ↔
      ∃ name es, (name, FileTree.dir es) ∈ entries ∧ d.Enters (base ++ [name]) ∧
        P (name, .dir es) := by
  constructor
  · rintro ⟨⟨name, t⟩, hmem, hin, hP⟩
    obtain ⟨_, es, hes, rfl, henter⟩ := (hentered name).mp hin
    have hwalked := FileTree.lookup?_of_mem hd hmem
    have hfound := FileTree.lookup?_of_mem hd hes
    obtain rfl : t = .dir es := Option.some_inj.mp (hwalked.symm.trans hfound)
    exact ⟨name, es, hes, henter, hP⟩
  · rintro ⟨name, es, hes, henter, hP⟩
    exact ⟨_, hes, (hentered name).mpr ⟨name, es, hes, rfl, henter⟩, hP⟩

/-- An entry is a directory or a file. -/
lemma exists_entry_iff {entries : List (String × FileTree)} {P : String × FileTree → Prop} :
    (∃ e ∈ entries, P e) ↔ (∃ name es, (name, FileTree.dir es) ∈ entries ∧ P (name, .dir es)) ∨
      ∃ name bytes, (name, FileTree.file bytes) ∈ entries ∧ P (name, .file bytes) := by
  constructor
  · rintro ⟨⟨name, node⟩, hmem, hP⟩
    cases node with
    | file bytes => exact .inr ⟨name, bytes, hmem, hP⟩
    | dir es => exact .inl ⟨name, es, hmem, hP⟩
  · rintro (⟨name, es, hmem, hP⟩ | ⟨name, bytes, hmem, hP⟩)
    · exact ⟨_, hmem, hP⟩
    · exact ⟨_, hmem, hP⟩

lemma not_leads_file {base : List String} {bytes : List UInt8} {names : List String}
    {node : FileTree} (hne : names ≠ []) : ¬ d.Leads base (.file bytes) names node := by
  intro hleads
  obtain ⟨n, rest, rfl⟩ := List.exists_cons_of_ne_nil hne
  exact absurd hleads.descend (by simp [FileTree.descend])

/-- A walk over a well-formed tree gets stuck, or it ends and finds exactly the files that it
reaches. -/
lemma walk_settles {t : FileTree} (ht : t.WellFormed) :
    ∀ {base : List String}, (∀ n ∈ base, IsFileName n) →
      d.Searches (d.walk (Text.join "/" base) t) (d.GetsStuck base t)
        fun fs => ∀ f, f ∈ fs ↔ ∃ names, names ≠ [] ∧ d.Reaches base t names ∧
          f = Text.join "/" (base ++ names) := by
  induction t using FileTree.induction with
  | file bytes =>
    intro base _
    rw [walk]
    refine searches_pure (fun f => ?_) ?_
    · refine ⟨fun hf => absurd hf List.not_mem_nil, ?_⟩
      rintro ⟨names, hne, hreach, -⟩
      obtain ⟨⟨b, hleads⟩, -⟩ := reaches_iff_leads.mp hreach
      exact absurd hleads (not_leads_file hne)
    · rintro ⟨names, node, hne, hleads, -⟩
      exact not_leads_file hne hleads
  | dir entries ih =>
    intro base hbase
    have hwalks : ∀ e ∈ entries, d.Searches (d.walk (inside (Text.join "/" base) e.1) e.2)
        (d.GetsStuck (base ++ [e.1]) e.2)
        fun fs => ∀ f, f ∈ fs ↔ ∃ names, names ≠ [] ∧ d.Reaches (base ++ [e.1]) e.2 names ∧
          f = Text.join "/" (base ++ [e.1] ++ names) := by
      intro e he
      rw [inside_join hbase]
      exact ih e he (ht.of_mem e he) (forall_mem_concat hbase (ht.names e he))
    have hentered := enteredDirs_searches (d := d) hbase ht.names
    have hkept := keptFiles_searches (d := d) hbase entries
    -- the directories are asked about first, then the files, and the walk goes down last
    have hbelow : ∀ entered, (∀ n, n ∈ entered ↔ ∃ name es, (name, FileTree.dir es) ∈ entries ∧
        n = name ∧ d.Enters (base ++ [name])) →
        d.Searches (d.walkEntries (Text.join "/" base) entered entries)
          (∃ name es, (name, FileTree.dir es) ∈ entries ∧ d.Enters (base ++ [name]) ∧
            d.GetsStuck (base ++ [name]) (.dir es))
          fun fs => ∀ f, f ∈ fs ↔ ∃ name es, (name, FileTree.dir es) ∈ entries ∧
            d.Enters (base ++ [name]) ∧ ∃ names, names ≠ [] ∧
              d.Reaches (base ++ [name]) (.dir es) names ∧
              f = Text.join "/" (base ++ [name] ++ names) := by
      intro entered hnames
      refine searches_congr ((walkEntries_searches entered hwalks).imp fun fs hfs f => ?_)
        (exists_entered_iff ht.distinct hnames)
      rw [hfs, exists_entered_iff ht.distinct hnames]
    rw [walk]
    refine searches_congr (searches_bind hentered fun entered hentered =>
      searches_bind hkept fun files hfiles =>
        (hbelow entered hentered).bind_pure fun below hbelow f => ?_) ?_
    · rw [List.mem_append, hfiles, hbelow, exists_reaches_dir_iff ht.distinct]
    · rw [getsStuck_dir_iff ht.distinct, exists_entry_iff, or_assoc]

/-- The names on the way to an entry that a walk comes to. -/
lemma parts_askedPath {base names : List String} {t node : FileTree} (ht : t.WellFormed)
    (hbase : ∀ n ∈ base, IsFileName n) (h : t.descend names = some node) :
    Ignore.parts (askedPath (base ++ names) node) = base ++ names ∧
      ∀ n ∈ base ++ names, IsFileName n := by
  have hnames : ∀ n ∈ base ++ names, IsFileName n := by
    intro n hn
    rcases List.mem_append.mp hn with hn | hn
    · exact hbase n hn
    · exact (ht.descend h).2 n hn
  refine ⟨?_, hnames⟩
  cases node with
  | file bytes => exact Ignore.parts_join hnames
  | dir es => exact Ignore.parts_join_slash hnames

/-- Where ignore files give a verdict on every path of proper names, no walk gets stuck. -/
lemma Judges.not_getsStuck (hj : d.Judges) {t : FileTree} (ht : t.WellFormed) {base : List String}
    (hbase : ∀ n ∈ base, IsFileName n) : ¬ d.GetsStuck base t := by
  rintro ⟨names, node, -, hleads, -, e, he⟩
  obtain ⟨hparts, hnames⟩ := parts_askedPath ht hbase hleads.descend
  obtain ⟨b, hb⟩ := hj (askedPath (base ++ names) node) (by rwa [hparts])
  rw [hb] at he
  cases he

/-- A walk gets stuck where ignore files count and one on the way to an entry is defective. -/
lemma getsStuck_iff (hroot : ".." ∉ d.root.parts) {t : FileTree} (ht : t.WellFormed)
    {base : List String} (hbase : ∀ n ∈ base, IsFileName n) :
    d.GetsStuck base t ↔ d.session.isSome = true ∧
      ∃ names node, names ≠ [] ∧ d.Leads base t names node ∧ d.Asks (base ++ names) node ∧
        ∃ k, 0 < k ∧ k < (base ++ names).length ∧
          Ignore.Defective lib d.tree
            (d.root.parts ++ (base ++ names).take k ++ [".gitignore"]) := by
  have hverdict : ∀ {names node}, d.Leads base t names node → ∀ {top}, d.top? = some top →
      ((∃ e, d.verdictOn (askedPath (base ++ names) node) = .error e) ↔
        ∃ k, 0 < k ∧ k < (base ++ names).length ∧
          Ignore.Defective lib d.tree
            (d.root.parts ++ (base ++ names).take k ++ [".gitignore"])) := by
    intro names node hleads top htop
    obtain ⟨hparts, hnames⟩ := parts_askedPath ht hbase hleads.descend
    have hproper : ∀ n ∈ Ignore.parts (askedPath (base ++ names) node), IsFileName n := by
      rwa [hparts]
    have h := Ignore.isIgnored_error_iff d.tree hroot top hproper
    rw [hparts] at h
    simpa only [verdictOn, htop] using h
  rw [show d.session.isSome = d.top?.isSome from (Option.isSome_map ..).symm]
  cases hignore : d.top? with
  | none =>
    -- without ignore files every question has an answer
    refine ⟨?_, fun h => absurd h.1 (by simp)⟩
    rintro ⟨names, node, -, -, -, e, he⟩
    rw [verdictOn, hignore] at he
    cases he
  | some top =>
    simp only [Option.isSome_some, true_and]
    constructor
    · rintro ⟨names, node, hne, hleads, hasks, he⟩
      exact ⟨names, node, hne, hleads, hasks, (hverdict hleads hignore).mp he⟩
    · rintro ⟨names, node, hne, hleads, hasks, hk⟩
      exact ⟨names, node, hne, hleads, hasks, (hverdict hleads hignore).mpr hk⟩

end EntryLint.Discovery
