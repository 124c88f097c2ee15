import EntryLint.Proofs.Ignore.Session

/-!
# Ignore files of other directories

The ignore file of a directory judges what lies strictly below that directory and nothing else.
Between two trees that differ in one such file alone, sessions cannot be told apart by questions
about other paths: they give the same answers, fail in the same way and remember the same
(`IgnoreSession.ask_beside`).
-/

namespace EntryLint

namespace Ignore

/-- A path lies strictly below a directory. -/
def StrictlyBelow (dir : List String) (rel : String) : Prop :=
  dir <+: parts rel ∧ dir ≠ parts rel

instance (dir : List String) (rel : String) : Decidable (StrictlyBelow dir rel) :=
  inferInstanceAs (Decidable (_ ∧ _))

/-- The place of the ignore file of a directory. -/
def ignoreFile (root : Path) (dir : List String) : List String :=
  root.parts ++ dir ++ [".gitignore"]

variable {lib : PatternLibrary} {tree tree' : FileTree} {root : Path} {dir : List String}
  {rel : String}

/-! ## Files that are read -/

/-- The place of an ignore file leads to that of another only from above. -/
lemma prefix_of_ignoreFile {other : List String}
    (h : ignoreFile root dir <+: ignoreFile root other) : dir <+: other := by
  rw [ignoreFile, ignoreFile, List.append_assoc, List.append_assoc, List.prefix_append_right_inj,
    List.prefix_concat_iff] at h
  rcases h with heq | hstart
  · obtain rfl := List.append_cancel_right heq
    exact List.prefix_rfl
  · exact (List.prefix_append dir _).trans hstart

lemma levelPatterns_of_sameOutside (hsame : FileTree.SameOutside (ignoreFile root dir) tree tree')
    (hroot : ".." ∉ root.parts) {other : List String} (hother : ∀ n ∈ other, IsFileName n)
    (hnot : ¬ dir <+: other) :
    levelPatterns lib tree root (Text.join "/" other) =
      levelPatterns lib tree' root (Text.join "/" other) := by
  rw [levelPatterns_eq_patternsOf lib tree hroot hother,
    levelPatterns_eq_patternsOf lib tree' hroot hother]
  exact congrArg (patternsOf lib) (hsame _ fun h => hnot (prefix_of_ignoreFile h))

/-- The patterns of the root do not come from the ignore file of another directory. -/
lemma outcome_rootPatterns_of_sameOutside (lib : PatternLibrary) (hdir : dir ≠ [])
    (hsame : FileTree.SameOutside (ignoreFile root dir) tree tree') (hroot : ".." ∉ root.parts) :
    (rootPatterns lib tree root).outcome = (rootPatterns lib tree' root).outcome := by
  have hexcluded : ¬ ignoreFile root dir <+: root.parts ++ [".git", "info", "exclude"] := by
    intro h
    rw [ignoreFile, List.append_assoc, List.prefix_append_right_inj] at h
    have hmem : ".gitignore" ∈ [".git", "info", "exclude"] := h.subset (by simp)
    exact absurd hmem (by decide)
  have hignored : ¬ ignoreFile root dir <+: ignoreFile root [] :=
    fun h => hdir (List.prefix_nil.mp (prefix_of_ignoreFile h))
  rw [outcome_rootPatterns tree hroot, outcome_rootPatterns tree' hroot, hsame _ hexcluded]
  have htop : tree.contents? (root.parts ++ [] ++ [".gitignore"]) =
      tree'.contents? (root.parts ++ [] ++ [".gitignore"]) := hsame _ hignored
  rw [htop]

/-- No level of a path is the directory itself, unless the path lies strictly below it. -/
lemma not_prefix_of_level (hbeside : ¬ StrictlyBelow dir rel) {n : Nat}
    (hn : n < (parts rel).length) :
    ¬ dir <+: (parts rel).take n := by
  intro hstart
  have hlevel : dir.length ≤ n := Nat.le_trans hstart.length_le (List.length_take_le n _)
  refine hbeside ⟨hstart.trans (List.take_prefix n _), ?_⟩
  rintro rfl
  omega

/-- The levels of a path are the same in both trees, unless it lies strictly below the directory. -/
lemma levelPatterns_of_mem_levels (lib : PatternLibrary)
    (hsame : FileTree.SameOutside (ignoreFile root dir) tree tree')
    (hroot : ".." ∉ root.parts) (hrel : ∀ n ∈ parts rel, IsFileName n)
    (hbeside : ¬ StrictlyBelow dir rel) :
    ∀ level ∈ levels rel, levelPatterns lib tree root level.1 =
        levelPatterns lib tree' root level.1 := by
  intro level hlevel
  rw [levels, List.mem_map] at hlevel
  obtain ⟨n, hn, rfl⟩ := hlevel
  exact levelPatterns_of_sameOutside hsame hroot (fun m hm => hrel m (List.mem_of_mem_take hm))
    (not_prefix_of_level hbeside (List.mem_range.mp hn))

end Ignore

/-! ## Questions -/

/-- A question to a session: a path of proper names, or none for the root, and whether it is asked
for as a directory. -/
structure PathQuestion where
  rel : String
  proper : ∀ n ∈ Ignore.parts rel, IsFileName n
  asDirectory : Bool

namespace PathQuestion

variable {lib : PatternLibrary}

/-- Puts the question to a session. -/
def ask (q : PathQuestion) (tree : FileTree) (session : IgnoreSession lib) :
    IgnoreSession lib × Except Raised Bool :=
  if q.asDirectory then session.isDirIgnored tree q.rel else session.isIgnored tree q.rel

/-- The path under which the answer is remembered. -/
def key (q : PathQuestion) : String :=
  if q.asDirectory then Ignore.asDirectory q.rel else q.rel

lemma ask_eq_isIgnored (q : PathQuestion) (tree : FileTree) (session : IgnoreSession lib) :
    q.ask tree session = session.isIgnored tree q.key := by
  rw [ask, key]
  cases q.asDirectory with
  | true => rw [if_pos rfl, if_pos rfl, IgnoreSession.isDirIgnored]
  | false => rw [if_neg Bool.false_ne_true, if_neg Bool.false_ne_true]

lemma parts_key (q : PathQuestion) : Ignore.parts q.key = Ignore.parts q.rel := by
  rw [key]
  cases q.asDirectory with
  | true => exact Ignore.parts_asDirectory q.rel
  | false => rfl

end PathQuestion

/-! ## Sessions on two trees -/

namespace IgnoreSession

variable {lib : PatternLibrary}

/-- The session after some questions. -/
def after (tree : FileTree) (session : IgnoreSession lib) (questions : List PathQuestion) :
    IgnoreSession lib :=
  questions.foldl (fun session q => (q.ask tree session).1) session

lemma after_nil (tree : FileTree) (session : IgnoreSession lib) : session.after tree [] = session :=
  List.foldl_nil

lemma after_cons (tree : FileTree) (session : IgnoreSession lib) (q : PathQuestion)
    (questions : List PathQuestion) :
    session.after tree (q :: questions) = (q.ask tree session).1.after tree questions :=
  List.foldl_cons ..

variable {tree tree' : FileTree} {root : Path} {dir : List String} {session : IgnoreSession lib}

lemma root_patternsAt (session : IgnoreSession lib) (tree : FileTree) (dir : String) :
    (session.patternsAt tree dir).1.root = session.root := by
  rw [patternsAt]
  cases session.levels.get? dir with
  | some patterns => rfl
  | none =>
    cases Ignore.levelPatterns lib tree session.root dir with
    | error e => rfl
    | ok patterns => rfl

lemma root_decideLevels (tree : FileTree) (levels : List (String × String)) :
    ∀ (session : IgnoreSession lib) (earlier : Bool),
      (decideLevels tree session earlier levels).1.root = session.root := by
  induction levels with
  | nil => exact fun session earlier => rfl
  | cons level levels ih =>
    intro session earlier
    have hroot := root_patternsAt session tree level.1
    rw [decideLevels]
    cases hat : session.patternsAt tree level.1 with
    | mk session₁ result =>
      rw [hat] at hroot
      cases result with
      | error e => exact hroot
      | ok patterns => exact (ih session₁ _).trans hroot

lemma root_isIgnored (session : IgnoreSession lib) (tree : FileTree) (rel : String) :
    (session.isIgnored tree rel).1.root = session.root := by
  have hroot := root_decideLevels tree (Ignore.levels rel) session false
  rw [isIgnored]
  cases session.verdicts.get? rel with
  | some verdict => rfl
  | none =>
    cases hdecide : decideLevels tree session false (Ignore.levels rel) with
    | mk session₁ result =>
      rw [hdecide] at hroot
      cases result with
      | error e => simpa only [hdecide] using hroot
      | ok verdict => simpa only [hdecide] using hroot

/-- Levels that read the same are judged the same, and leave the same behind. -/
lemma decideLevels_congr (levels : List (String × String)) :
    ∀ {session : IgnoreSession lib} (earlier : Bool), session.root = root →
      (∀ level ∈ levels, Ignore.levelPatterns lib tree root level.1 =
        Ignore.levelPatterns lib tree' root level.1) →
      decideLevels tree session earlier levels = decideLevels tree' session earlier levels := by
  induction levels with
  | nil => exact fun _ _ _ => rfl
  | cons level levels ih =>
    intro session earlier hroot h
    rw [List.forall_mem_cons] at h
    have hat : session.patternsAt tree level.1 = session.patternsAt tree' level.1 := by
      rw [patternsAt, patternsAt, hroot, h.1]
    have hkept := root_patternsAt session tree' level.1
    rw [decideLevels, decideLevels, hat]
    cases hread : session.patternsAt tree' level.1 with
    | mk session₁ result =>
      rw [hread] at hkept
      cases result with
      | error e => rfl
      | ok patterns => exact ih _ (hkept.trans hroot) h.2

/-- A question about a path that does not lie strictly below the directory has the same answer in
both trees, and what is remembered afterwards is the same. -/
lemma ask_of_sameOutside (hsame : FileTree.SameOutside (Ignore.ignoreFile root dir) tree tree')
    (hdots : ".." ∉ root.parts) (hroot : session.root = root) {q : PathQuestion}
    (hq : ¬ Ignore.StrictlyBelow dir q.rel) : q.ask tree session = q.ask tree' session := by
  have hkey : ¬ Ignore.StrictlyBelow dir q.key := by
    rwa [Ignore.StrictlyBelow, q.parts_key]
  have hlevels := Ignore.levelPatterns_of_mem_levels lib hsame hdots
    (by rw [q.parts_key]; exact q.proper) hkey
  rw [q.ask_eq_isIgnored, q.ask_eq_isIgnored, isIgnored, isIgnored,
    decideLevels_congr (Ignore.levels q.key) false hroot hlevels]

lemma after_of_sameOutside (hsame : FileTree.SameOutside (Ignore.ignoreFile root dir) tree tree')
    (hdots : ".." ∉ root.parts) {questions : List PathQuestion}
    (hquestions : ∀ q ∈ questions, ¬ Ignore.StrictlyBelow dir q.rel) :
    ∀ {session : IgnoreSession lib}, session.root = root →
      session.after tree questions = session.after tree' questions ∧
        (session.after tree questions).root = root := by
  induction questions with
  | nil =>
    intro session hroot
    rw [after_nil, after_nil]
    exact ⟨rfl, hroot⟩
  | cons q questions ih =>
    intro session hroot
    rw [List.forall_mem_cons] at hquestions
    have hask := ask_of_sameOutside hsame hdots hroot hquestions.1
    have hkept : (q.ask tree session).1.root = root := by
      rw [q.ask_eq_isIgnored, root_isIgnored, hroot]
    rw [after_cons, after_cons, ← hask]
    exact ih hquestions.2 hkept

lemma root_of_start (h : (start lib tree root).outcome = .ok session) : session.root = root := by
  rw [outcome_start] at h
  cases htop : (Ignore.rootPatterns lib tree root).outcome with
  | error e =>
    rw [htop] at h
    cases h
  | ok top =>
    rw [htop] at h
    rw [← Except.ok.inj h]

lemma eq_ok_of_toOption {ε α : Type} {x : Except ε α} {a : α} (h : x.toOption = some a) :
    x = .ok a := by
  cases x with
  | error e => cases h
  | ok b => exact congrArg Except.ok (Option.some.inj h)

/-- Two trees may differ in what the ignore file of a directory below the root holds, and in whether
it is there. Whatever was asked before about paths that are not strictly below that directory, every
further question about such a path, as a file or as a directory, has the same answer in both trees.
-/
theorem ask_beside (lib : PatternLibrary) (path : Path) (tree tree' : FileTree) (dir : List String)
    (hdir : dir ≠ [])
    (hsame : FileTree.SameOutside (Ignore.ignoreFile path.resolve dir) tree tree') :
    (start lib tree path.resolve).outcome = (start lib tree' path.resolve).outcome ∧
      ∀ session, (start lib tree path.resolve).outcome = .ok session →
        ∀ earlier : List PathQuestion, (∀ q ∈ earlier, ¬ Ignore.StrictlyBelow dir q.rel) →
          session.after tree earlier = session.after tree' earlier ∧
            ∀ q : PathQuestion, ¬ Ignore.StrictlyBelow dir q.rel →
              (q.ask tree (session.after tree earlier)).2 =
                (q.ask tree' (session.after tree' earlier)).2 := by
  have hdots := Path.dots_not_mem_resolve path
  have htop := Ignore.outcome_rootPatterns_of_sameOutside lib hdir hsame hdots
  refine ⟨by rw [outcome_start, outcome_start, htop], ?_⟩
  intro session hstart earlier hearlier
  obtain ⟨hafter, hroot⟩ := after_of_sameOutside hsame hdots hearlier (root_of_start hstart)
  refine ⟨hafter, fun q hq => ?_⟩
  rw [← hafter, ask_of_sameOutside hsame hdots hroot hq]

/-- A project at `/p` with two directories, one named like the other and more. Only the second has
an ignore file. -/
def besideTree : FileTree :=
  .dir [("p", .dir [(".gitignore", .file "*.ts\n".toUTF8.toList), ("src", .dir []),
    ("srcgen", .dir [(".gitignore", .file "!keep.ts\n".toUTF8.toList)])])]

/-- The same project where the first has an ignore file as well, with a line that is no pattern. -/
def besideTree' : FileTree :=
  besideTree.insert ["p", "src", ".gitignore"] (.file "!\n".toUTF8.toList)

/-- The root, the first directory, and a file in the second one. -/
def besideQuestions : List PathQuestion :=
  [⟨"", by decide, true⟩, ⟨"src", by decide, true⟩, ⟨"srcgen/keep.ts", by decide, false⟩]

/-- The answers about a file beside the first directory agree, and those about a file below it do
not. -/
theorem ask_beside_sample :
    let q : PathQuestion := ⟨"srcgen/a.ts", by decide, false⟩
    let below : PathQuestion := ⟨"src/a.ts", by decide, false⟩
    ∃ session, (start IgnorePattern.library besideTree samplePath.resolve).outcome = .ok session ∧
      (start IgnorePattern.library besideTree' samplePath.resolve).outcome = .ok session ∧
      (q.ask besideTree (session.after besideTree besideQuestions)).2 = .ok true ∧
      (q.ask besideTree' (session.after besideTree' besideQuestions)).2 = .ok true ∧
      (below.ask besideTree session).2 ≠ (below.ask besideTree' session).2 := by
  intro q below
  have hsame : FileTree.SameOutside (Ignore.ignoreFile samplePath.resolve ["src"]) besideTree
      besideTree' := FileTree.sameOutside_insert (by decide) _
  obtain ⟨hstart, hbeside⟩ := ask_beside IgnorePattern.library samplePath besideTree besideTree'
    ["src"] (by simp) hsame
  have hanswers : ((start IgnorePattern.library besideTree samplePath.resolve).outcome.toOption.map
      fun session =>
      ((q.ask besideTree (session.after besideTree besideQuestions)).2.toOption,
        (below.ask besideTree session).2.toOption, (below.ask besideTree' session).2.toOption)) =
      some (some true, some true, none) := by
    decide +kernel
  obtain ⟨session, hsession, hvalues⟩ := Option.map_eq_some_iff.mp hanswers
  have hok : (start IgnorePattern.library besideTree samplePath.resolve).outcome = .ok session :=
    eq_ok_of_toOption hsession
  obtain ⟨hq, hbelow⟩ := Prod.mk.inj hvalues
  obtain ⟨hbelow, hbelow'⟩ := Prod.mk.inj hbelow
  obtain ⟨-, hanswer⟩ := hbeside session hok besideQuestions (by decide)
  refine ⟨session, hok, hstart ▸ hok, eq_ok_of_toOption hq, ?_, ?_⟩
  · rw [← hanswer q (by decide)]
    exact eq_ok_of_toOption hq
  · intro heq
    rw [heq, hbelow'] at hbelow
    cases hbelow

end IgnoreSession

end EntryLint
