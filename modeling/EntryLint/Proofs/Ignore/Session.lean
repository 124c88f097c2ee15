import EntryLint.Ignore.Pattern
import EntryLint.Ignore.Session
import EntryLint.Proofs.Ignore.Levels
import Mathlib.Data.List.Induction

/-!
# Answers of ignore sessions

A session answers every query as if it were the first: by the last pattern that matches, among those
of `.git/info/exclude`, of the ignore file at the root and of the ignore files on the way to the
path. What it remembers are answers to the queries that were asked and to no others
(`IgnoreSession.askAll_eq_reference`).
-/

namespace EntryLint

namespace Ignore

variable {lib : PatternLibrary}

/-! ## The reference -/

/-- The patterns of an ignore file below the root. A file that is missing has none. -/
def filePatterns (lib : PatternLibrary) (tree : FileTree) (root : Path) (names : List String) :
    List lib.Pattern :=
  (patternsOf lib (tree.contents? (root.parts ++ names))).toOption.getD []

/-- The patterns that judge a path of some names, each with the path as it is seen from the
directory of its file. The slash of a directory stays at the end of the path. -/
def trials (lib : PatternLibrary) (tree : FileTree) (root : Path) (names : List String)
    (slash : String) : List (lib.Pattern × String) :=
  (filePatterns lib tree root [".git", "info", "exclude"]).map (·, Text.join "/" names ++ slash) ++
    (List.range names.length).flatMap fun n =>
      (filePatterns lib tree root (names.take n ++ [".gitignore"])).map
        (·, Text.join "/" (names.drop n) ++ slash)

/-- The sign of the last pattern that matches its path. -/
def lastMatch (trials : List (lib.Pattern × String)) : Bool :=
  match trials.reverse.find? fun t => lib.accepts t.1 t.2 with
  | some t => (lib.sign t.1).getD false
  | none => false

/-- The verdict after one more pattern. -/
def judge (earlier : Bool) (t : lib.Pattern × String) : Bool :=
  if lib.accepts t.1 t.2 then (lib.sign t.1).getD false else earlier

/-- Overwriting a verdict pattern by pattern leaves that of the last match. -/
lemma foldl_judge (ts : List (lib.Pattern × String)) : ts.foldl judge false = lastMatch ts := by
  induction ts using List.reverseRecOn with
  | nil => rfl
  | append_singleton ts t ih =>
    rw [List.foldl_append, ih, List.foldl_cons, List.foldl_nil, judge, lastMatch, lastMatch,
      List.reverse_concat, List.find?_cons]
    cases lib.accepts t.1 t.2 with
    | true => rfl
    | false => rfl

lemma verdict_eq_foldl (patterns : List lib.Pattern) (path : String) (earlier : Bool) :
    lib.verdict patterns path earlier = (patterns.map (·, path)).foldl judge earlier := by
  rw [List.foldl_map]
  rfl

/-- Level after level is judged as all levels at once. -/
lemma foldlM_verdict {patternsAt : String → Except Raised (List lib.Pattern)}
    {level : Nat → String × String} {patterns : Nat → List lib.Pattern} {ks : List Nat}
    (h : ∀ k ∈ ks, patternsAt (level k).1 = .ok (patterns k)) (earlier : Bool) :
    ((ks.map level).foldlM (fun earlier l => do
      return lib.verdict (← patternsAt l.1) l.2 earlier) earlier) =
      .ok ((ks.flatMap fun k => (patterns k).map (·, (level k).2)).foldl judge earlier) := by
  induction ks generalizing earlier with
  | nil => rfl
  | cons k ks ih =>
    rw [List.forall_mem_cons] at h
    rw [List.map_cons, List.foldlM_cons, h.1, List.flatMap_cons, List.foldl_append,
      ← verdict_eq_foldl]
    exact ih h.2 _

/-! ## Ignore files of a readable project -/

section Readable

variable {tree : FileTree} {root : Path} {top : List lib.Pattern}

/-- The patterns that hold for the whole project come from two files, one after the other. -/
lemma eq_of_outcome_rootPatterns (hroot : ".." ∉ root.parts)
    (htop : (rootPatterns lib tree root).outcome = .ok top) :
    top = filePatterns lib tree root [".git", "info", "exclude"] ++
      filePatterns lib tree root [".gitignore"] := by
  rw [outcome_rootPatterns tree hroot, List.append_nil] at htop
  rw [filePatterns, filePatterns]
  cases hexcluded : patternsOf lib (tree.contents? (root.parts ++ [".git", "info", "exclude"])) with
  | error e =>
    rw [hexcluded] at htop
    cases htop
  | ok excluded =>
    cases hignored : patternsOf lib (tree.contents? (root.parts ++ [".gitignore"])) with
    | error e =>
      rw [hexcluded, hignored] at htop
      cases htop
    | ok ignored =>
      rw [hexcluded, hignored] at htop
      exact (Except.ok.inj htop).symm

lemma levelPatterns_eq_filePatterns (h : Readable lib tree root) (hroot : ".." ∉ root.parts)
    {dir : List String} (hdir : ∀ n ∈ dir, IsFileName n) :
    levelPatterns lib tree root (Text.join "/" dir) =
      .ok (filePatterns lib tree root (dir ++ [".gitignore"])) := by
  obtain ⟨patterns, hpatterns⟩ := h.nested dir hdir
  have hfile := levelPatterns_eq_patternsOf lib tree hroot hdir
  rw [hpatterns, List.append_assoc] at hfile
  rw [hpatterns, filePatterns, ← hfile]
  rfl

/-- The patterns of the directories above a path, level by level. The first level is the root. -/
lemma patternsAt_take (h : Readable lib tree root) (hroot : ".." ∉ root.parts) {names : List String}
    (hnames : ∀ n ∈ names, IsFileName n) {k : Nat} (hk : k < names.length) :
    patternsAt tree root top (Text.join "/" (names.take k)) =
      .ok (if k = 0 then top else filePatterns lib tree root (names.take k ++ [".gitignore"])) := by
  have htake : ∀ n ∈ names.take k, IsFileName n := fun n hn => hnames n (List.mem_of_mem_take hn)
  rw [patternsAt]
  by_cases hzero : k = 0
  · rw [hzero]
    rfl
  · have hne : names.take k ≠ [] := by
      rw [Ne, List.take_eq_nil_iff, not_or]
      exact ⟨hzero, List.ne_nil_of_length_pos (by omega)⟩
    rw [if_neg (join_ne_empty hne htake), if_neg hzero, levelPatterns_eq_filePatterns h hroot htake]

/-- The verdict of a readable project on a path is that of the last pattern that matches. -/
lemma isIgnored_eq_lastMatch (h : Readable lib tree root) (hroot : ".." ∉ root.parts)
    (htop : (rootPatterns lib tree root).outcome = .ok top) {rel : String} {names : List String}
    (hne : names ≠ []) (hnames : ∀ n ∈ names, IsFileName n) (hparts : parts rel = names) :
    isIgnored tree root top rel = .ok (lastMatch (trials lib tree root names (slash rel))) := by
  let level : Nat → String × String := fun k =>
    (Text.join "/" (names.take k), Text.join "/" (names.drop k) ++ slash rel)
  let patterns : Nat → List lib.Pattern := fun k =>
    if k = 0 then top else filePatterns lib tree root (names.take k ++ [".gitignore"])
  have hpatterns : ∀ k ∈ List.range names.length,
      patternsAt tree root top (level k).1 = .ok (patterns k) :=
    fun k hk => patternsAt_take h hroot hnames (List.mem_range.mp hk)
  have hjudged := foldlM_verdict hpatterns false
  rw [foldl_judge] at hjudged
  -- the first level is that of the root, where the patterns of both files hold
  obtain ⟨m, hm⟩ : ∃ m, names.length = m + 1 := Nat.exists_eq_succ_of_ne_zero (by simpa using hne)
  have hall : (List.range names.length).flatMap (fun k => (patterns k).map (·, (level k).2)) =
      trials lib tree root names (slash rel) := by
    rw [trials, hm, List.range_succ_eq_map, List.flatMap_cons, List.flatMap_cons, List.flatMap_map,
      List.flatMap_map, ← List.append_assoc]
    show top.map _ ++ _ = _
    rw [eq_of_outcome_rootPatterns hroot htop, List.map_append]
    rfl
  rw [hall] at hjudged
  rw [isIgnored, verdict, levels, hparts]
  exact hjudged

end Readable

end Ignore

/-! ## Queries -/

/-- A query about a path of proper names. -/
structure IgnoreQuery where
  names : List String
  ne_nil : names ≠ []
  proper : ∀ n ∈ names, IsFileName n
  /-- Whether the path is written with a slash at its end. -/
  slash : Bool
  /-- Whether it is asked for as a directory. -/
  asDirectory : Bool

namespace IgnoreQuery

variable {lib : PatternLibrary}

/-- The path as it is written. -/
def rel (q : IgnoreQuery) : String :=
  Text.join "/" q.names ++ if q.slash then "/" else ""

/-- Whether the query is about a directory. -/
def isDirectory (q : IgnoreQuery) : Bool := q.slash || q.asDirectory

/-- What the query is about. -/
def subject (q : IgnoreQuery) : List String × Bool := (q.names, q.isDirectory)

/-- The path under which the answer is remembered. -/
def key (q : IgnoreQuery) : String :=
  Text.join "/" q.names ++ if q.isDirectory then "/" else ""

/-- Asks a session. -/
def ask (q : IgnoreQuery) (tree : FileTree) (session : IgnoreSession lib) :
    IgnoreSession lib × Except Raised Bool :=
  if q.asDirectory then session.isDirIgnored tree q.rel else session.isIgnored tree q.rel

/-- The answer of the last pattern that matches. -/
def reference (q : IgnoreQuery) (lib : PatternLibrary) (tree : FileTree) (root : Path) : Bool :=
  Ignore.lastMatch (Ignore.trials lib tree root q.names (if q.isDirectory then "/" else ""))

lemma key_eq (q : IgnoreQuery) :
    q.isDirectory = true ∧ q.key = Text.join "/" q.names ++ "/" ∨
      q.isDirectory = false ∧ q.key = Text.join "/" q.names := by
  rw [key]
  cases q.isDirectory with
  | true => exact .inl ⟨rfl, rfl⟩
  | false => exact .inr ⟨rfl, String.append_empty⟩

lemma parts_key (q : IgnoreQuery) : Ignore.parts q.key = q.names := by
  rcases q.key_eq with ⟨-, hkey⟩ | ⟨-, hkey⟩
  · rw [hkey, Ignore.parts_join_slash q.proper]
  · rw [hkey, Ignore.parts_join q.proper]

lemma slash_key (q : IgnoreQuery) : Ignore.slash q.key = if q.isDirectory then "/" else "" := by
  rcases q.key_eq with ⟨hdirectory, hkey⟩ | ⟨hdirectory, hkey⟩
  · rw [hkey, hdirectory, Ignore.slash, if_pos (Text.endsWith_iff.mpr ⟨_, rfl⟩), if_pos rfl]
  · rw [hkey, hdirectory, Ignore.slash_join q.ne_nil q.proper, if_neg Bool.false_ne_true]

/-- Queries share an answer only when they are about the same. -/
lemma key_inj {q r : IgnoreQuery} : q.key = r.key ↔ q.subject = r.subject := by
  constructor
  · intro hkey
    have hnames : q.names = r.names := by rw [← q.parts_key, ← r.parts_key, hkey]
    have hslash : (if q.isDirectory then "/" else "") = if r.isDirectory then "/" else "" := by
      rw [← q.slash_key, ← r.slash_key, hkey]
    have hdirectory : q.isDirectory = r.isDirectory := by
      cases hq : q.isDirectory <;> cases hr : r.isDirectory <;> simp_all
    rw [subject, subject, hnames, hdirectory]
  · intro hsubject
    obtain ⟨hnames, hdirectory⟩ := Prod.mk.inj hsubject
    rw [key, key, hnames, hdirectory]

lemma asDirectory_rel (q : IgnoreQuery) :
    Ignore.asDirectory q.rel = Text.join "/" q.names ++ "/" := by
  rw [← Ignore.asDirectory_join q.ne_nil q.proper, rel]
  cases q.slash with
  | true => exact Ignore.asDirectory_append_slash _
  | false => rw [if_neg Bool.false_ne_true, String.append_empty]

lemma ask_eq_isIgnored (q : IgnoreQuery) (tree : FileTree) (session : IgnoreSession lib) :
    q.ask tree session = session.isIgnored tree q.key := by
  rw [ask, key, isDirectory]
  cases q.asDirectory with
  | true =>
    rw [if_pos rfl, IgnoreSession.isDirIgnored, asDirectory_rel, Bool.or_true, if_pos rfl]
  | false => rw [if_neg Bool.false_ne_true, rel, Bool.or_false]

end IgnoreQuery

/-! ## Sessions -/

namespace IgnoreSession

variable {lib : PatternLibrary}

/-- Asks one query after the other. -/
def askAll (tree : FileTree) (session : IgnoreSession lib) :
    List IgnoreQuery → IgnoreSession lib × List (Except Raised Bool)
  | [] => (session, [])
  | q :: qs =>
    let asked := q.ask tree session
    let rest := askAll tree asked.1 qs
    (rest.1, asked.2 :: rest.2)

variable {tree : FileTree} {root : Path} {top : List lib.Pattern} {session : IgnoreSession lib}
  {asked : List String}

/-- What a session remembers is what it would find: the patterns of the directories that it has
read, and the verdicts on the paths that it was asked for and on no others. -/
structure Remembers (tree : FileTree) (root : Path) (top : List lib.Pattern) (asked : List String)
    (session : IgnoreSession lib) : Prop where
  root_eq : session.root = root
  top_eq : session.levels.get? "" = some top
  levels : ∀ dir patterns, session.levels.get? dir = some patterns →
    Ignore.patternsAt tree root top dir = .ok patterns
  verdicts : ∀ rel, session.verdicts.get? rel =
    if rel ∈ asked then (Ignore.isIgnored tree root top rel).toOption else none

/-- Reading the patterns of a directory adds at most what is true of it. -/
lemma Remembers.patternsAt (h : session.Remembers tree root top asked) (dir : String) :
    (session.patternsAt tree dir).2 = Ignore.patternsAt tree root top dir ∧
      (session.patternsAt tree dir).1.Remembers tree root top asked := by
  rw [IgnoreSession.patternsAt]
  cases hdir : session.levels.get? dir with
  | some patterns => exact ⟨(h.levels dir patterns hdir).symm, h⟩
  | none =>
    -- the patterns of the root are there from the start, so this is a directory below it
    have hne : dir ≠ "" := by
      rintro rfl
      rw [h.top_eq] at hdir
      cases hdir
    have hfresh : Ignore.patternsAt tree root top dir =
        Ignore.levelPatterns lib tree session.root dir := by
      rw [Ignore.patternsAt, if_neg hne, h.root_eq]
    simp only
    cases hlevel : Ignore.levelPatterns lib tree session.root dir with
    | error e => exact ⟨(hfresh.trans hlevel).symm, h⟩
    | ok patterns =>
      refine ⟨(hfresh.trans hlevel).symm, h.root_eq, ?_, ?_, h.verdicts⟩
      · rw [NameMap.get?_put, if_neg hne, h.top_eq]
      · intro other found hother
        rw [NameMap.get?_put] at hother
        split at hother
        · rename_i hsame
          rw [← hsame, ← Option.some.inj hother, hfresh, hlevel]
        · exact h.levels other found hother

/-- Levels are judged as they are without a session. -/
lemma Remembers.decideLevels (h : session.Remembers tree root top asked)
    (levels : List (String × String)) (earlier : Bool) :
    (decideLevels tree session earlier levels).2 = (levels.foldlM (fun earlier level => do
      return lib.verdict (← Ignore.patternsAt tree root top level.1) level.2 earlier)
      earlier) ∧
      (decideLevels tree session earlier levels).1.Remembers tree root top asked := by
  induction levels generalizing session earlier with
  | nil => exact ⟨rfl, h⟩
  | cons level levels ih =>
    obtain ⟨hpatterns, hread⟩ := h.patternsAt level.1
    rw [IgnoreSession.decideLevels, List.foldlM_cons, ← hpatterns]
    cases hat : session.patternsAt tree level.1 with
    | mk session₁ result =>
      rw [hat] at hread
      cases result with
      | error e => exact ⟨rfl, hread⟩
      | ok patterns => exact ih hread _

/-- A path that cannot be judged leaves the verdicts as they are. -/
lemma Remembers.isIgnored_error (h : session.Remembers tree root top asked) {rel : String}
    {e : Raised} (hrel : Ignore.isIgnored tree root top rel = .error e) :
    (session.isIgnored tree rel).2 = .error e ∧
      (session.isIgnored tree rel).1.Remembers tree root top asked := by
  have hunknown : session.verdicts.get? rel = none := by
    rw [h.verdicts rel, hrel]
    exact ite_self none
  obtain ⟨hdecided, hread⟩ := h.decideLevels (Ignore.levels rel) false
  have herror : (IgnoreSession.decideLevels tree session false (Ignore.levels rel)).2 = .error e :=
    hdecided.trans hrel
  rw [IgnoreSession.isIgnored, hunknown]
  simp only
  cases hdecide : IgnoreSession.decideLevels tree session false (Ignore.levels rel) with
  | mk session₁ result =>
    rw [hdecide] at herror hread
    rw [show result = .error e from herror]
    exact ⟨rfl, hread⟩

/-- A query is answered as without a session, and only its answer is added to what is remembered. -/
lemma Remembers.isIgnored (h : session.Remembers tree root top asked) {rel : String} {b : Bool}
    (hrel : Ignore.isIgnored tree root top rel = .ok b) :
    (session.isIgnored tree rel).2 = .ok b ∧
      (session.isIgnored tree rel).1.Remembers tree root top (asked ++ [rel]) := by
  have hknown := h.verdicts rel
  rw [hrel] at hknown
  rw [IgnoreSession.isIgnored]
  by_cases hmem : rel ∈ asked
  · -- the verdict is known, and so is everything that was asked
    rw [hknown, if_pos hmem]
    refine ⟨rfl, h.root_eq, h.top_eq, h.levels, fun other => ?_⟩
    have hsame : other ∈ asked ++ [rel] ↔ other ∈ asked := by
      rw [List.mem_append, List.mem_singleton]
      exact ⟨fun hother => hother.elim id (fun hother => hother ▸ hmem), .inl⟩
    simp only [hsame]
    exact h.verdicts other
  · -- the path is judged now; levels that are read on the way keep all verdicts
    rw [hknown, if_neg hmem]
    obtain ⟨hdecided, hread⟩ := h.decideLevels (Ignore.levels rel) false
    have hok : (IgnoreSession.decideLevels tree session false (Ignore.levels rel)).2 = .ok b :=
      hdecided.trans hrel
    simp only
    cases hdecide : IgnoreSession.decideLevels tree session false (Ignore.levels rel) with
    | mk session₁ result =>
      rw [hdecide] at hok hread
      rw [show result = .ok b from hok]
      refine ⟨rfl, hread.root_eq, hread.top_eq, hread.levels, fun other => ?_⟩
      rw [NameMap.get?_put, hread.verdicts other]
      by_cases hother : rel = other
      · rw [if_pos hother, if_pos (by simp [hother]), ← hother, hrel]
        rfl
      · simp [hother, Ne.symm hother]

/-- A run of queries is answered query by query. -/
lemma Remembers.askAll (h : session.Remembers tree root top asked) {queries : List IgnoreQuery}
    {answer : IgnoreQuery → Bool}
    (hqueries : ∀ q ∈ queries, Ignore.isIgnored tree root top q.key = .ok (answer q)) :
    (session.askAll tree queries).2 = queries.map (fun q => .ok (answer q)) ∧
      (session.askAll tree queries).1.Remembers tree root top
        (asked ++ queries.map IgnoreQuery.key) := by
  induction queries generalizing session asked with
  | nil =>
    have hnone : asked ++ [].map IgnoreQuery.key = asked := List.append_nil asked
    rw [hnone]
    exact ⟨rfl, h⟩
  | cons q queries ih =>
    rw [List.forall_mem_cons] at hqueries
    obtain ⟨hanswer, hasked⟩ := h.isIgnored hqueries.1
    rw [← q.ask_eq_isIgnored] at hanswer hasked
    obtain ⟨hanswers, hall⟩ := ih hasked hqueries.2
    rw [List.append_assoc] at hall
    exact ⟨by rw [IgnoreSession.askAll, hanswer, hanswers, List.map_cons], hall⟩

lemma outcome_start (lib : PatternLibrary) (tree : FileTree) (root : Path) :
    (start lib tree root).outcome = (do
      let top ← (Ignore.rootPatterns lib tree root).outcome
      return { root, levels := [("", top)], verdicts := [] }) := by
  rw [start, Traced.outcome_bind]
  rfl

lemma remembers_start (htop : (Ignore.rootPatterns lib tree root).outcome = .ok top) :
    ∃ session, (start lib tree root).outcome = .ok session ∧
      session.Remembers tree root top [] := by
  refine ⟨{ root, levels := [("", top)], verdicts := [] }, ?_, rfl, rfl, ?_, fun _ => rfl⟩
  · rw [start, Traced.outcome_bind_ok htop]
    rfl
  · intro dir patterns hdir
    rw [NameMap.get?] at hdir
    split at hdir
    · rename_i hempty
      rw [Ignore.patternsAt, if_pos hempty.symm, Option.some.inj hdir]
    · cases hdir

/-- Whatever is asked of a session, in any order and however often, each answer is that of the last
pattern that matches the path. Afterwards the session remembers the answers to what it was asked,
and nothing about a directory that it was asked only as a file, or the other way round. -/
theorem askAll_eq_reference (lib : PatternLibrary) (tree : FileTree) (path : Path)
    (h : Ignore.Readable lib tree path.resolve) (queries : List IgnoreQuery) :
    ∃ session, (start lib tree path.resolve).outcome = .ok session ∧
      (session.askAll tree queries).2 =
        queries.map (fun q => .ok (q.reference lib tree path.resolve)) ∧
      ∀ q : IgnoreQuery, (session.askAll tree queries).1.verdicts.get? q.key =
        if q.subject ∈ queries.map IgnoreQuery.subject then some (q.reference lib tree path.resolve)
        else none := by
  obtain ⟨top, htop⟩ := h.top
  have hroot := Path.dots_not_mem_resolve path
  have hreference : ∀ q : IgnoreQuery,
      Ignore.isIgnored tree path.resolve top q.key = .ok (q.reference lib tree path.resolve) := by
    intro q
    rw [Ignore.isIgnored_eq_lastMatch h hroot htop q.ne_nil q.proper q.parts_key, q.slash_key]
    rfl
  -- at the start nothing was asked, and from there on the run keeps what is remembered
  obtain ⟨session, hstart, hremembers⟩ := remembers_start htop
  obtain ⟨hanswers, hall⟩ := hremembers.askAll fun q (_ : q ∈ queries) => hreference q
  refine ⟨session, hstart, hanswers, fun q => ?_⟩
  have hasked : q.key ∈ [] ++ queries.map IgnoreQuery.key ↔
      q.subject ∈ queries.map IgnoreQuery.subject := by
    simp only [List.nil_append, List.mem_map, eq_comm, IgnoreQuery.key_inj]
  rw [hall.verdicts q.key, hreference q]
  simp only [hasked]
  rfl

/-- A project at `/p` where an ignore file overrules the one above it, and ignores directories only.
-/
def sampleTree : FileTree :=
  .dir [("p", .dir [(".gitignore", .file "*.ts\n".toUTF8.toList),
    ("src", .dir [(".gitignore", .file "!keep.ts\ngen/\n".toUTF8.toList)])])]

def samplePath : Path := { anchor := "/", parts := ["q", "..", "p"] }

/-- The same name as a file and as a directory, and files of either verdict, one of them twice. -/
def sampleQueries : List IgnoreQuery :=
  [⟨["src", "gen"], by decide, by decide, false, false⟩,
    ⟨["src", "gen"], by decide, by decide, false, true⟩,
    ⟨["src", "keep.ts"], by decide, by decide, false, false⟩,
    ⟨["src", "a.ts"], by decide, by decide, false, false⟩,
    ⟨["src", "keep.ts"], by decide, by decide, false, false⟩]

theorem askAll_sampleQueries :
    Ignore.Readable IgnorePattern.library sampleTree samplePath.resolve ∧
      ∃ session, (start IgnorePattern.library sampleTree samplePath.resolve).outcome = .ok session ∧
        (session.askAll sampleTree sampleQueries).2 =
          [.ok false, .ok true, .ok false, .ok true, .ok false] := by
  have hreadable : Ignore.Readable IgnorePattern.library sampleTree samplePath.resolve :=
    Ignore.readable_of_everyFile (by decide +kernel)
  obtain ⟨session, hstart, hanswers, -⟩ :=
    askAll_eq_reference IgnorePattern.library sampleTree samplePath hreadable sampleQueries
  have hreference :
      sampleQueries.map (·.reference IgnorePattern.library sampleTree samplePath.resolve) =
      [false, true, false, true, false] := by
    decide +kernel
  refine ⟨hreadable, session, hstart, ?_⟩
  rw [hanswers]
  exact (List.map_map ..).symm.trans (congrArg (List.map Except.ok) hreference)

end IgnoreSession

end EntryLint
