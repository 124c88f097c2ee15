import EntryLint.Ignore.Levels
import EntryLint.Proofs.Failures
import EntryLint.Proofs.Files.Shape
import Mathlib.Data.List.Induction

/-!
# Verdicts of ignore files

A path of proper names is judged by the ignore files of the directories above it and by nothing
else: when these can be read there is a verdict (`exists_isIgnored`), when one of them is defective
there is none (`isIgnored_error_iff`), and where they are the same, so is the verdict
(`isIgnored_congr`).
-/

namespace EntryLint

/-! ## Lines that are no patterns -/

namespace PatternLibrary

/-- The library raises an exception on a line. -/
def Refuses (lib : PatternLibrary) (line : String) : Prop :=
  ∃ e, lib.compile line = .error e

lemma readLines_error_iff {lib : PatternLibrary} {lines : List String} :
    (∃ e, lib.readLines lines = .error e) ↔ ∃ line ∈ lines, lib.Refuses line := by
  induction lines with
  | nil => simp [readLines]
  | cons line lines ih =>
    have hsettles : Settles (lib.readLines (line :: lines))
        (fun e => lib.compile line = .error e ∨ lib.readLines lines = .error e) fun _ => True :=
      (Settles.self _).bind_or fun _ _ => (Settles.self _).bind_ok fun _ _ => ⟨_, rfl, trivial⟩
    rw [hsettles.exists_error_iff, exists_or, ih]
    simp only [List.mem_cons, exists_eq_or_imp, Refuses]

end PatternLibrary

namespace Ignore

variable {lib : PatternLibrary}

/-! ## Verdicts without a session -/

/-- The verdict on a path by the patterns of each directory above it. -/
def verdict (patternsAt : String → Except Raised (List lib.Pattern)) (rel : String) :
    Except Raised Bool :=
  (levels rel).foldlM
    (fun earlier level => do return lib.verdict (← patternsAt level.1) level.2 earlier) false

/-- The patterns of a directory; the empty name is the root. -/
def patternsAt (tree : FileTree) (root : Path) (top : List lib.Pattern) (dir : String) :
    Except Raised (List lib.Pattern) :=
  if dir = "" then .ok top else levelPatterns lib tree root dir

/-- Whether a path is ignored in a tree, given the patterns that hold for the whole project. A path
that ends in a slash is a directory. -/
def isIgnored (tree : FileTree) (root : Path) (top : List lib.Pattern) (rel : String) :
    Except Raised Bool :=
  verdict (patternsAt tree root top) rel

/-! ## Names on the way to a path -/

lemma parts_join {names : List String} (h : ∀ n ∈ names, IsFileName n) :
    parts (Text.join "/" names) = names := by
  by_cases hne : names = []
  · subst hne
    rfl
  · rw [parts, split_join_names hne h]
    exact List.filter_eq_self.mpr fun n hn => by simp [(h n hn).ne_empty]

/-- The slash that marks a directory adds no name. -/
lemma parts_append_slash (rel : String) : parts (rel ++ "/") = parts rel := by
  have hslash : Text.pieces '/' ['/'] = [] :: [[]] := rfl
  obtain ⟨init, last, hrel, happend⟩ := Text.pieces_append hslash rel.toList
  have hlist : (rel ++ "/").toList = rel.toList ++ ['/'] := by simp
  rw [parts, parts, Text.split, Text.split, hlist, happend, hrel, List.append_nil,
    List.append_cons init, List.map_append, List.filter_append, List.append_right_eq_self]
  rfl

lemma parts_join_slash {names : List String} (h : ∀ n ∈ names, IsFileName n) :
    parts (Text.join "/" names ++ "/") = names := by
  rw [parts_append_slash, parts_join h]

/-- Joined names do not end in a slash. -/
lemma exists_toList_join {names : List String} (hne : names ≠ []) (h : ∀ n ∈ names, IsFileName n) :
    ∃ front c, c ≠ '/' ∧ (Text.join "/" names).toList = front ++ [c] := by
  obtain ⟨init, last, rfl⟩ : ∃ init last, names = init ++ [last] :=
    ⟨_, _, (List.dropLast_concat_getLast hne).symm⟩
  have hlast := h last (by simp)
  obtain ⟨cs, c, hcs⟩ : ∃ cs c, last.toList = cs ++ [c] :=
    ⟨_, _, (List.dropLast_concat_getLast (mt String.toList_eq_nil_iff.mp hlast.ne_empty)).symm⟩
  have hc : c ≠ '/' := by
    rintro rfl
    exact hlast.noSlash (by rw [hcs]; simp)
  have htext : ∃ front, (Text.join "/" (init ++ [last])).toList = front ++ [c] := by
    rw [Text.toList_join, List.map_append, List.map_singleton, Text.intercalate_concat, hcs,
      ← List.append_assoc]
    exact ⟨_, rfl⟩
  obtain ⟨front, hfront⟩ := htext
  exact ⟨front, c, hc, hfront⟩

/-- Nothing is cut off joined names before a directory is marked. -/
lemma asDirectory_join {names : List String} (hne : names ≠ []) (h : ∀ n ∈ names, IsFileName n) :
    asDirectory (Text.join "/" names) = Text.join "/" names ++ "/" := by
  obtain ⟨front, c, hc, hfront⟩ := exists_toList_join hne h
  have htrim : Text.dropTrailing (· = '/') (Text.join "/" names) = Text.join "/" names := by
    rw [Text.dropTrailing, hfront, List.reverse_concat,
      List.dropWhile_cons_of_neg (by simpa using hc), List.reverse_cons, List.reverse_reverse,
      ← hfront, String.ofList_toList]
  rw [asDirectory, htrim]

lemma slash_join {names : List String} (hne : names ≠ []) (h : ∀ n ∈ names, IsFileName n) :
    slash (Text.join "/" names) = "" := by
  obtain ⟨front, c, hc, hfront⟩ := exists_toList_join hne h
  rw [slash, if_neg]
  intro hends
  obtain ⟨start, hstart⟩ := Text.endsWith_iff.mp hends
  have hlast : front ++ [c] = start.toList ++ ['/'] := by
    rw [← hfront, hstart, String.toList_append]
    rfl
  exact hc (List.singleton_inj.mp (List.append_inj' hlast rfl).2)

lemma asDirectory_append_slash (rel : String) : asDirectory (rel ++ "/") = asDirectory rel := by
  rw [asDirectory, asDirectory, Text.dropTrailing, Text.dropTrailing, String.toList_append,
    List.reverse_append]
  rfl

/-- Marking a path as a directory changes no name on the way to it. -/
lemma parts_asDirectory (rel : String) : parts (asDirectory rel) = parts rel := by
  obtain ⟨cs, rfl⟩ : ∃ cs, rel = String.ofList cs := ⟨rel.toList, String.ofList_toList.symm⟩
  induction cs using List.reverseRecOn with
  | nil => rfl
  | append_singleton cs c ih =>
    by_cases hc : c = '/'
    · subst hc
      have hslash : String.ofList (cs ++ ['/']) = String.ofList cs ++ "/" := by
        rw [← String.toList_inj]
        simp
      rw [hslash, asDirectory_append_slash, ih, parts_append_slash]
    · -- nothing is cut off before the slash is added
      rw [asDirectory, parts_append_slash, Text.dropTrailing, String.toList_ofList,
        List.reverse_concat, List.dropWhile_cons_of_neg (by simpa using hc), List.reverse_cons,
        List.reverse_reverse]

/-! ## Verdicts -/

/-- The directories whose ignore files judge a path. -/
lemma exists_of_mem_levels {rel dir tail : String} (h : (dir, tail) ∈ levels rel) :
    ∃ n, dir = Text.join "/" ((parts rel).take n) := by
  rw [levels, List.mem_map] at h
  obtain ⟨n, -, heq⟩ := h
  exact ⟨n, (Prod.mk.inj heq).1.symm⟩

lemma exists_foldlM_ok {ε α β : Type} {f : β → α → Except ε β} {xs : List α}
    (h : ∀ x ∈ xs, ∀ b, ∃ b', f b x = .ok b') (b : β) : ∃ b', xs.foldlM f b = .ok b' := by
  induction xs generalizing b with
  | nil => exact ⟨b, rfl⟩
  | cons x xs ih =>
    obtain ⟨b₁, hb₁⟩ := h x List.mem_cons_self b
    obtain ⟨b₂, hb₂⟩ := ih (fun y hy => h y (List.mem_cons_of_mem _ hy)) b₁
    refine ⟨b₂, ?_⟩
    rw [List.foldlM_cons, hb₁]
    exact hb₂

lemma foldlM_congr {ε α β : Type} {f g : β → α → Except ε β} {xs : List α}
    (h : ∀ x ∈ xs, ∀ b, f b x = g b x) (b : β) : xs.foldlM f b = xs.foldlM g b := by
  induction xs generalizing b with
  | nil => rfl
  | cons x xs ih =>
    rw [List.foldlM_cons, List.foldlM_cons, h x List.mem_cons_self b]
    exact congrArg _ (funext fun b' => ih (fun y hy => h y (List.mem_cons_of_mem _ hy)) b')

/-- Every ignore file in a directory of the project holds patterns only. -/
structure Readable (lib : PatternLibrary) (tree : FileTree) (root : Path) : Prop where
  top : ∃ patterns, (rootPatterns lib tree root).outcome = .ok patterns
  nested : ∀ dir : List String, (∀ n ∈ dir, IsFileName n) →
    ∃ patterns, levelPatterns lib tree root (Text.join "/" dir) = .ok patterns

/-- Ignore files are readable when every file of the tree holds patterns only. -/
lemma readable_of_everyFile {tree : FileTree} {root : Path}
    (h : tree.everyFile (fun bytes => (ofBytes lib bytes).isOk) = true) :
    Readable lib tree root := by
  have hfind : ∀ p bytes, tree.find? p = some (.file bytes) →
      ∃ patterns, ofBytes lib bytes = .ok patterns := by
    intro p bytes hp
    have hok := FileTree.everyFile_of_descend h (FileTree.descend_of_find? hp)
    cases hbytes : ofBytes lib bytes with
    | error e => simp [hbytes, Except.isOk, Except.toBool] at hok
    | ok patterns => exact ⟨patterns, rfl⟩
  have hread : ∀ p, ∃ patterns, (readPatterns lib tree p).outcome = .ok patterns := by
    intro p
    rw [readPatterns]
    split
    · exact ⟨[], rfl⟩
    · rename_i bytes hbytes
      obtain ⟨patterns, hok⟩ := hfind p bytes (FileTree.read_eq_ok_iff.mp hbytes)
      exact ⟨patterns, by rw [Traced.outcome_ofExcept, hok]⟩
  constructor
  · obtain ⟨excluded, hexcluded⟩ := hread (((root.child ".git").child "info").child "exclude")
    obtain ⟨ignored, hignored⟩ := hread (root.child ".gitignore")
    refine ⟨excluded ++ ignored, ?_⟩
    rw [rootPatterns, Traced.outcome_bind_ok hexcluded, Traced.outcome_bind_ok hignored]
    rfl
  · intro dir _
    rw [levelPatterns]
    split
    · rename_i bytes hp
      exact hfind _ bytes hp
    · exact ⟨[], rfl⟩

/-- With readable ignore files there is a verdict on every path of proper names, also when it is
marked as a directory. -/
lemma exists_isIgnored {tree : FileTree} {root : Path} (h : Readable lib tree root)
    (top : List lib.Pattern) {rel : String} (hrel : ∀ n ∈ parts rel, IsFileName n) :
    ∃ b, isIgnored tree root top rel = .ok b := by
  apply exists_foldlM_ok
  rintro ⟨dir, tail⟩ he earlier
  obtain ⟨n, hdir⟩ := exists_of_mem_levels he
  have hpatterns : ∃ patterns, patternsAt tree root top dir = .ok patterns := by
    rw [patternsAt]
    split
    · exact ⟨top, rfl⟩
    · rw [hdir]
      exact h.nested _ fun m hm => hrel m (List.mem_of_mem_take hm)
  obtain ⟨patterns, hok⟩ := hpatterns
  refine ⟨lib.verdict patterns tail earlier, ?_⟩
  show (do return lib.verdict (← patternsAt tree root top dir) tail earlier) = _
  rw [hok]
  rfl

/-- Where two trees have the same ignore files, they give the same verdict. -/
lemma isIgnored_congr {tree tree' : FileTree} {root : Path} (top : List lib.Pattern) {rel : String}
    (hrel : ∀ n ∈ parts rel, IsFileName n)
    (h : ∀ dir : List String, (∀ n ∈ dir, IsFileName n) →
      levelPatterns lib tree root (Text.join "/" dir) =
        levelPatterns lib tree' root (Text.join "/" dir)) :
    isIgnored tree root top rel = isIgnored tree' root top rel := by
  apply foldlM_congr
  rintro ⟨dir, tail⟩ he earlier
  obtain ⟨n, hdir⟩ := exists_of_mem_levels he
  have hpatterns : patternsAt tree root top dir = patternsAt tree' root top dir := by
    rw [patternsAt, patternsAt, hdir, h _ fun m hm => hrel m (List.mem_of_mem_take hm)]
  simp only [hpatterns]

/-! ## Trees with the same ignore files -/

/-- The patterns of an ignore file, if there is one. -/
def patternsOf (lib : PatternLibrary) : Option (List UInt8) → Except Raised (List lib.Pattern)
  | some bytes => ofBytes lib bytes
  | none => .ok []

/-- The ignore files that judge the paths of a project hold the same in two trees. -/
structure SameFiles (tree tree' : FileTree) (root : Path) : Prop where
  excluded : tree.contents? (root.parts ++ [".git", "info", "exclude"]) =
    tree'.contents? (root.parts ++ [".git", "info", "exclude"])
  ignored : ∀ dir : List String, (∀ n ∈ dir, IsFileName n) →
    tree.contents? (root.parts ++ dir ++ [".gitignore"]) =
      tree'.contents? (root.parts ++ dir ++ [".gitignore"])

variable {tree tree' : FileTree} {root : Path}

lemma outcome_readPatterns (tree : FileTree) {p : Path} (h : ".." ∉ p.parts) :
    (readPatterns lib tree p).outcome = patternsOf lib (tree.contents? p.parts) := by
  rw [readPatterns, FileTree.read, FileTree.contents?, FileTree.find?_eq_descend h]
  cases tree.descend p.parts with
  | none => rfl
  | some node =>
    cases node with
    | file bytes => simp only [patternsOf, Traced.outcome_ofExcept]
    | dir entries => rfl

lemma levelPatterns_eq_patternsOf (lib : PatternLibrary) (tree : FileTree)
    (hroot : ".." ∉ root.parts) {dir : List String} (hdir : ∀ n ∈ dir, IsFileName n) :
    levelPatterns lib tree root (Text.join "/" dir) =
      patternsOf lib (tree.contents? (root.parts ++ dir ++ [".gitignore"])) := by
  have hdots :
      ".." ∉ ((root.under (Path.ofText (Text.join "/" dir))).child ".gitignore").parts := by
    rw [Path.ofText_join hdir, Path.under_relative]
    simp only [Path.child, List.mem_append, List.mem_singleton, not_or]
    exact ⟨⟨hroot, fun hmem => (hdir _ hmem).ne_dots rfl⟩, by decide⟩
  rw [levelPatterns, FileTree.find?_eq_descend hdots, Path.ofText_join hdir, Path.under_relative,
    Path.child, FileTree.contents?]
  cases tree.descend (root.parts ++ dir ++ [".gitignore"]) with
  | none => rfl
  | some node =>
    cases node with
    | file bytes => simp only [patternsOf]
    | dir entries => rfl

/-- The patterns of the root are those of two files. -/
lemma outcome_rootPatterns (tree : FileTree) (hroot : ".." ∉ root.parts) :
    (rootPatterns lib tree root).outcome = (do
      let excluded ← patternsOf lib (tree.contents? (root.parts ++ [".git", "info", "exclude"]))
      let ignored ← patternsOf lib (tree.contents? (root.parts ++ [] ++ [".gitignore"]))
      return excluded ++ ignored) := by
  have hdots : ∀ names : List String, ".." ∉ names → ".." ∉ root.parts ++ names := by
    intro names hnames hmem
    rcases List.mem_append.mp hmem with hmem | hmem
    · exact hroot hmem
    · exact hnames hmem
  have hexclude : (((root.child ".git").child "info").child "exclude").parts =
      root.parts ++ [".git", "info", "exclude"] := by
    simp [Path.child]
  have hpath : ".." ∉ (((root.child ".git").child "info").child "exclude").parts := by
    rw [hexclude]
    exact hdots _ (by decide)
  rw [rootPatterns, Traced.outcome_bind, outcome_readPatterns tree hpath, hexclude]
  congr 1
  funext excluded
  rw [Traced.outcome_bind, outcome_readPatterns tree (hdots _ (by decide)), List.append_nil]
  rfl

lemma SameFiles.outcome_rootPatterns (h : SameFiles tree tree' root) (hroot : ".." ∉ root.parts) :
    (rootPatterns lib tree root).outcome = (rootPatterns lib tree' root).outcome := by
  rw [Ignore.outcome_rootPatterns tree hroot, Ignore.outcome_rootPatterns tree' hroot, h.excluded,
    h.ignored [] (by simp)]

lemma SameFiles.isIgnored (h : SameFiles tree tree' root) (hroot : ".." ∉ root.parts)
    (top : List lib.Pattern) {rel : String} (hrel : ∀ n ∈ parts rel, IsFileName n) :
    isIgnored tree root top rel = isIgnored tree' root top rel := by
  apply isIgnored_congr top hrel
  intro dir hdir
  rw [levelPatterns_eq_patternsOf lib tree hroot hdir,
    levelPatterns_eq_patternsOf lib tree' hroot hdir, h.ignored dir hdir]

/-! ## Defective files -/

/-- An ignore file with a line that is no pattern. -/
def Defective (lib : PatternLibrary) (tree : FileTree) (path : List String) : Prop :=
  ∃ bytes, tree.contents? path = some bytes ∧
    ∃ line ∈ Text.lines (String.ofList (Text.unifyNewlines (Text.decodeLossy bytes).toList)),
      lib.Refuses line

lemma patternsOf_error_iff {path : List String} :
    (∃ e, patternsOf lib (tree.contents? path) = .error e) ↔ Defective lib tree path := by
  unfold Defective
  cases tree.contents? path with
  | none => simp [patternsOf]
  | some bytes =>
    simp only [patternsOf, Option.some_inj, exists_eq_left']
    exact PatternLibrary.readLines_error_iff

lemma foldlM_error_iff {ε α β : Type} {f : β → α → Except ε β} {bad : α → Prop}
    (h : ∀ b x, (∃ e, f b x = .error e) ↔ bad x) {xs : List α} {b : β} :
    (∃ e, xs.foldlM f b = .error e) ↔ ∃ x ∈ xs, bad x := by
  induction xs generalizing b with
  | nil =>
    constructor
    · rintro ⟨e, he⟩
      cases he
    · rintro ⟨x, hx, -⟩
      cases hx
  | cons x xs ih =>
    simp only [List.mem_cons, exists_eq_or_imp]
    rw [List.foldlM_cons]
    cases hx : f b x with
    | error e => exact ⟨fun _ => .inl ((h b x).mp ⟨e, hx⟩), fun _ => ⟨e, rfl⟩⟩
    | ok b' =>
      have hgood : ¬ bad x := by
        rw [← h b x, hx]
        rintro ⟨e, he⟩
        cases he
      exact ih.trans ⟨.inr, fun hor => hor.resolve_left hgood⟩

/-- There is no verdict on a path when an ignore file on the way to it, below the root, is
defective. -/
lemma isIgnored_error_iff (tree : FileTree) (hroot : ".." ∉ root.parts) (top : List lib.Pattern)
    {rel : String} (hrel : ∀ n ∈ parts rel, IsFileName n) :
    (∃ e, isIgnored tree root top rel = .error e) ↔
      ∃ k, 0 < k ∧ k < (parts rel).length ∧
        Defective lib tree (root.parts ++ (parts rel).take k ++ [".gitignore"]) := by
  have htake : ∀ k, ∀ n ∈ (parts rel).take k, IsFileName n :=
    fun k n hn => hrel n (List.mem_of_mem_take hn)
  have hlevel : ∀ k, 0 < k → k < (parts rel).length →
      patternsAt tree root top (Text.join "/" ((parts rel).take k)) =
        patternsOf lib (tree.contents? (root.parts ++ (parts rel).take k ++ [".gitignore"])) := by
    intro k hk hlt
    have hne : (parts rel).take k ≠ [] := by
      rw [← List.length_pos_iff, List.length_take]
      omega
    rw [patternsAt, if_neg (join_ne_empty hne (htake k)),
      levelPatterns_eq_patternsOf lib tree hroot (htake k)]
  have hstep : ∀ (earlier : Bool) (level : String × String),
      (∃ e, (do return lib.verdict (← patternsAt tree root top level.1) level.2 earlier :
        Except Raised Bool) = .error e) ↔
      ∃ e, patternsAt tree root top level.1 = .error e := by
    intro earlier level
    cases patternsAt tree root top level.1 with
    | error e => exact ⟨fun _ => ⟨e, rfl⟩, fun _ => ⟨e, rfl⟩⟩
    | ok patterns => exact ⟨fun ⟨e, he⟩ => (by cases he), fun ⟨e, he⟩ => (by cases he)⟩
  -- a level fails by its file alone, whatever the levels above it said
  rw [isIgnored, verdict]
  refine (foldlM_error_iff hstep).trans ?_
  rw [levels]
  simp only [List.mem_map, List.mem_range]
  constructor
  · rintro ⟨_, ⟨k, hlt, rfl⟩, e, he⟩
    by_cases hk : k = 0
    · -- the patterns of the root were read before
      subst hk
      cases he
    · refine ⟨k, by omega, hlt, ?_⟩
      rw [← patternsOf_error_iff, ← hlevel k (by omega) hlt]
      exact ⟨e, he⟩
  · rintro ⟨k, hk, hlt, hdefective⟩
    refine ⟨_, ⟨k, hlt, rfl⟩, ?_⟩
    simp only [hlevel k hk hlt]
    exact patternsOf_error_iff.mpr hdefective

/-- The patterns of the root cannot be read when one of its two files is defective. -/
lemma rootPatterns_error_iff (hroot : ".." ∉ root.parts) :
    (∃ e, (rootPatterns lib tree root).outcome = .error e) ↔
      Defective lib tree (root.parts ++ [".git", "info", "exclude"]) ∨
        Defective lib tree (root.parts ++ [".gitignore"]) := by
  rw [outcome_rootPatterns tree hroot, List.append_nil, ← patternsOf_error_iff,
    ← patternsOf_error_iff, ← exists_or]
  refine Settles.exists_error_iff (?_ : Settles _ _ fun _ => True)
  exact (Settles.self _).bind_or fun _ _ => (Settles.self _).bind_ok fun _ _ => ⟨_, rfl, trivial⟩

end Ignore

end EntryLint
