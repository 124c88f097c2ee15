import EntryLint.Entry.Classification
import EntryLint.Proofs.Entry.Extension
import EntryLint.Proofs.Entry.Name

/-!
# The decision on an import path

`classify` cuts a path into segments and counts them; the rules speak of how a path is composed.
This file states the rules on decompositions (`TopLevelDecision`, `ParentDecision`,
`SubdirectoryDecision`) and proves that `classify` decides every path by them, whatever the alias
and the extensions are. Which of the rules applies is settled by the start of the path alone.
-/

namespace EntryLint

/-! ## Files and shapes -/

/-- A file whose name without its extension is a normal entry. -/
def NormalFile (policy : PathPolicy) (file : String) : Prop :=
  ∃ name, Stripped policy.extensions file name ∧ EntryName.NormalEntry name

/-- A file whose name without its extension is a children entry. -/
def ChildrenFile (policy : PathPolicy) (file : String) : Prop :=
  ∃ name, Stripped policy.extensions file name ∧ EntryName.ChildrenEntry name

/-- A text without a slash. -/
def NoSlash (s : String) : Prop :=
  '/' ∉ s.toList

/-- A module and a file directly in it. -/
def ModuleFile (r m f : String) : Prop :=
  r = m ++ "/" ++ f ∧ m ≠ "" ∧ NoSlash m ∧ NoSlash f

/-- A module and a path that goes deeper than its files. -/
def ModuleDeeper (r m x : String) : Prop :=
  r = m ++ "/" ++ x ∧ m ≠ "" ∧ NoSlash m ∧ ¬NoSlash x

/-- A directory, possibly without a name, and a file directly in it. -/
def DirectoryFile (r d f : String) : Prop :=
  r = d ++ "/" ++ f ∧ NoSlash d ∧ NoSlash f

/-- The path starts with the alias and a slash. -/
def IsTopLevel (policy : PathPolicy) (path : String) : Prop :=
  ∃ r, path = policy.topLevelMarker ++ r

/-- The path starts with the parent directory as a whole segment. -/
def IsParent (path : String) : Prop :=
  path = ".." ∨ ∃ r, path = "../" ++ r

/-! ## The rules -/

/-- What is decided on a path that continues with `r` after the alias and its slash. -/
structure TopLevelDecision (policy : PathPolicy) (r : String) (verdict : Option Violation) :
    Prop where
  free_iff : verdict = none ↔ ∃ m f, ModuleFile r m f ∧ NormalFile policy f
  children_iff : verdict = some .invalidTopLevelImportChildren ↔
    ∃ m f, ModuleFile r m f ∧ ChildrenFile policy f
  depth_iff : verdict = some .invalidTopLevelImportDepth ↔ ∃ m x, ModuleDeeper r m x
  other : (¬∃ m f, ModuleFile r m f ∧ NormalFile policy f) →
    (¬∃ m f, ModuleFile r m f ∧ ChildrenFile policy f) → (¬∃ m x, ModuleDeeper r m x) →
    verdict = some .invalidTopLevelImport

/-- What is decided on a path that starts with the parent directory. -/
structure ParentDecision (policy : PathPolicy) (path : String) (verdict : Option Violation) :
    Prop where
  deep_iff : verdict = some .tooManyDirectorySegments ↔ 2 ≤ path.toList.count '/'
  free_iff : verdict = none ↔ ∃ f, path = "../" ++ f ∧ NoSlash f ∧ ChildrenFile policy f
  other : ¬2 ≤ path.toList.count '/' →
    (¬∃ f, path = "../" ++ f ∧ NoSlash f ∧ ChildrenFile policy f) →
    verdict = some .invalidParentImport

/-- What is decided on a path that continues with `r` after the current directory. -/
structure SubdirectoryDecision (policy : PathPolicy) (r : String) (verdict : Option Violation) :
    Prop where
  deep_iff : verdict = some .tooManyDirectorySegments ↔ 2 ≤ r.toList.count '/'
  free_iff : verdict = none ↔ NoSlash r ∨ ∃ d f, DirectoryFile r d f ∧ NormalFile policy f
  other : ¬2 ≤ r.toList.count '/' →
    (¬(NoSlash r ∨ ∃ d f, DirectoryFile r d f ∧ NormalFile policy f)) →
    verdict = some .invalidSubdirectoryImport

/-! ## Kinds of files -/

lemma kind_eq_normal_iff_normalFile (policy : PathPolicy) (file : String) :
    EntryName.kind (stripExtension policy.extensions file) = .normal ↔ NormalFile policy file := by
  rw [EntryName.kind_eq_normal_iff]
  constructor
  · exact fun h => ⟨_, stripped_stripExtension _ _, h⟩
  · rintro ⟨name, hname, h⟩
    rwa [stripExtension_eq_iff.mpr hname]

lemma kind_eq_children_iff_childrenFile (policy : PathPolicy) (file : String) :
    EntryName.kind (stripExtension policy.extensions file) = .children ↔
      ChildrenFile policy file := by
  rw [EntryName.kind_eq_children_iff]
  constructor
  · exact fun h => ⟨_, stripped_stripExtension _ _, h⟩
  · rintro ⟨name, hname, h⟩
    rwa [stripExtension_eq_iff.mpr hname]

/-- `..` is shorter than every children entry, with or without an extension. -/
lemma not_childrenFile_dots (policy : PathPolicy) : ¬ChildrenFile policy ".." := by
  rintro ⟨name, hname, segments, -, htext⟩
  have hlen : name.toList.length ≤ 2 := by
    rcases hname with ⟨e, -, -, h, -⟩ | ⟨h, -⟩
    · have := congrArg (fun s => s.toList.length) h
      simp at this
      omega
    · simp [h]
  have hlong : 15 ≤ name.toList.length := by
    rw [htext]
    simp
  omega

/-- A file without a name is no entry. -/
lemma kind_stripExtension_empty (extensions : List String) :
    EntryName.kind (stripExtension extensions "") = .plain := by
  have hstrip : stripExtension extensions "" = "" := by
    rw [← String.toList_inj]
    simp [stripExtension, Text.dropLast]
  rw [hstrip]
  decide

/-! ## Cuts at slashes -/

lemma cutAt_slash_iff {s a b : String} : Text.CutAt '/' s a b ↔ s = a ++ "/" ++ b ∧ NoSlash a :=
  ⟨fun h => ⟨h.eq, h.not_mem⟩, fun h => ⟨h.1, h.2⟩⟩

/-- A path without a slash is not cut at all. -/
lemma NoSlash.not_cutAt {r a b : String} (h : NoSlash r) : ¬Text.CutAt '/' r a b := by
  intro hcut
  apply h
  rw [hcut.toList_eq]
  simp

/-! A path is cut at its first slash in one way only, so "there is a module and a file" speaks about
the two sides of that cut. -/

section

variable {r a b : String} {P : String → Prop}

lemma exists_moduleFile_iff (hcut : Text.CutAt '/' r a b) :
    (∃ m f, ModuleFile r m f ∧ P f) ↔ a ≠ "" ∧ NoSlash b ∧ P b := by
  constructor
  · rintro ⟨m, f, ⟨hr, hm, hslash, hf⟩, hp⟩
    obtain ⟨rfl, rfl⟩ := hcut.unique (cutAt_slash_iff.mpr ⟨hr, hslash⟩)
    exact ⟨hm, hf, hp⟩
  · rintro ⟨ha, hb, hp⟩
    exact ⟨a, b, ⟨hcut.eq, ha, hcut.not_mem, hb⟩, hp⟩

lemma exists_moduleDeeper_iff (hcut : Text.CutAt '/' r a b) :
    (∃ m x, ModuleDeeper r m x) ↔ a ≠ "" ∧ ¬NoSlash b := by
  constructor
  · rintro ⟨m, x, hr, hm, hslash, hx⟩
    obtain ⟨rfl, rfl⟩ := hcut.unique (cutAt_slash_iff.mpr ⟨hr, hslash⟩)
    exact ⟨hm, hx⟩
  · rintro ⟨ha, hb⟩
    exact ⟨a, b, hcut.eq, ha, hcut.not_mem, hb⟩

lemma exists_directoryFile_iff (hcut : Text.CutAt '/' r a b) :
    (∃ d f, DirectoryFile r d f ∧ P f) ↔ NoSlash b ∧ P b := by
  constructor
  · rintro ⟨d, f, ⟨hr, hslash, hf⟩, hp⟩
    obtain ⟨rfl, rfl⟩ := hcut.unique (cutAt_slash_iff.mpr ⟨hr, hslash⟩)
    exact ⟨hf, hp⟩
  · rintro ⟨hb, hp⟩
    exact ⟨a, b, ⟨hcut.eq, hcut.not_mem, hb⟩, hp⟩

lemma NoSlash.not_moduleFile (h : NoSlash r) : ¬∃ m f, ModuleFile r m f ∧ P f := by
  rintro ⟨m, f, ⟨hr, -, hslash, -⟩, -⟩
  exact h.not_cutAt (cutAt_slash_iff.mpr ⟨hr, hslash⟩)

lemma NoSlash.not_moduleDeeper (h : NoSlash r) : ¬∃ m x, ModuleDeeper r m x := by
  rintro ⟨m, x, hr, -, hslash, -⟩
  exact h.not_cutAt (cutAt_slash_iff.mpr ⟨hr, hslash⟩)

end

/-! ## Top-level paths -/

namespace Classification

/-- The violation of a top-level path by the shape of what follows the alias: without a slash it
names no file, with one slash its last segment decides, with more it goes too deep. -/
lemma topLevel_violation_of_noSlash {policy : PathPolicy} {r : String} (h : NoSlash r) :
    (topLevel policy (policy.topLevelMarker ++ r)).violation = some .invalidTopLevelImport := by
  rw [topLevel, Text.dropFirst_append, Text.split_of_not_mem h]

lemma topLevel_violation_of_file {policy : PathPolicy} {r m f : String}
    (hcut : Text.CutAt '/' r m f) (hf : NoSlash f) :
    (topLevel policy (policy.topLevelMarker ++ r)).violation =
      if m = "" then some .invalidTopLevelImport
      else judgeTopLevel (EntryName.kind (stripExtension policy.extensions f)) := by
  rw [topLevel, Text.dropFirst_append, hcut.split_eq, Text.split_of_not_mem hf]
  by_cases hm : m = ""
  · simp [hm]
  · by_cases hempty : f = ""
    · simp [hm, hempty, kind_stripExtension_empty, judgeTopLevel]
    · simp [hm, hempty, ofLastSegment]

lemma topLevel_violation_of_deeper {policy : PathPolicy} {r m x : String}
    (hcut : Text.CutAt '/' r m x) (hx : ¬NoSlash x) :
    (topLevel policy (policy.topLevelMarker ++ r)).violation =
      if m = "" then some .invalidTopLevelImport else some .invalidTopLevelImportDepth := by
  obtain ⟨a, b, hcut'⟩ := Text.exists_cutAt (not_not.mp hx)
  obtain ⟨c, cs, hb⟩ := List.exists_cons_of_ne_nil
    (List.ne_nil_of_length_pos (by rw [Text.length_split]; omega : 0 < (Text.split '/' b).length))
  rw [topLevel, Text.dropFirst_append, hcut.split_eq, hcut'.split_eq, hb]
  by_cases hm : m = "" <;> simp [hm]

lemma judgeTopLevel_eq_none_iff (k : EntryKind) : judgeTopLevel k = none ↔ k = .normal := by
  cases k <;> decide

lemma judgeTopLevel_eq_children_iff (k : EntryKind) :
    judgeTopLevel k = some .invalidTopLevelImportChildren ↔ k = .children := by
  cases k <;> decide

lemma judgeTopLevel_ne_depth (k : EntryKind) :
    judgeTopLevel k ≠ some .invalidTopLevelImportDepth := by
  cases k <;> decide

lemma topLevel_decides (policy : PathPolicy) (r : String) :
    TopLevelDecision policy r (topLevel policy (policy.topLevelMarker ++ r)).violation := by
  -- by the slashes after the alias: none, one, or more
  rcases Text.separator_cases '/' r with h | ⟨m, f, hcut, hf⟩ | ⟨m, x, hcut, hx⟩
  · have hr : NoSlash r := h
    rw [topLevel_violation_of_noSlash hr]
    exact
      { free_iff := by simp [hr.not_moduleFile]
        children_iff := by simp [hr.not_moduleFile]
        depth_iff := by simp [hr.not_moduleDeeper]
        other := fun _ _ _ => rfl }
  · have hf : NoSlash f := hf
    rw [topLevel_violation_of_file hcut hf]
    by_cases hm : m = ""
    · -- the module has no name: no rule but the last one can apply
      exact
        { free_iff := by simp [exists_moduleFile_iff hcut, hm]
          children_iff := by simp [exists_moduleFile_iff hcut, hm]
          depth_iff := by simp [exists_moduleDeeper_iff hcut, hm]
          other := fun _ _ _ => by simp [hm] }
    · rw [if_neg hm]
      refine
        { free_iff := ?_
          children_iff := ?_
          depth_iff := by simp [exists_moduleDeeper_iff hcut, hf, judgeTopLevel_ne_depth]
          other := ?_ }
      · rw [judgeTopLevel_eq_none_iff, kind_eq_normal_iff_normalFile, exists_moduleFile_iff hcut]
        simp [hm, hf]
      · rw [judgeTopLevel_eq_children_iff, kind_eq_children_iff_childrenFile,
          exists_moduleFile_iff hcut]
        simp [hm, hf]
      · intro hnormal hchildren _
        rw [exists_moduleFile_iff hcut, ← kind_eq_normal_iff_normalFile] at hnormal
        rw [exists_moduleFile_iff hcut, ← kind_eq_children_iff_childrenFile] at hchildren
        cases hk : EntryName.kind (stripExtension policy.extensions f) with
        | normal => exact absurd ⟨hm, hf, hk⟩ hnormal
        | children => exact absurd ⟨hm, hf, hk⟩ hchildren
        | plain => rfl
  · have hx : ¬NoSlash x := not_not.mpr hx
    rw [topLevel_violation_of_deeper hcut hx]
    by_cases hm : m = ""
    · exact
        { free_iff := by simp [exists_moduleFile_iff hcut, hm]
          children_iff := by simp [exists_moduleFile_iff hcut, hm]
          depth_iff := by simp [exists_moduleDeeper_iff hcut, hm]
          other := fun _ _ _ => by simp [hm] }
    · exact
        { free_iff := by simp [exists_moduleFile_iff hcut, hm, hx]
          children_iff := by simp [exists_moduleFile_iff hcut, hm, hx]
          depth_iff := by simp [exists_moduleDeeper_iff hcut, hm, hx]
          other := fun _ _ hdeep =>
            absurd ((exists_moduleDeeper_iff hcut).mpr ⟨hm, hx⟩) hdeep }

/-! ## Parent paths -/

lemma judgeParent_eq_none_iff (k : EntryKind) : judgeParent k = none ↔ k = .children := by
  cases k <;> decide

lemma judgeParent_eq_some {k : EntryKind} (h : k ≠ .children) :
    judgeParent k = some .invalidParentImport := by
  cases k <;> simp_all [judgeParent]

/-- More than one slash makes a parent path too deep, whatever follows. -/
lemma parent_violation_of_deep {policy : PathPolicy} {path : String}
    (h : 2 ≤ path.toList.count '/') :
    (parent policy path).violation = some .tooManyDirectorySegments := by
  have hlen := Text.length_split '/' path
  rw [parent]
  match hs : Text.split '/' path with
  | [] => rfl
  | [_] => rw [hs] at hlen; simp at hlen; omega
  | [_, _] => rw [hs] at hlen; simp at hlen; omega
  | _ :: _ :: _ :: _ => rfl

lemma parent_violation_of_file {policy : PathPolicy} {f : String} (hf : NoSlash f) :
    (parent policy ("../" ++ f)).violation =
      judgeParent (EntryName.kind (stripExtension policy.extensions f)) := by
  have hcut : Text.CutAt '/' ("../" ++ f) ".." f :=
    cutAt_slash_iff.mpr ⟨rfl, by rw [NoSlash]; decide⟩
  rw [parent, hcut.split_eq, Text.split_of_not_mem hf]
  rfl

lemma parent_violation_dots (policy : PathPolicy) :
    (parent policy "..").violation = some .invalidParentImport := by
  have hsplit : Text.split '/' ".." = [".."] := Text.split_of_not_mem (by decide)
  rw [parent, hsplit]
  exact judgeParent_eq_some fun hk =>
    not_childrenFile_dots policy ((kind_eq_children_iff_childrenFile policy "..").mp hk)

lemma parent_decides {policy : PathPolicy} {path : String} (h : IsParent path) :
    ParentDecision policy path (parent policy path).violation := by
  rcases h with rfl | ⟨r, rfl⟩
  · rw [parent_violation_dots]
    exact
      { deep_iff := by simp
        free_iff := by
          constructor
          · intro h
            exact absurd h (by simp)
          · rintro ⟨f, hf, -⟩
            have := congrArg (fun s => s.toList.length) hf
            simp at this
        other := fun _ _ => rfl }
  · have hcut : Text.CutAt '/' ("../" ++ r) ".." r :=
      cutAt_slash_iff.mpr ⟨rfl, by rw [NoSlash]; decide⟩
    have hcount := hcut.count_eq
    by_cases hr : NoSlash r
    · rw [parent_violation_of_file hr]
      have hzero : r.toList.count '/' = 0 := List.count_eq_zero.mpr hr
      have hfree : (∃ f, "../" ++ r = "../" ++ f ∧ NoSlash f ∧ ChildrenFile policy f) ↔
          ChildrenFile policy r := by
        constructor
        · rintro ⟨f, hf, -, hchildren⟩
          rwa [(String.append_right_inj "../").mp hf]
        · exact fun hchildren => ⟨r, rfl, hr, hchildren⟩
      refine { deep_iff := ?_, free_iff := ?_, other := ?_ }
      · constructor
        · intro h
          exact absurd h (by cases EntryName.kind (stripExtension policy.extensions r) <;> decide)
        · intro h
          omega
      · rw [hfree, judgeParent_eq_none_iff, kind_eq_children_iff_childrenFile]
      · intro _ hnot
        rw [hfree, ← kind_eq_children_iff_childrenFile] at hnot
        exact judgeParent_eq_some hnot
    · have hpos : 0 < r.toList.count '/' := List.count_pos_iff.mpr (not_not.mp hr)
      have hdeep : 2 ≤ ("../" ++ r).toList.count '/' := by omega
      rw [parent_violation_of_deep hdeep]
      refine { deep_iff := iff_of_true rfl hdeep, free_iff := ?_, other := fun h => absurd hdeep h }
      constructor
      · intro h
        exact absurd h (by simp)
      · rintro ⟨f, hf, hslash, -⟩
        rw [← (String.append_right_inj "../").mp hf] at hslash
        exact absurd hslash hr

/-! ## Paths below the importing file -/

lemma judgeSubdirectory_eq_none_iff (k : EntryKind) : judgeSubdirectory k = none ↔ k = .normal := by
  cases k <;> decide

lemma judgeSubdirectory_eq_some {k : EntryKind} (h : k ≠ .normal) :
    judgeSubdirectory k = some .invalidSubdirectoryImport := by
  cases k <;> simp_all [judgeSubdirectory]

lemma subdirectory_violation_of_noSlash {policy : PathPolicy} {r : String} (h : NoSlash r) :
    (subdirectory policy ("./" ++ r)).violation = none := by
  rw [subdirectory, Text.after?_append]
  simp [Text.split_of_not_mem h]

lemma subdirectory_violation_of_file {policy : PathPolicy} {r d f : String}
    (hcut : Text.CutAt '/' r d f) (hf : NoSlash f) :
    (subdirectory policy ("./" ++ r)).violation =
      judgeSubdirectory (EntryName.kind (stripExtension policy.extensions f)) := by
  rw [subdirectory, Text.after?_append]
  simp [hcut.split_eq, Text.split_of_not_mem hf, ofLastSegment]

lemma subdirectory_violation_of_deep {policy : PathPolicy} {r : String}
    (h : 2 ≤ r.toList.count '/') :
    (subdirectory policy ("./" ++ r)).violation = some .tooManyDirectorySegments := by
  have hlen := Text.length_split '/' r
  rw [subdirectory, Text.after?_append]
  match hs : Text.split '/' r with
  | [] => simp [hs]
  | [_] => rw [hs] at hlen; simp at hlen; omega
  | [_, _] => rw [hs] at hlen; simp at hlen; omega
  | _ :: _ :: _ :: _ => simp [hs]

lemma subdirectory_decides (policy : PathPolicy) (r : String) :
    SubdirectoryDecision policy r (subdirectory policy ("./" ++ r)).violation := by
  rcases Text.separator_cases '/' r with h | ⟨d, f, hcut, hf⟩ | ⟨d, x, hcut, hx⟩
  · have hr : NoSlash r := h
    have hzero : r.toList.count '/' = 0 := List.count_eq_zero.mpr h
    rw [subdirectory_violation_of_noSlash hr]
    exact
      { deep_iff := by simp [hzero]
        free_iff := by simp [hr]
        other := fun _ hnot => absurd (Or.inl hr) hnot }
  · have hf : NoSlash f := hf
    have hone : r.toList.count '/' = 1 := by
      rw [hcut.count_eq, List.count_eq_zero.mpr hf]
    have hslash : ¬NoSlash r := fun h => h.not_cutAt hcut
    rw [subdirectory_violation_of_file hcut hf]
    refine { deep_iff := ?_, free_iff := ?_, other := ?_ }
    · constructor
      · intro h
        exact absurd h (by cases EntryName.kind (stripExtension policy.extensions f) <;> decide)
      · intro h
        omega
    · rw [judgeSubdirectory_eq_none_iff, kind_eq_normal_iff_normalFile,
        exists_directoryFile_iff hcut]
      simp [hslash, hf]
    · intro _ hnot
      rw [exists_directoryFile_iff hcut, ← kind_eq_normal_iff_normalFile] at hnot
      exact judgeSubdirectory_eq_some fun hk => hnot (Or.inr ⟨hf, hk⟩)
  · have hx : ¬NoSlash x := not_not.mpr hx
    have hdeep : 2 ≤ r.toList.count '/' := by
      have hpos : 0 < x.toList.count '/' := List.count_pos_iff.mpr (not_not.mp hx)
      rw [hcut.count_eq]
      omega
    have hslash : ¬NoSlash r := fun h => h.not_cutAt hcut
    rw [subdirectory_violation_of_deep hdeep]
    exact
      { deep_iff := iff_of_true rfl hdeep
        free_iff := by simp [exists_directoryFile_iff hcut, hslash, hx]
        other := fun h => absurd hdeep h }

end Classification

/-! ## Which rule applies -/

lemma explain_of_topLevel {policy : PathPolicy} {path : String} (h : IsTopLevel policy path) :
    explain policy path = Classification.topLevel policy path := by
  have hclass : PathClass.ofPath policy path = .topLevel := by
    rw [PathClass.ofPath, if_pos (Text.startsWith_iff.mpr h)]
  rw [explain, hclass]

lemma classify_of_topLevel {policy : PathPolicy} {path : String} (h : IsTopLevel policy path) :
    classify policy path = (Classification.topLevel policy path).violation := by
  rw [classify, explain_of_topLevel h]

/-- Below the alias, everything that does not start with a dot is free. -/
lemma ofPath_of_not_topLevel {policy : PathPolicy} {path : String} (h : ¬IsTopLevel policy path) :
    PathClass.ofPath policy path =
      if !Text.startsWith "." path then .unrecognized
      else if path = ".." || Text.startsWith "../" path then .parentTraversal
      else .subdirectoryOrSibling := by
  rw [PathClass.ofPath, if_neg (mt Text.startsWith_iff.mp h)]

lemma isParent_iff (path : String) :
    IsParent path ↔ (path = ".." || Text.startsWith "../" path) = true := by
  rw [Bool.or_eq_true, decide_eq_true_eq, Text.startsWith_iff, IsParent]

lemma startsWith_dot_of_isParent {path : String} (h : IsParent path) :
    Text.startsWith "." path = true := by
  rw [Text.startsWith_iff]
  rcases h with rfl | ⟨r, rfl⟩
  · exact ⟨".", rfl⟩
  · exact ⟨"./" ++ r, by rw [← String.append_assoc]; rfl⟩

lemma classify_of_parent {policy : PathPolicy} {path : String} (htop : ¬IsTopLevel policy path)
    (h : IsParent path) : classify policy path = (Classification.parent policy path).violation := by
  have hclass : PathClass.ofPath policy path = .parentTraversal := by
    rw [ofPath_of_not_topLevel htop, startsWith_dot_of_isParent h, if_neg (by simp),
      if_pos ((isParent_iff path).mp h)]
  rw [classify, explain, hclass]

lemma classify_of_subdirectory {policy : PathPolicy} {r : String}
    (htop : ¬IsTopLevel policy ("./" ++ r)) (hparent : ¬IsParent ("./" ++ r)) :
    classify policy ("./" ++ r) = (Classification.subdirectory policy ("./" ++ r)).violation := by
  have hdot : Text.startsWith "." ("./" ++ r) = true :=
    Text.startsWith_iff.mpr ⟨"/" ++ r, by rw [← String.append_assoc]; rfl⟩
  have hclass : PathClass.ofPath policy ("./" ++ r) = .subdirectoryOrSibling := by
    rw [ofPath_of_not_topLevel htop, hdot, if_neg (by simp),
      if_neg (mt (isParent_iff _).mpr hparent)]
  rw [classify, explain, hclass]

/-- A path with none of the three starts is free, whether it starts with a dot or not. -/
lemma classify_of_other {policy : PathPolicy} {path : String} (htop : ¬IsTopLevel policy path)
    (hparent : ¬IsParent path) (hdot : ¬∃ r, path = "./" ++ r) : classify policy path = none := by
  have hsub : (Classification.subdirectory policy path).violation = none := by
    rw [Classification.subdirectory, Text.after?_eq_none hdot]
  rw [classify, explain, ofPath_of_not_topLevel htop]
  by_cases h : Text.startsWith "." path = true
  · rw [h, if_neg (by simp), if_neg (mt (isParent_iff path).mpr hparent)]
    exact hsub
  · rw [if_pos (by simpa using h)]

/-- Every path is decided by the rule for its start: the alias comes first, then the parent
directory, then the current directory; all other paths are free. -/
theorem classify_decides (policy : PathPolicy) (path : String) :
    (∀ r, path = policy.topLevelMarker ++ r →
      TopLevelDecision policy r (classify policy path)) ∧
    (¬IsTopLevel policy path → IsParent path →
      ParentDecision policy path (classify policy path)) ∧
    (¬IsTopLevel policy path → ¬IsParent path → ∀ r, path = "./" ++ r →
      SubdirectoryDecision policy r (classify policy path)) ∧
    (¬IsTopLevel policy path → ¬IsParent path → (¬∃ r, path = "./" ++ r) →
      classify policy path = none) := by
  refine ⟨?_, ?_, ?_, classify_of_other⟩
  · rintro r rfl
    rw [classify_of_topLevel ⟨r, rfl⟩]
    exact Classification.topLevel_decides policy r
  · intro htop hparent
    rw [classify_of_parent htop hparent]
    exact Classification.parent_decides hparent
  · rintro htop hparent r rfl
    rw [classify_of_subdirectory htop hparent]
    exact Classification.subdirectory_decides policy r

end EntryLint
