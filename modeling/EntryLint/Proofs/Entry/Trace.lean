import EntryLint.Proofs.Entry.Decision

/-!
# The trace of a classification

A classification keeps the values it was decided on: the segments of the path, the name that was
held against the grammars, and its kind. The main result is `faithful_explain`: on every path these
values are what they are said to be. The segments make up the path again behind the mark of its
class, the name comes from the last of them, and only the shape of a path is judged without a name.
-/

namespace EntryLint

/-! ## Faithful traces -/

namespace PathClass

/-- What a class says about a path. The alias comes first. -/
def Fits (policy : PathPolicy) (path : String) : PathClass → Prop
  | .topLevel => IsTopLevel policy path
  | .parentTraversal => ¬IsTopLevel policy path ∧ IsParent path
  | .subdirectoryOrSibling =>
    ¬IsTopLevel policy path ∧ ¬IsParent path ∧ ∃ r, path = "." ++ r
  | .unrecognized => ¬IsTopLevel policy path ∧ ¬∃ r, path = "." ++ r

lemma fits_ofPath (policy : PathPolicy) (path : String) :
    (ofPath policy path).Fits policy path := by
  by_cases htop : IsTopLevel policy path
  · rw [ofPath, if_pos (Text.startsWith_iff.mpr htop)]
    exact htop
  · rw [ofPath_of_not_topLevel htop]
    by_cases hdot : Text.startsWith "." path = true
    · rw [if_neg (by simp [hdot])]
      by_cases hparent : IsParent path
      · rw [if_pos ((isParent_iff path).mp hparent)]
        exact ⟨htop, hparent⟩
      · rw [if_neg (mt (isParent_iff path).mpr hparent)]
        exact ⟨htop, hparent, Text.startsWith_iff.mp hdot⟩
    · rw [if_pos (by simpa using hdot)]
      exact ⟨htop, mt Text.startsWith_iff.mpr hdot⟩

/-- `Marks policy path m c`: the mark `m` stands before the segments of a path of class `c`. -/
inductive Marks (policy : PathPolicy) (path : String) : String → PathClass → Prop
  | topLevel : Marks policy path policy.topLevelMarker .topLevel
  | parent : Marks policy path "" .parentTraversal
  | below (h : ∃ r, path = "./" ++ r) : Marks policy path "./" .subdirectoryOrSibling
  | hidden (h : ¬∃ r, path = "./" ++ r) : Marks policy path "" .subdirectoryOrSibling

end PathClass

namespace Classification

/-- The name and the kind in a classification are those of the last of at most two segments. Without
them there is no violation but one of the shape of a path. -/
structure Judged (policy : PathPolicy) (c : Classification) : Prop where
  isSome_iff : c.entryName.isSome ↔ c.entryKind.isSome
  named : ∀ name, c.entryName = some name →
    c.segments.length ≤ 2 ∧
    (∃ last, c.segments.getLast? = some last ∧ Stripped policy.extensions last name) ∧
    ∃ kind, c.entryKind = some kind ∧ EntryName.HasKind name kind
  unnamed : c.entryName = none →
    c.violation = none ∨ c.violation = some .invalidTopLevelImport ∨
      c.violation = some .invalidTopLevelImportDepth ∨
      c.violation = some .tooManyDirectorySegments

/-- A classification is about a path, says of which class it is, and takes it apart: the segments,
with slashes between them, make it up again behind the mark of its class. -/
structure Faithful (policy : PathPolicy) (path : String) (c : Classification) : Prop where
  path_eq : c.path = path
  fits : c.pathClass.Fits policy path
  noSlash : ∀ s ∈ c.segments, NoSlash s
  recognized : c.pathClass ≠ .unrecognized → ∃ mark, c.pathClass.Marks policy path mark ∧
    path = mark ++ Text.join "/" c.segments
  unrecognized : c.pathClass = .unrecognized → c.segments = []
  judged : c.Judged policy

variable {policy : PathPolicy} {path : String}

/-! ## One classification after the other -/

lemma judged_ofLastSegment (policy : PathPolicy) (path : String) (pathClass : PathClass)
    {segments : List String} {file : String} (judge : EntryKind → Option Violation)
    (hlength : segments.length ≤ 2) (hlast : segments.getLast? = some file) :
    (ofLastSegment policy path pathClass segments file judge).Judged policy where
  isSome_iff := by simp [ofLastSegment]
  named := by
    rintro _ ⟨⟩
    refine ⟨hlength, ⟨file, hlast, stripped_stripExtension _ _⟩, _, rfl, ?_⟩
    exact (EntryName.kind_eq_iff_hasKind _ _).mp rfl
  unnamed := nofun

/-- Where no name was looked at, a path is judged by its shape. -/
lemma judged_of_shape {c : Classification} (hname : c.entryName = none) (hkind : c.entryKind = none)
    (hviolation : c.violation = none ∨ c.violation = some .invalidTopLevelImport ∨
      c.violation = some .invalidTopLevelImportDepth ∨
      c.violation = some .tooManyDirectorySegments) : c.Judged policy where
  isSome_iff := by simp [hname, hkind]
  named := by
    intro name h
    rw [hname] at h
    cases h
  unnamed := fun _ => hviolation

/-- A classification keeps the path, its class and the segments it was cut into, and judges them. -/
structure Keeps (policy : PathPolicy) (path : String) (pathClass : PathClass)
    (segments : List String) (c : Classification) : Prop where
  path_eq : c.path = path
  pathClass_eq : c.pathClass = pathClass
  segments_eq : c.segments = segments
  judged : c.Judged policy

lemma topLevel_keeps (policy : PathPolicy) (r : String) :
    (topLevel policy (policy.topLevelMarker ++ r)).Keeps policy (policy.topLevelMarker ++ r)
      .topLevel (Text.split '/' r) := by
  rw [topLevel, Text.dropFirst_append]
  rcases Text.split '/' r with _ | ⟨m, _ | ⟨f, _ | ⟨x, xs⟩⟩⟩
  · exact ⟨rfl, rfl, rfl, judged_of_shape rfl rfl (by simp)⟩
  · exact ⟨rfl, rfl, rfl, judged_of_shape rfl rfl (by simp)⟩
  · by_cases hempty : (m = "" || f = "") = true
    · simp only [hempty]
      exact ⟨rfl, rfl, rfl, judged_of_shape rfl rfl (by simp)⟩
    · simp only [hempty]
      exact ⟨rfl, rfl, rfl, judged_ofLastSegment _ _ _ _ Nat.le.refl rfl⟩
  · refine ⟨rfl, rfl, rfl, judged_of_shape rfl rfl ?_⟩
    by_cases hm : m = ""
    · simp [hm]
    · simp [hm]

lemma parent_keeps (policy : PathPolicy) (path : String) :
    (parent policy path).Keeps policy path .parentTraversal (Text.split '/' path) := by
  rw [parent]
  rcases Text.split '/' path with _ | ⟨d, _ | ⟨f, _ | ⟨x, xs⟩⟩⟩
  · exact ⟨rfl, rfl, rfl, judged_of_shape rfl rfl (by simp)⟩
  · exact ⟨rfl, rfl, rfl, judged_ofLastSegment _ _ _ _ (by simp) rfl⟩
  · exact ⟨rfl, rfl, rfl, judged_ofLastSegment _ _ _ _ Nat.le.refl rfl⟩
  · exact ⟨rfl, rfl, rfl, judged_of_shape rfl rfl (by simp)⟩

lemma subdirectory_keeps (policy : PathPolicy) (r : String) :
    (subdirectory policy ("./" ++ r)).Keeps policy ("./" ++ r) .subdirectoryOrSibling
      (Text.split '/' r) := by
  simp only [subdirectory, Text.after?_append]
  rcases Text.split '/' r with _ | ⟨d, _ | ⟨f, _ | ⟨x, xs⟩⟩⟩
  · exact ⟨rfl, rfl, rfl, judged_of_shape rfl rfl (by simp)⟩
  · exact ⟨rfl, rfl, rfl, judged_of_shape rfl rfl (by simp)⟩
  · exact ⟨rfl, rfl, rfl, judged_ofLastSegment _ _ _ _ Nat.le.refl rfl⟩
  · exact ⟨rfl, rfl, rfl, judged_of_shape rfl rfl (by simp)⟩

/-- Without the mark of the current directory the whole path is cut. -/
lemma subdirectory_keeps_hidden (policy : PathPolicy) (h : ¬∃ r, path = "./" ++ r) :
    (subdirectory policy path).Keeps policy path .subdirectoryOrSibling (Text.split '/' path) := by
  rw [subdirectory, Text.after?_eq_none h]
  exact ⟨rfl, rfl, rfl, judged_of_shape rfl rfl (by simp)⟩

/-! ## All of them -/

/-- The segments that were cut off behind a mark make up the path again. -/
lemma Keeps.faithful {c : Classification} {pathClass : PathClass} {mark rest : String}
    (h : c.Keeps policy path pathClass (Text.split '/' rest)) (hfits : pathClass.Fits policy path)
    (hmark : pathClass.Marks policy path mark) (hpath : path = mark ++ rest) :
    c.Faithful policy path where
  path_eq := h.path_eq
  fits := h.pathClass_eq ▸ hfits
  noSlash := by
    intro s hs
    rw [h.segments_eq] at hs
    exact Text.not_mem_of_mem_split hs
  recognized := by
    intro _
    refine ⟨mark, h.pathClass_eq ▸ hmark, ?_⟩
    rw [h.segments_eq]
    exact hpath.trans (congrArg (mark ++ ·) (Text.join_split '/' rest).symm)
  unrecognized := by
    intro hclass
    rw [h.pathClass_eq] at hclass
    subst hclass
    cases hmark
  judged := h.judged

end Classification

section

variable {policy : PathPolicy} {path : String}

lemma explain_eq_of_ofPath (h : PathClass.ofPath policy path = .unrecognized) :
    explain policy path = { path, pathClass := .unrecognized } := by
  rw [explain, h]

/-- A path of a class that has a mark is cut behind it. -/
lemma exists_keeps_explain (h : PathClass.ofPath policy path ≠ .unrecognized) :
    ∃ mark rest, (PathClass.ofPath policy path).Marks policy path mark ∧ path = mark ++ rest ∧
      (explain policy path).Keeps policy path (PathClass.ofPath policy path)
        (Text.split '/' rest) := by
  have hfits := PathClass.fits_ofPath policy path
  rw [explain]
  cases hclass : PathClass.ofPath policy path with
  | topLevel =>
    rw [hclass] at hfits
    obtain ⟨r, rfl⟩ := hfits
    exact ⟨_, r, .topLevel, rfl, Classification.topLevel_keeps policy r⟩
  | parentTraversal =>
    exact ⟨"", path, .parent, by simp, Classification.parent_keeps policy path⟩
  | subdirectoryOrSibling =>
    by_cases hbelow : ∃ r, path = "./" ++ r
    · obtain ⟨r, rfl⟩ := hbelow
      exact ⟨_, r, .below ⟨r, rfl⟩, rfl, Classification.subdirectory_keeps policy r⟩
    · exact ⟨"", path, .hidden hbelow, by simp,
        Classification.subdirectory_keeps_hidden policy hbelow⟩
  | unrecognized => exact absurd hclass h

/-- A classification is about the path that was asked about. -/
lemma path_explain (policy : PathPolicy) (path : String) : (explain policy path).path = path := by
  by_cases h : PathClass.ofPath policy path = .unrecognized
  · rw [explain_eq_of_ofPath h]
  · obtain ⟨mark, rest, -, -, hkeeps⟩ := exists_keeps_explain h
    exact hkeeps.path_eq

end

/-- The values in a classification are what they are said to be, whatever the path and the policy
are. -/
theorem faithful_explain (policy : PathPolicy) (path : String) :
    (explain policy path).Faithful policy path := by
  have hfits := PathClass.fits_ofPath policy path
  by_cases h : PathClass.ofPath policy path = .unrecognized
  · rw [h] at hfits
    rw [explain_eq_of_ofPath h]
    exact ⟨rfl, hfits, fun s hs => absurd hs List.not_mem_nil, fun h => absurd rfl h, fun _ => rfl,
      Classification.judged_of_shape rfl rfl (.inl rfl)⟩
  · obtain ⟨mark, rest, hmark, hpath, hkeeps⟩ := exists_keeps_explain h
    exact hkeeps.faithful hfits hmark hpath

end EntryLint
