import EntryLint.Entry.Name
import EntryLint.Proofs.Text.Segments

/-!
# The grammars of entry names

The checks on dot-separated pieces accept exactly the names that the two grammars produce:
`NormalEntry` is `entry` followed by segments that each have a dot in front, `ChildrenEntry` is
`entry..`, segments that each have a dot behind, and `children`. The main result is
`kind_by_grammar`: the grammars as they are written, which have no name in common, decide the kind
of every name.
-/

namespace EntryLint.EntryName

/-- `entry`, then any number of segments with a dot in front of each. -/
def NormalEntry (name : String) : Prop :=
  ∃ segments : List (List Char), (∀ s ∈ segments, isSegment s = true) ∧
    name.toList = "entry".toList ++ segments.flatMap (['.'] ++ ·)

/-- `entry..`, then any number of segments with a dot behind each, then `children`. -/
def ChildrenEntry (name : String) : Prop :=
  ∃ segments : List (List Char), (∀ s ∈ segments, isSegment s = true) ∧
    name.toList = "entry..".toList ++ segments.flatMap (· ++ ['.']) ++ "children".toList

lemma dot_not_mem_of_isSegment {s : List Char} (h : isSegment s = true) : '.' ∉ s := by
  intro hdot
  rw [isSegment, Bool.and_eq_true, List.all_eq_true] at h
  have hchar : isSegmentChar '.' = true := h.2 '.' hdot
  exact absurd hchar (by decide)

/-! ## Normal entries -/

/-- The names that normal entries are the texts of, piece by piece. -/
lemma normalPieces_iff {ps : List (List Char)} :
    normalPieces ps = true ↔
      ∃ segments, (∀ s ∈ segments, isSegment s = true) ∧ ps = "entry".toList :: segments := by
  cases ps with
  | nil => simp [normalPieces]
  | cons head segments =>
    constructor
    · intro h
      rw [normalPieces, Bool.and_eq_true, decide_eq_true_eq, List.all_eq_true] at h
      exact ⟨segments, h.2, by rw [h.1]⟩
    · rintro ⟨segments', hseg, heq⟩
      obtain ⟨rfl, rfl⟩ := List.cons.inj heq
      rw [normalPieces, Bool.and_eq_true, decide_eq_true_eq, List.all_eq_true]
      exact ⟨rfl, hseg⟩

lemma isNormal_iff (name : String) : isNormal name = true ↔ NormalEntry name := by
  rw [isNormal, normalPieces_iff]
  refine exists_congr fun segments => and_congr_right fun hseg => ?_
  rw [← Text.intercalate_cons_eq]
  constructor
  · intro h
    rw [← h, Text.intercalate_pieces]
  · intro h
    rw [h, Text.pieces_intercalate (List.cons_ne_nil _ _)]
    intro p hp
    rcases List.mem_cons.mp hp with rfl | hp
    · decide
    · exact dot_not_mem_of_isSegment (hseg p hp)

/-! ## Children entries -/

lemma childrenPieces_iff {ps : List (List Char)} :
    childrenPieces ps = true ↔
      ∃ segments, (∀ s ∈ segments, isSegment s = true) ∧
        ps = "entry".toList :: [] :: (segments ++ ["children".toList]) := by
  match ps with
  | [] => simp [childrenPieces]
  | [_] => simp [childrenPieces]
  | head :: gap :: rest =>
    simp only [childrenPieces, Bool.and_eq_true, decide_eq_true_eq, List.isEmpty_iff,
      List.all_eq_true, List.cons.injEq]
    constructor
    · rintro ⟨⟨⟨hhead, hgap⟩, hlast⟩, hseg⟩
      obtain ⟨segments, rfl⟩ := List.getLast?_eq_some_iff.mp hlast
      rw [List.dropLast_concat] at hseg
      exact ⟨segments, hseg, hhead, hgap, rfl⟩
    · rintro ⟨segments, hseg, hhead, hgap, hrest⟩
      subst hrest
      refine ⟨⟨⟨hhead, hgap⟩, by simp⟩, ?_⟩
      rwa [List.dropLast_concat]

/-- A children entry as its pieces with dots between them. -/
lemma childrenText_eq (segments : List (List Char)) :
    "entry..".toList ++ segments.flatMap (· ++ ['.']) ++ "children".toList =
      ['.'].intercalate ("entry".toList :: [] :: (segments ++ ["children".toList])) := by
  rw [List.intercalate_cons_cons, List.intercalate_cons_of_ne_nil (by simp),
    Text.intercalate_concat]
  simp

lemma isChildren_iff (name : String) : isChildren name = true ↔ ChildrenEntry name := by
  rw [isChildren, childrenPieces_iff]
  refine exists_congr fun segments => and_congr_right fun hseg => ?_
  rw [childrenText_eq]
  constructor
  · intro h
    rw [← h, Text.intercalate_pieces]
  · intro h
    rw [h, Text.pieces_intercalate (List.cons_ne_nil _ _)]
    intro p hp
    simp only [List.mem_cons, List.mem_append, List.not_mem_nil, or_false] at hp
    rcases hp with rfl | rfl | hp | rfl
    · decide
    · exact List.not_mem_nil
    · exact dot_not_mem_of_isSegment (hseg p hp)
    · decide

/-- The second piece tells the grammars apart: it is empty in a children entry and never in a
normal one. -/
lemma not_isNormal_of_isChildren {name : String} (h : isChildren name = true) :
    isNormal name = false := by
  rw [isChildren, childrenPieces_iff] at h
  obtain ⟨segments, -, hp⟩ := h
  rw [isNormal, hp]
  simp [normalPieces, isSegment]

/-! ## Kinds -/

lemma kind_eq_children_iff (name : String) : kind name = .children ↔ ChildrenEntry name := by
  rw [← isChildren_iff, kind]
  split
  · simp [*]
  · split <;> simp [*]

lemma kind_eq_normal_iff (name : String) : kind name = .normal ↔ NormalEntry name := by
  rw [← isNormal_iff, kind]
  split
  · rename_i h
    simp [not_isNormal_of_isChildren h]
  · split <;> simp [*]

/-! ## Names as they are written -/

/-- ASCII letters, digits and the hyphen. -/
def SegmentChar (c : Char) : Prop :=
  ('0' ≤ c ∧ c ≤ '9') ∨ ('A' ≤ c ∧ c ≤ 'Z') ∨ ('a' ≤ c ∧ c ≤ 'z') ∨ c = '-'

/-- A text of segment characters that is not empty. -/
def Segment (s : String) : Prop :=
  s ≠ "" ∧ ∀ c ∈ s.toList, SegmentChar c

/-- `entry`, then a dot and a segment any number of times. -/
def WrittenNormal (name : String) : Prop :=
  ∃ segments : List String, (∀ s ∈ segments, Segment s) ∧
    name = "entry" ++ String.join (segments.map ("." ++ ·))

/-- `entry..`, then a segment and a dot any number of times, then `children`. -/
def WrittenChildren (name : String) : Prop :=
  ∃ segments : List String, (∀ s ∈ segments, Segment s) ∧
    name = "entry.." ++ String.join (segments.map (· ++ ".")) ++ "children"

lemma isSegmentChar_iff (c : Char) : isSegmentChar c = true ↔ SegmentChar c := by
  unfold isSegmentChar Char.isAlphanum Char.isAlpha Char.isUpper Char.isLower Char.isDigit
  simp only [SegmentChar, Bool.or_eq_true, Bool.and_eq_true, decide_eq_true_eq, Char.le_def]
  tauto

lemma isSegment_toList_iff (s : String) : isSegment s.toList = true ↔ Segment s := by
  rw [isSegment, Bool.and_eq_true, List.all_eq_true]
  simp only [isSegmentChar_iff, Segment]
  simp

/-- Whether segments are lists of characters or texts makes no difference. -/
lemma exists_segments_iff {P : List (List Char) → Prop} :
    (∃ segments, (∀ s ∈ segments, isSegment s = true) ∧ P segments) ↔
      ∃ segments : List String, (∀ s ∈ segments, Segment s) ∧ P (segments.map String.toList) := by
  constructor
  · rintro ⟨segments, hseg, hp⟩
    have hlists : (segments.map String.ofList).map String.toList = segments := by
      rw [List.map_map]
      simp [Function.comp_def]
    refine ⟨segments.map String.ofList, ?_, by rwa [hlists]⟩
    intro s hs
    obtain ⟨cs, hcs, rfl⟩ := List.mem_map.mp hs
    rw [← isSegment_toList_iff, String.toList_ofList]
    exact hseg cs hcs
  · rintro ⟨segments, hseg, hp⟩
    refine ⟨segments.map String.toList, ?_, hp⟩
    intro cs hcs
    obtain ⟨s, hs, rfl⟩ := List.mem_map.mp hcs
    exact (isSegment_toList_iff s).mpr (hseg s hs)

lemma isNormal_iff_written (name : String) : isNormal name = true ↔ WrittenNormal name := by
  rw [isNormal_iff, NormalEntry, exists_segments_iff]
  refine exists_congr fun segments => and_congr_right fun _ => ?_
  rw [← String.toList_inj, String.toList_append, String.toList_join, List.flatMap_map]
  simp [List.flatMap_map]

lemma isChildren_iff_written (name : String) : isChildren name = true ↔ WrittenChildren name := by
  rw [isChildren_iff, ChildrenEntry, exists_segments_iff]
  refine exists_congr fun segments => and_congr_right fun _ => ?_
  rw [← String.toList_inj, String.toList_append, String.toList_append, String.toList_join]
  simp [List.flatMap_map]

/-- What a kind says about a name. -/
def HasKind (name : String) : EntryKind → Prop
  | .normal => WrittenNormal name
  | .children => WrittenChildren name
  | .plain => ¬WrittenNormal name ∧ ¬WrittenChildren name

lemma kind_eq_iff_hasKind (name : String) (k : EntryKind) : kind name = k ↔ HasKind name k := by
  have hchildren := (kind_eq_children_iff name).trans (isChildren_iff name).symm
  have hnormal := (kind_eq_normal_iff name).trans (isNormal_iff name).symm
  rw [isChildren_iff_written] at hchildren
  rw [isNormal_iff_written] at hnormal
  cases k with
  | normal => exact hnormal
  | children => exact hchildren
  | plain =>
    rw [HasKind, ← hnormal, ← hchildren]
    cases kind name with
    | normal => decide
    | children => decide
    | plain => decide

/-- A segment more at the end of a normal entry. -/
lemma WrittenNormal.append {name seg : String} (h : WrittenNormal name) (hseg : Segment seg) :
    WrittenNormal (name ++ "." ++ seg) := by
  obtain ⟨segments, hall, rfl⟩ := h
  refine ⟨segments ++ [seg], ?_, ?_⟩
  · intro s hs
    rcases List.mem_append.mp hs with hs | hs
    · exact hall s hs
    · rwa [List.mem_singleton.mp hs]
  · rw [List.map_append, String.join_append]
    simp [String.append_assoc]

/-- A segment more at the start of what follows `entry..`. -/
lemma WrittenChildren.insert {rest seg : String} (h : WrittenChildren ("entry.." ++ rest))
    (hseg : Segment seg) : WrittenChildren ("entry.." ++ seg ++ "." ++ rest) := by
  obtain ⟨segments, hall, hname⟩ := h
  rw [String.append_assoc] at hname
  have hrest := (String.append_right_inj "entry..").mp hname
  refine ⟨seg :: segments, List.forall_mem_cons.mpr ⟨hseg, hall⟩, ?_⟩
  rw [hrest, List.map_cons, String.join_cons]
  simp only [String.append_assoc]

/-- A name is a normal entry, or a children entry, exactly if the grammar writes it so, and never
both; its kind says which. A segment more at the end keeps a normal entry normal, and a segment more
behind `entry..` keeps a children entry one. -/
theorem kind_by_grammar :
    (∀ name, isNormal name = true ↔ WrittenNormal name) ∧
    (∀ name, isChildren name = true ↔ WrittenChildren name) ∧
    (∀ name, ¬(isNormal name = true ∧ isChildren name = true)) ∧
    (∀ name k, kind name = k ↔ HasKind name k) ∧
    (∀ name seg, isNormal name = true → Segment seg → isNormal (name ++ "." ++ seg) = true) ∧
    ∀ rest seg, isChildren ("entry.." ++ rest) = true → Segment seg →
      isChildren ("entry.." ++ seg ++ "." ++ rest) = true := by
  refine ⟨isNormal_iff_written, isChildren_iff_written, ?_, kind_eq_iff_hasKind, ?_, ?_⟩
  · rintro name ⟨hnormal, hchildren⟩
    rw [not_isNormal_of_isChildren hchildren] at hnormal
    cases hnormal
  · intro name seg hname hseg
    rw [isNormal_iff_written] at hname ⊢
    exact hname.append hseg
  · intro rest seg hname hseg
    rw [isChildren_iff_written] at hname ⊢
    exact hname.insert hseg

lemma segment_children : Segment "children" :=
  (isSegment_toList_iff "children").mp (by decide)

/-- The last word of the children grammar is a segment like any other. -/
theorem kind_by_grammar_children :
    isNormal "entry.v-2" = true ∧ isChildren ("entry.." ++ "children") = true ∧
    Segment "children" ∧ isNormal ("entry.v-2" ++ "." ++ "children") = true ∧
    isChildren ("entry.." ++ "children" ++ "." ++ "children") = true := by
  have hnormal : isNormal "entry.v-2" = true := by decide
  have hchildren : isChildren ("entry.." ++ "children") = true := by decide
  obtain ⟨-, -, -, -, happend, hinsert⟩ := kind_by_grammar
  exact ⟨hnormal, hchildren, segment_children, happend _ _ hnormal segment_children,
    hinsert _ _ hchildren segment_children⟩

end EntryLint.EntryName
