import EntryLint.Files.Path
import EntryLint.Proofs.Config.Defects
import EntryLint.Proofs.Entry.Decision

/-!
# What a classification does not depend on

Three laws about pairs of classifications. An extension behind a path without one changes no verdict
(`classify_append_extension`): it is cut off again, and it neither makes nor breaks a start that
ends with a slash. The alias is a mere name (`explain_alias`): a path under one alias is read like
the same path under another, and no alias that is accepted shows in a relative path or in a path
under another alias. The list of extensions is a mere set (`stripExtension_cuts_longest`): paths are
read by what is cut off their last segments, and that is the longest of the extensions wherever it
stands in the list.
-/

namespace EntryLint

/-! ## Texts behind a path -/

lemma NoSlash.append {s e : String} (hs : NoSlash s) (he : NoSlash e) : NoSlash (s ++ e) := by
  rw [NoSlash, String.toList_append, List.mem_append, not_or]
  exact ⟨hs, he⟩

lemma not_noSlash_append {s : String} (hs : ¬NoSlash s) (e : String) : ¬NoSlash (s ++ e) := by
  rw [NoSlash, not_not] at hs ⊢
  rw [String.toList_append]
  exact List.mem_append_left _ hs

/-- What stands behind a slash and has none is the last segment. -/
lemma lastSegment_append (a : String) {f : String} (hf : NoSlash f) :
    lastSegment (a ++ "/" ++ f) = f := by
  have hys : Text.pieces '/' ('/' :: f.toList) = [] :: [f.toList] := by
    rw [Text.pieces_cons, if_pos rfl, Text.pieces_of_not_mem hf]
  obtain ⟨init, last, -, hpieces⟩ := Text.pieces_append hys a.toList
  have hlist : (a ++ "/" ++ f).toList = a.toList ++ '/' :: f.toList := by simp
  rw [lastSegment, Text.split, hlist, hpieces]
  simp

/-! ## Extensions behind a path -/

/-- A dot, then at least one character, and neither dots nor slashes among those. -/
def SingleDot (e : String) : Prop :=
  ∃ rest : List Char, e.toList = '.' :: rest ∧ rest ≠ [] ∧ '.' ∉ rest ∧ '/' ∉ rest

lemma SingleDot.noSlash {e : String} (h : SingleDot e) : NoSlash e := by
  obtain ⟨rest, htext, -, -, hslash⟩ := h
  rw [NoSlash, htext, List.mem_cons, not_or]
  exact ⟨by decide, hslash⟩

/-- Of extensions with one dot each, no longer one ends a name that ends with another. -/
lemma SingleDot.length_le {e e' : String} (h : SingleDot e) (h' : SingleDot e') {f start : String}
    (heq : f ++ e = start ++ e') : e'.length ≤ e.length := by
  obtain ⟨rest, htext, -⟩ := h
  obtain ⟨rest', htext', -, hdot', -⟩ := h'
  by_contra hlt
  have hlist : f.toList ++ e.toList = start.toList ++ e'.toList := by
    rw [← String.toList_append, ← String.toList_append, heq]
  rcases List.append_eq_append_iff.mp hlist with ⟨as, -, he⟩ | ⟨as, -, he⟩
  · have hlen := congrArg List.length he
    rw [List.length_append, String.length_toList, String.length_toList] at hlen
    omega
  · -- the dot of the shorter one would stand inside the longer one
    rw [htext, htext'] at he
    cases as with
    | nil =>
      rw [← String.length_toList, ← String.length_toList, htext, htext', he] at hlt
      exact hlt Nat.le.refl
    | cons c as =>
      apply hdot'
      rw [(List.cons.inj he).2]
      simp

section Extension

variable {policy : PathPolicy} {e : String}

/-- An extension behind a name without one is what is cut off. -/
lemma stripExtension_append (hext : ∀ e ∈ policy.extensions, SingleDot e)
    (he : e ∈ policy.extensions) {f : String}
    (hf : ∀ e ∈ policy.extensions, Text.endsWith e f = false) :
    stripExtension policy.extensions (f ++ e) = stripExtension policy.extensions f := by
  have hfree : Stripped policy.extensions f f := by
    refine .inr ⟨rfl, fun e' he' _ hends => ?_⟩
    rw [← Text.endsWith_iff, hf e' he'] at hends
    cases hends
  have hcut : Stripped policy.extensions (f ++ e) f := by
    refine .inl ⟨e, he, ?_, rfl, fun e' he' => ?_⟩
    · rintro rfl
      obtain ⟨rest, htext, -⟩ := hext _ he
      cases htext
    · rintro ⟨start, heq⟩
      exact (hext e he).length_le (hext e' he') heq
  rw [stripExtension_eq_iff.mpr hfree, stripExtension_eq_iff.mpr hcut]

lemma isTopLevel_append_iff (policy : PathPolicy) (he : NoSlash e) (p : String) :
    IsTopLevel policy (p ++ e) ↔ IsTopLevel policy p :=
  Text.exists_append_iff he policy.rootAlias p

/-- An extension makes no parent path: it is longer than a dot, and its second character is none. -/
lemma isParent_append_iff (he : SingleDot e) {p : String} (hp : p ≠ "..") :
    IsParent (p ++ e) ↔ IsParent p := by
  have hdots : p ++ e ≠ ".." := by
    intro h
    obtain ⟨rest, htext, hne, hdot, -⟩ := he
    obtain ⟨init, last, rfl⟩ := (List.eq_nil_or_concat' rest).resolve_left hne
    rw [← String.toList_inj, String.toList_append, htext, ← List.cons_append,
      ← List.append_assoc] at h
    obtain ⟨-, rfl⟩ := List.append_singleton_inj.mp (h.trans (show _ = ['.'] ++ ['.'] from rfl))
    exact hdot (by simp)
  rw [IsParent, IsParent, or_iff_right hp, or_iff_right hdots]
  exact Text.exists_append_iff he.noSlash ".." p

variable (hext : ∀ e ∈ policy.extensions, SingleDot e) (he : e ∈ policy.extensions) {p : String}
  (hlast : ∀ e ∈ policy.extensions, Text.endsWith e (lastSegment p) = false)

include hext he hlast

/-- The last segment of a path is judged alike with an extension behind it. -/
lemma kind_append {a f : String} (hpath : p = a ++ "/" ++ f) (hf : NoSlash f) :
    EntryName.kind (stripExtension policy.extensions (f ++ e)) =
      EntryName.kind (stripExtension policy.extensions f) := by
  rw [hpath, lastSegment_append a hf] at hlast
  rw [stripExtension_append hext he hlast]

namespace Classification

lemma topLevel_violation_append {r : String} (hpath : p = policy.topLevelMarker ++ r) :
    (topLevel policy (policy.topLevelMarker ++ (r ++ e))).violation =
      (topLevel policy (policy.topLevelMarker ++ r)).violation := by
  have hslash : NoSlash e := (hext e he).noSlash
  rcases Text.separator_cases '/' r with h | ⟨m, f, hcut, hf⟩ | ⟨m, x, hcut, hx⟩
  · rw [topLevel_violation_of_noSlash h, topLevel_violation_of_noSlash (NoSlash.append h hslash)]
  · have hfile : p = policy.topLevelMarker ++ m ++ "/" ++ f := by
      rw [hpath, (cutAt_slash_iff.mp hcut).1, String.append_assoc, String.append_assoc,
        String.append_assoc]
    rw [topLevel_violation_of_file hcut hf,
      topLevel_violation_of_file (hcut.append e) (NoSlash.append hf hslash),
      kind_append hext he hlast hfile hf]
  · have hx : ¬NoSlash x := not_not.mpr hx
    rw [topLevel_violation_of_deeper hcut hx,
      topLevel_violation_of_deeper (hcut.append e) (not_noSlash_append hx e)]

lemma parent_violation_append {r : String} (hpath : p = "../" ++ r) :
    (parent policy ("../" ++ (r ++ e))).violation = (parent policy ("../" ++ r)).violation := by
  by_cases hr : NoSlash r
  · rw [parent_violation_of_file hr, parent_violation_of_file (hr.append (hext e he).noSlash),
      kind_append hext he hlast (a := "..") hpath hr]
  · have hdeep : ∀ s : String, ¬NoSlash s → 2 ≤ ("../" ++ s).toList.count '/' := by
      intro s hs
      have hpos : 0 < s.toList.count '/' := List.count_pos_iff.mpr (not_not.mp hs)
      rw [String.toList_append, List.count_append]
      have hone : "../".toList.count '/' = 1 := by decide
      omega
    rw [parent_violation_of_deep (hdeep r hr),
      parent_violation_of_deep (hdeep _ (not_noSlash_append hr e))]

lemma subdirectory_violation_append {r : String} (hpath : p = "./" ++ r) :
    (subdirectory policy ("./" ++ (r ++ e))).violation =
      (subdirectory policy ("./" ++ r)).violation := by
  have hslash : NoSlash e := (hext e he).noSlash
  rcases Text.separator_cases '/' r with h | ⟨d, f, hcut, hf⟩ | ⟨d, x, hcut, hx⟩
  · rw [subdirectory_violation_of_noSlash h,
      subdirectory_violation_of_noSlash (NoSlash.append h hslash)]
  · have hfile : p = "./" ++ d ++ "/" ++ f := by
      rw [hpath, (cutAt_slash_iff.mp hcut).1, String.append_assoc, String.append_assoc,
        String.append_assoc]
    rw [subdirectory_violation_of_file hcut hf,
      subdirectory_violation_of_file (hcut.append e) (NoSlash.append hf hslash),
      kind_append hext he hlast hfile hf]
  · have hdeep : 2 ≤ r.toList.count '/' := by
      have hpos : 0 < x.toList.count '/' := List.count_pos_iff.mpr hx
      rw [hcut.count_eq]
      omega
    have hdeep' : 2 ≤ (r ++ e).toList.count '/' := by
      rw [String.toList_append, List.count_append]
      omega
    rw [subdirectory_violation_of_deep hdeep, subdirectory_violation_of_deep hdeep']

end Classification

end Extension

/-- An extension behind a path without one changes no verdict, whatever the alias is. The parent
directory itself is left out: it is a parent path only as long as nothing follows it. -/
theorem classify_append_extension {policy : PathPolicy}
    (hext : ∀ e ∈ policy.extensions, SingleDot e) {p e : String} (hp : p ≠ "..")
    (hlast : ∀ e ∈ policy.extensions, Text.endsWith e (lastSegment p) = false)
    (he : e ∈ policy.extensions) : classify policy (p ++ e) = classify policy p := by
  have hslash : NoSlash e := (hext e he).noSlash
  -- without a slash of its own, the extension leaves every start as it is
  have htop_iff := isTopLevel_append_iff policy hslash p
  have hparent_iff := isParent_append_iff (hext e he) hp
  by_cases htop : IsTopLevel policy p
  · rw [classify_of_topLevel htop, classify_of_topLevel (htop_iff.mpr htop)]
    obtain ⟨r, hr⟩ := htop
    rw [hr, String.append_assoc, Classification.topLevel_violation_append hext he hlast hr]
  by_cases hparent : IsParent p
  · rw [classify_of_parent htop hparent,
      classify_of_parent (mt htop_iff.mp htop) (hparent_iff.mpr hparent)]
    obtain ⟨r, hr⟩ := hparent.resolve_left hp
    rw [hr, String.append_assoc, Classification.parent_violation_append hext he hlast hr]
  by_cases hsub : ∃ r, p = "./" ++ r
  · obtain ⟨r, rfl⟩ := hsub
    rw [String.append_assoc] at htop_iff hparent_iff ⊢
    rw [classify_of_subdirectory htop hparent,
      classify_of_subdirectory (mt htop_iff.mp htop) (mt hparent_iff.mp hparent),
      Classification.subdirectory_violation_append hext he hlast rfl]
  · have hsub_iff : (∃ r, p ++ e = "./" ++ r) ↔ ∃ r, p = "./" ++ r :=
      Text.exists_append_iff hslash "." p
    rw [classify_of_other htop hparent hsub, classify_of_other (mt htop_iff.mp htop)
      (mt hparent_iff.mp hparent) (mt hsub_iff.mp hsub)]

/-- A file without a name in a module, where the extension becomes the whole last segment. -/
theorem classify_append_extension_nameless :
    (∀ e ∈ [".ts", ".tsx"], SingleDot e ∧ Text.endsWith e (lastSegment "@/ui/") = false) ∧
    classify { extensions := [".ts", ".tsx"] } ("@/ui/" ++ ".tsx") =
      classify { extensions := [".ts", ".tsx"] } "@/ui/" := by
  have hext : ∀ e ∈ [".ts", ".tsx"], SingleDot e := by
    intro e he
    rcases List.mem_pair.mp he with rfl | rfl
    · exact ⟨['t', 's'], rfl, by decide, by decide, by decide⟩
    · exact ⟨['t', 's', 'x'], rfl, by decide, by decide, by decide⟩
  have hlast : ∀ e ∈ [".ts", ".tsx"], Text.endsWith e (lastSegment "@/ui/") = false := by decide
  refine ⟨fun e he => ⟨hext e he, hlast e he⟩, ?_⟩
  exact classify_append_extension hext (by decide) hlast (by decide)

/-! ## Names of the alias -/

/-- Two classifications were decided on the same values; only the paths may differ. -/
structure SameTrace (c c' : Classification) : Prop where
  pathClass : c.pathClass = c'.pathClass
  segments : c.segments = c'.segments
  entryName : c.entryName = c'.entryName
  entryKind : c.entryKind = c'.entryKind
  violation : c.violation = c'.violation

section Alias

variable {policy policy' : PathPolicy}

lemma pathClass_topLevel (policy : PathPolicy) (path : String) :
    (Classification.topLevel policy path).pathClass = .topLevel := by
  rw [Classification.topLevel]
  -- only a path of two segments is looked at more closely
  rcases Text.split '/' (Text.dropFirst policy.topLevelMarker.length path) with
    _ | ⟨m, _ | ⟨f, _ | ⟨x, rest⟩⟩⟩
  · rfl
  · rfl
  · by_cases hempty : (m = "" || f = "") = true
    · simp only [hempty, if_true]
    · simp only [hempty]
      rfl
  · rfl

/-- Behind the alias, top-level paths are read by the extensions alone. -/
lemma sameTrace_topLevel (hext : policy.extensions = policy'.extensions) (r : String) :
    SameTrace (Classification.topLevel policy (policy.topLevelMarker ++ r))
      (Classification.topLevel policy' (policy'.topLevelMarker ++ r)) := by
  rw [Classification.topLevel, Classification.topLevel, Text.dropFirst_append,
    Text.dropFirst_append]
  rcases Text.split '/' r with _ | ⟨m, _ | ⟨f, _ | ⟨x, rest⟩⟩⟩
  · exact ⟨rfl, rfl, rfl, rfl, rfl⟩
  · exact ⟨rfl, rfl, rfl, rfl, rfl⟩
  · simp only [Classification.ofLastSegment, hext]
    by_cases hempty : (m = "" || f = "") = true
    · simp only [hempty, if_true]
      exact ⟨rfl, rfl, rfl, rfl, rfl⟩
    · simp only [hempty]
      exact ⟨rfl, rfl, rfl, rfl, rfl⟩
  · exact ⟨rfl, rfl, rfl, rfl, rfl⟩

lemma ofLastSegment_congr
    (h : stripExtension policy.extensions = stripExtension policy'.extensions) :
    Classification.ofLastSegment policy = Classification.ofLastSegment policy' := by
  funext path pathClass segments file judge
  simp only [Classification.ofLastSegment, h]

/-- A path that starts with neither alias is read by the extensions alone. -/
lemma explain_congr {path : String} (h : ¬IsTopLevel policy path) (h' : ¬IsTopLevel policy' path)
    (hext : policy.extensions = policy'.extensions) :
    explain policy path = explain policy' path := by
  have hlast := ofLastSegment_congr (congrArg stripExtension hext)
  have hparent : Classification.parent policy path = Classification.parent policy' path := by
    simp only [Classification.parent, hlast]
  have hsub : Classification.subdirectory policy path =
      Classification.subdirectory policy' path := by
    simp only [Classification.subdirectory, hlast]
  -- the starts that are left are the same for both
  have hclass : PathClass.ofPath policy path = PathClass.ofPath policy' path := by
    rw [ofPath_of_not_topLevel h, ofPath_of_not_topLevel h']
  have htop : PathClass.ofPath policy' path ≠ .topLevel := by
    rw [ofPath_of_not_topLevel h']
    grind
  rw [explain, explain, hclass, hparent, hsub]
  cases hpath : PathClass.ofPath policy' path with
  | topLevel => exact absurd hpath htop
  | parentTraversal => rfl
  | subdirectoryOrSibling => rfl
  | unrecognized => rfl

/-- A path starts with an alias only if the alias is its first segment. -/
lemma eq_of_isTopLevel {a r : String} (ha : NoSlash a) (hpolicy : NoSlash policy.rootAlias)
    (h : IsTopLevel policy (a ++ "/" ++ r)) : a = policy.rootAlias := by
  obtain ⟨r', hr'⟩ := h
  have hcut : Text.CutAt '/' (a ++ "/" ++ r) a r := cutAt_slash_iff.mpr ⟨rfl, ha⟩
  exact (hcut.unique (cutAt_slash_iff.mpr ⟨hr', hpolicy⟩)).1

/-- An alias that is accepted does not start with a dot, and so nothing that starts with it does. -/
lemma Config.ProperAlias.not_startsWith_dot {a : String} (ha : Config.ProperAlias a)
    (rest : String) :
    Text.startsWith "." (a ++ rest) = false := by
  obtain ⟨c, cs, hcs⟩ := List.exists_cons_of_ne_nil (mt String.toList_eq_nil_iff.mp ha.ne_empty)
  have hc : c ≠ '.' := by
    rintro rfl
    exact ha.noDot (by rw [hcs]; rfl)
  rw [← Bool.not_eq_true, Config.startsWith_dot_iff, String.toList_append, hcs]
  simpa using hc

lemma not_isTopLevel_of_dot (h : Config.ProperAlias policy.rootAlias) (r : String) :
    ¬IsTopLevel policy ("." ++ r) := by
  rintro ⟨rest, hrest⟩
  have hdot : Text.startsWith "." ("." ++ r) = true := Text.startsWith_iff.mpr ⟨r, rfl⟩
  rw [hrest, PathPolicy.topLevelMarker, String.append_assoc, h.not_startsWith_dot] at hdot
  cases hdot

lemma explain_of_unrecognized {path : String} (htop : ¬IsTopLevel policy path)
    (hdot : Text.startsWith "." path = false) :
    explain policy path = { path, pathClass := .unrecognized } := by
  have hclass : PathClass.ofPath policy path = .unrecognized := by
    rw [ofPath_of_not_topLevel htop, hdot]
    rfl
  rw [explain, hclass]

/-- Under two accepted aliases the same rest of a path is read alike, as a top-level path. A path
under one of them is unrecognized, and so free, under every other. Relative paths are read alike. -/
theorem explain_alias {a b origin origin' : String} (ha : Config.checkAlias a origin = .ok ())
    (hb : Config.checkAlias b origin' = .ok ()) (extensions : List String) :
    (∀ r, (explain { rootAlias := a, extensions } (a ++ "/" ++ r)).pathClass = .topLevel ∧
      SameTrace (explain { rootAlias := a, extensions } (a ++ "/" ++ r))
        (explain { rootAlias := b, extensions } (b ++ "/" ++ r))) ∧
    (a ≠ b → ∀ r, explain { rootAlias := b, extensions } (a ++ "/" ++ r) =
      { path := a ++ "/" ++ r, pathClass := .unrecognized, violation := none }) ∧
    ∀ r, explain { rootAlias := a, extensions } ("." ++ r) =
      explain { rootAlias := b, extensions } ("." ++ r) := by
  rw [Config.checkAlias_eq_ok_iff] at ha hb
  refine ⟨fun r => ?_, fun hne r => ?_, fun r => ?_⟩
  · have hA : IsTopLevel { rootAlias := a, extensions } (a ++ "/" ++ r) := ⟨r, rfl⟩
    have hB : IsTopLevel { rootAlias := b, extensions } (b ++ "/" ++ r) := ⟨r, rfl⟩
    rw [explain_of_topLevel hA, explain_of_topLevel hB]
    refine ⟨pathClass_topLevel _ _, ?_⟩
    exact @sameTrace_topLevel { rootAlias := a, extensions } { rootAlias := b, extensions } rfl r
  · apply explain_of_unrecognized
    · intro htop
      have hb' : NoSlash (PathPolicy.rootAlias { rootAlias := b, extensions }) := hb.noSlash
      exact hne (eq_of_isTopLevel ha.noSlash hb' htop)
    · rw [String.append_assoc]
      exact ha.not_startsWith_dot _
  · have hA : Config.ProperAlias (PathPolicy.rootAlias { rootAlias := a, extensions }) := ha
    have hB : Config.ProperAlias (PathPolicy.rootAlias { rootAlias := b, extensions }) := hb
    exact explain_congr (not_isTopLevel_of_dot hA r) (not_isTopLevel_of_dot hB r) rfl

/-- Two aliases of which one starts the other. -/
theorem explain_alias_nested :
    Config.checkAlias "@" "a" = .ok () ∧ Config.checkAlias "@app" "b" = .ok () ∧
    SameTrace (explain { rootAlias := "@" } "@/ui/entry.core.ts")
      (explain { rootAlias := "@app" } "@app/ui/entry.core.ts") ∧
    explain { rootAlias := "@" } "@app/ui/entry.core.ts" =
      { path := "@app/ui/entry.core.ts", pathClass := .unrecognized, violation := none } ∧
    explain { rootAlias := "@" } "./ui/page" = explain { rootAlias := "@app" } "./ui/page" := by
  have hshort : Config.checkAlias "@" "a" = .ok () := by rfl
  have hlong : Config.checkAlias "@app" "b" = .ok () := by rfl
  have hrest := explain_alias hshort hlong [".ts", ".tsx", ".js", ".jsx"]
  have hfree := explain_alias hlong hshort [".ts", ".tsx", ".js", ".jsx"]
  exact ⟨hshort, hlong, (hrest.1 "ui/entry.core.ts").2, hfree.2.1 (by decide) "ui/entry.core.ts",
    hrest.2.2 "/ui/page"⟩

end Alias

/-! ## The list of extensions -/

/-- Under one alias, paths are read by what is cut off their last segments. -/
lemma explain_eq_of_stripExtension {policy policy' : PathPolicy}
    (halias : policy.rootAlias = policy'.rootAlias)
    (hstrip : stripExtension policy.extensions = stripExtension policy'.extensions)
    (path : String) :
    explain policy path = explain policy' path := by
  have hlast := ofLastSegment_congr hstrip
  have hmarker : policy.topLevelMarker = policy'.topLevelMarker := by
    rw [PathPolicy.topLevelMarker, PathPolicy.topLevelMarker, halias]
  have hclass : PathClass.ofPath policy path = PathClass.ofPath policy' path := by
    rw [PathClass.ofPath, PathClass.ofPath, hmarker]
  have htop : Classification.topLevel policy path = Classification.topLevel policy' path := by
    simp only [Classification.topLevel, hmarker, hlast]
  have hparent : Classification.parent policy path = Classification.parent policy' path := by
    simp only [Classification.parent, hlast]
  have hsub : Classification.subdirectory policy path =
      Classification.subdirectory policy' path := by
    simp only [Classification.subdirectory, hlast]
  rw [explain, explain, hclass, htop, hparent, hsub]

/-- Cut off a name is the longest non-empty extension that ends it, and nothing when there is none:
the first hit among the extensions, longest first. Extensions in another order, repeated ones and
empty ones change neither that nor how paths are classified. -/
theorem stripExtension_cuts_longest (extensions : List String) :
    (∀ name rest, stripExtension extensions name = rest ↔ Stripped extensions name rest) ∧
    (∀ arranged : List String, arranged.Perm extensions →
      arranged.Pairwise (fun e e' => e'.length ≤ e.length) → ∀ name,
        name = stripExtension extensions name ++
          (arranged.find? fun e => e ≠ "" && Text.endsWith e name).getD "") ∧
    ∀ extensions', Rearranged extensions extensions' →
      stripExtension extensions = stripExtension extensions' ∧
      ∀ rootAlias path,
        explain { rootAlias, extensions } path =
          explain { rootAlias, extensions := extensions' } path ∧
        classify { rootAlias, extensions } path =
          classify { rootAlias, extensions := extensions' } path := by
  refine ⟨fun name rest => stripExtension_eq_iff, fun arranged => eq_append_find?, ?_⟩
  intro extensions' hrearranged
  have hstrip := stripExtension_rearranged hrearranged
  refine ⟨hstrip, fun rootAlias path => ?_⟩
  have hexplain := @explain_eq_of_stripExtension { rootAlias, extensions }
    { rootAlias, extensions := extensions' } rfl hstrip path
  exact ⟨hexplain, congrArg Classification.violation hexplain⟩

/-- One extension ends the other; the longer one is repeated, moved to the front and joined by an
empty one. -/
theorem stripExtension_cuts_longest_nested :
    Rearranged [".ts", ".d.ts"] ["", ".d.ts", ".d.ts", ".ts"] ∧
    stripExtension [".ts", ".d.ts"] "entry.d.ts" = "entry" ∧
    stripExtension ["", ".d.ts", ".d.ts", ".ts"] "entry.d.ts" = "entry" ∧
    "entry.d.ts" = stripExtension [".ts", ".d.ts"] "entry.d.ts" ++ ".d.ts" ∧
    classify { extensions := [".ts", ".d.ts"] } "@/ui/entry.d.ts" =
      classify { extensions := ["", ".d.ts", ".d.ts", ".ts"] } "@/ui/entry.d.ts" := by
  have hrearranged : Rearranged [".ts", ".d.ts"] ["", ".d.ts", ".d.ts", ".ts"] :=
    .trans (.permuted (.swap ".d.ts" ".ts" [])) (.trans (.repeated (by simp)) (.withEmpty _))
  have hcut : stripExtension [".ts", ".d.ts"] "entry.d.ts" = "entry" := by decide
  obtain ⟨-, hfirst, hsame⟩ := stripExtension_cuts_longest [".ts", ".d.ts"]
  obtain ⟨hstrip, hclassify⟩ := hsame _ hrearranged
  refine ⟨hrearranged, hcut, hstrip ▸ hcut, ?_, (hclassify "@" "@/ui/entry.d.ts").2⟩
  exact hfirst [".d.ts", ".ts"] (.swap ".ts" ".d.ts" []) (by decide) "entry.d.ts"

end EntryLint
