import EntryLint.Proofs.Check.Run
import EntryLint.Proofs.Config.Build
import EntryLint.Proofs.Entry.Invariance
import EntryLint.Proofs.Files.Suffix
import EntryLint.Proofs.Text.Lower

/-!
# Extensions, from the configuration to the grammar

An extension is looked at four times: when a configuration is resolved, when files are chosen, when
a file is opened and when its grammar is picked. The first and the last look past all leading dots
of the extension, the second past those of the file name, the third past none. `readBy_declared`
says that the last three agree on every file that is chosen. `isLintable_append_iff` says where the
first and the second part: an extension with several leading dots is accepted, but no path has it.
-/

namespace EntryLint

/-! ## Case and leading dots -/

namespace Grammar

/-- Leading dots may as well be dropped after the case. -/
lemma toList_normalize (s : String) :
    (normalize s).toList = (Text.lower s).toList.dropWhile (· = '.') := by
  rw [normalize, Text.toList_lower, String.toList_ofList, Text.toList_lower,
    Text.dropWhile_lowerChars]

lemma normalize_congr {s s' : String} (h : Text.lower s = Text.lower s') :
    normalize s = normalize s' := by
  rw [← String.toList_inj, toList_normalize, toList_normalize, h]

/-! ## Names of languages -/

/-- The extensions that a grammar is declared for. -/
def declared : Grammar → List String
  | plain => [".ts", ".mts", ".cts"]
  | markup => [".tsx", ".js", ".jsx", ".mjs", ".cjs"]

/-- A grammar is declared for a suffix, whatever its case. -/
def Declares (g : Grammar) (suffix : String) : Prop :=
  Text.lower suffix ∈ g.declared

lemma isSupported_iff {s : String} :
    isSupported s = true ↔ normalize s ∈ plainExtensions ++ markupExtensions := by
  rw [isSupported, Bool.or_eq_true, List.contains_iff_mem, List.contains_iff_mem, List.mem_append]

lemma name_of_mem : ∀ n ∈ plainExtensions ++ markupExtensions,
    n.toList ≠ [] ∧ '.' ∉ n.toList ∧ '/' ∉ n.toList := by
  decide

lemma ofExtension_of_mem : ∀ n ∈ plainExtensions ++ markupExtensions,
    (ofExtension n = plain ↔ "." ++ n ∈ declared plain) ∧
      (ofExtension n = markup ↔ "." ++ n ∈ declared markup) := by
  decide

/-- With one leading dot, the grammar of a suffix is the one that is declared for it. -/
lemma ofExtension_eq_iff {s : String} (hs : isSupported s = true)
    (hdot : Text.lower s = "." ++ normalize s) (g : Grammar) :
    ofExtension (normalize s) = g ↔ g.Declares s := by
  obtain ⟨hplain, hmarkup⟩ := ofExtension_of_mem _ (isSupported_iff.mp hs)
  rw [Declares, hdot]
  cases g with
  | plain => exact hplain
  | markup => exact hmarkup

end Grammar

/-! ## Extensions that are accepted -/

/-- An extension is dots, the last of which opens the name of a language. -/
structure Dotted (e : String) (dots name : List Char) : Prop where
  eq : e.toList = dots ++ '.' :: name
  isDot : ∀ c ∈ dots, c = '.'
  lower_name : Text.lowerChars [] name = (Grammar.normalize e).toList
  ne_nil : name ≠ []
  noDot : '.' ∉ name
  noSlash : '/' ∉ name

lemma exists_dotted {e : String} (hproper : Config.ProperExtension e)
    (hsupported : Grammar.isSupported e = true) : ∃ dots name, Dotted e dots name := by
  have hname : Text.lowerChars [] (e.toList.dropWhile (· = '.')) =
      (Grammar.normalize e).toList := by
    rw [Grammar.normalize, Text.toList_lower, String.toList_ofList]
  obtain ⟨hne, hdot, hslash⟩ := Grammar.name_of_mem _ (Grammar.isSupported_iff.mp hsupported)
  rw [← hname, Text.mem_lowerChars_iff (by decide)] at hdot hslash
  rw [← hname, Ne, Text.lowerChars_eq_nil_iff] at hne
  have hlead : e.toList.takeWhile (· = '.') ≠ [] := by
    obtain ⟨rest, hrest⟩ := List.head?_eq_some_iff.mp hproper.dot
    rw [hrest, List.takeWhile_cons_of_pos (by decide)]
    exact List.cons_ne_nil _ _
  obtain ⟨dots, last, hdots⟩ := (List.eq_nil_or_concat' _).resolve_left hlead
  have hall : ∀ c ∈ dots ++ [last], c = '.' := by
    intro c hc
    rw [← hdots] at hc
    simpa using List.mem_takeWhile_imp hc
  obtain rfl : last = '.' := hall last (by simp)
  refine ⟨dots, _, ?_, fun c hc => hall c (List.mem_append_left _ hc), hname, hne, hdot, hslash⟩
  rw [List.append_cons, ← hdots, List.takeWhile_append_dropWhile]

lemma eq_of_append_dot {dots a b : List Char} (h : dots ++ '.' :: a = '.' :: b) (hb : '.' ∉ b) :
    dots = [] ∧ a = b := by
  cases dots with
  | nil => exact ⟨rfl, (List.cons.inj h).2⟩
  | cons d dots =>
    rw [List.cons_append] at h
    rw [← (List.cons.inj h).2] at hb
    exact absurd (by simp) hb

namespace Dotted

variable {e : String} {dots name : List Char}

lemma singleDot_iff (h : Dotted e dots name) : SingleDot e ↔ dots = [] := by
  constructor
  · rintro ⟨rest, heq, -, hdot, -⟩
    exact (eq_of_append_dot (h.eq.symm.trans heq) hdot).1
  · rintro rfl
    exact ⟨name, h.eq, h.ne_nil, h.noDot, h.noSlash⟩

lemma dot_not_mem_normalize (h : Dotted e dots name) : '.' ∉ (Grammar.normalize e).toList := by
  rw [← h.lower_name, Text.mem_lowerChars_iff (by decide)]
  exact h.noDot

lemma noSlash_text (h : Dotted e dots name) : NoSlash e := by
  rw [NoSlash, h.eq, List.mem_append, List.mem_cons]
  rintro (hmem | hmem | hmem)
  · exact absurd (h.isDot _ hmem) (by decide)
  · exact absurd hmem (by decide)
  · exact h.noSlash hmem

lemma toList_lower (h : Dotted e dots name) :
    (Text.lower e).toList = dots ++ '.' :: (Grammar.normalize e).toList := by
  have hdots : ∀ c ∈ dots ++ ['.'], c = '.' := by
    intro c hc
    rcases List.mem_append.mp hc with hc | hc
    · exact h.isDot c hc
    · exact List.mem_singleton.mp hc
  rw [Text.toList_lower, h.eq, List.append_cons, Text.lowerChars_dots hdots, h.lower_name,
    ← List.append_cons]

/-- Behind a stem, only the last dot of an extension is read. -/
lemma lower_pathExtension (h : Dotted e dots name) (dir : String) {stem : String}
    (hslash : NoSlash stem) (hstem : ∃ c ∈ stem.toList, c ≠ '.') :
    Text.lower (pathExtension (Discovery.inside dir (stem ++ e))) =
      "." ++ Grammar.normalize e := by
  have hlast : lastSegment (Discovery.inside dir (stem ++ e)) = stem ++ e := by
    have hfile := hslash.append h.noSlash_text
    rw [Discovery.inside]
    split
    · rw [lastSegment, Text.split_of_not_mem hfile]
      rfl
    · exact lastSegment_append dir hfile
  have hcut : LastDot (stem ++ e) (stem.toList ++ dots) name :=
    ⟨by rw [String.toList_append, h.eq, List.append_assoc], h.noDot⟩
  obtain ⟨c, hc, hne⟩ := hstem
  rw [pathExtension, hlast, hcut.splitSuffix_eq ⟨c, List.mem_append_left _ hc, hne⟩,
    ← String.toList_inj, Text.toList_lower, String.toList_ofList, ← List.singleton_append,
    Text.lowerChars_dots (List.forall_mem_singleton.mpr rfl), h.lower_name, String.toList_append]
  rfl

/-- One dot and the name of a language are written by the extensions with a single dot only. -/
lemma lower_eq_iff {e' : String} {dots' name' : List Char} (h' : Dotted e' dots' name')
    (h : Dotted e dots name) :
    Text.lower e' = "." ++ Grammar.normalize e ↔
      SingleDot e' ∧ Grammar.normalize e' = Grammar.normalize e := by
  rw [h'.singleDot_iff, ← String.toList_inj, h'.toList_lower, String.toList_append,
    ← String.toList_inj]
  constructor
  · intro heq
    exact eq_of_append_dot heq h.dot_not_mem_normalize
  · rintro ⟨rfl, heq⟩
    rw [heq]
    rfl

/-- The extensions that some path has are those with a single dot. -/
lemma exists_pathExtension_iff (h : Dotted e dots name) :
    (∃ rel, Text.lower (pathExtension rel) = Text.lower e) ↔ SingleDot e := by
  constructor
  · rintro ⟨rel, hrel⟩
    rw [← String.toList_inj, h.toList_lower, Text.toList_lower] at hrel
    rcases splitSuffix_cases (lastSegment rel) with hnone | ⟨stem, tail, hcut, -, hsome⟩
    · rw [pathExtension, hnone] at hrel
      cases dots with
      | nil => cases hrel
      | cons c dots => cases hrel
    · rw [pathExtension, hsome, String.toList_ofList, ← List.singleton_append,
        Text.lowerChars_dots (List.forall_mem_singleton.mpr rfl), List.singleton_append] at hrel
      refine h.singleDot_iff.mpr (eq_of_append_dot hrel.symm ?_).1
      rw [Text.mem_lowerChars_iff (by decide)]
      exact hcut.noDot
  · intro hsingle
    have hstem : NoSlash "a" := by
      unfold NoSlash
      decide
    refine ⟨_, (h.lower_pathExtension "" hstem ⟨'a', by decide⟩).trans ?_⟩
    exact ((h.lower_eq_iff h).mpr ⟨hsingle, rfl⟩).symm

end Dotted

/-- What is a dot and the name of a language in lower case has at least two characters. -/
lemma two_le_length_of_lower {s : String} (h : Text.lower s = "." ++ Grammar.normalize s)
    (hs : Grammar.isSupported s = true) : 2 ≤ s.length := by
  obtain ⟨hne, -, -⟩ := Grammar.name_of_mem _ (Grammar.isSupported_iff.mp hs)
  have hdot : '.' ∈ s.toList := by
    rw [← Text.mem_lowerChars_iff (by decide) [], ← Text.toList_lower, h, String.toList_append]
    exact List.mem_cons_self
  rw [← String.length_toList]
  by_contra hshort
  -- a dot alone would leave no name
  obtain ⟨c, hc⟩ : ∃ c, s.toList = [c] := List.length_eq_one_iff.mp (by
    have hpos := List.length_pos_of_mem hdot
    omega)
  rw [hc, List.mem_singleton] at hdot
  rw [Grammar.normalize, hc, ← hdot] at hne
  exact hne rfl

section Resolved

variable {library : Library} {registry : Registry} {cf : ConfigFile} {overrides : Overrides}
  {source : Option String} {cfg : LintConfig} {patterns : PatternLibrary} {tree : FileTree}
  {root : Path}
  {d : Discovery patterns}

lemma Config.accepted_of_build (h : (Config.build library registry cf overrides source).1 = .ok cfg)
    {e : String} (he : e ∈ cfg.lintExtensions) :
    Config.ProperExtension e ∧ Grammar.isSupported e = true := by
  cases hcheck : Config.checkFile cf (overrides.rootAlias.getD cf.rootAlias)
    (Config.origin source) with
  | error err =>
    rw [Config.build_of_textDefect (Config.checkFile_eq_error_iff.mp hcheck)] at h
    cases h
  | ok u =>
    have htexts := Config.checkFile_eq_ok_iff.mp hcheck
    rw [Config.build_of_properTexts htexts] at h
    cases hresolve : Config.resolveRules library registry cf with
    | mk result registry' =>
      rw [hresolve] at h
      cases result with
      | error err => cases h
      | ok rules =>
        obtain rfl := Except.ok.inj h
        exact ⟨Config.forall_mem_lintExtensionsOf.mpr htexts.lintExtensions e he,
          Config.forall_mem_lintExtensionsOf.mpr htexts.supported e he⟩

lemma Discovery.isLintable_iff (hd : (Discovery.ofConfig patterns tree root cfg).outcome = .ok d)
    {rel : String} :
    d.isLintable rel = true ↔
      ∃ e ∈ cfg.lintExtensions, Text.lower e = Text.lower (pathExtension rel) := by
  rw [Discovery.isLintable, (Discovery.chooses_of_ofConfig hd).extensions, List.contains_iff_mem,
    List.mem_map]

/-- Files that are found have an extension that is checked. -/
lemma Discovery.isLintable_of_mem_files (hd : d.Knows d.session) (hp : IsProject d.tree d.root)
    {targets : List Path} {files : List String} (h : (d.files targets).outcome = .ok files)
    {f : String} (hf : f ∈ files) : d.isLintable f = true := by
  obtain ⟨-, -, hmem⟩ := (Discovery.outcome_files_eq_ok_iff hd hp).mp h
  obtain ⟨t, -, hfinds⟩ := (hmem f).mp hf
  cases hfinds with
  | named _ _ hlintable _ => exact hlintable
  | below _ hname hreaches => exact hname ▸ hreaches.keeps.lintable

/-- What is chosen by its extension is opened with it and read by the grammar declared for it. -/
lemma Discovery.suffix_of_isLintable
    (hbuild : (Config.build library registry cf overrides source).1 = .ok cfg)
    (hd : (Discovery.ofConfig patterns tree root cfg).outcome = .ok d) {rel : String}
    (h : d.isLintable rel = true) :
    Check.suffixOf (root.under (Path.ofText rel)) = pathExtension rel ∧
      Grammar.isSupported (pathExtension rel) = true ∧
      ∀ g, Grammar.ofExtension (Grammar.normalize (pathExtension rel)) = g ↔
        g.Declares (pathExtension rel) := by
  obtain ⟨e, he, hlower⟩ := (Discovery.isLintable_iff hd).mp h
  obtain ⟨hproper, hsupported⟩ := Config.accepted_of_build hbuild he
  obtain ⟨dots, name, hdotted⟩ := exists_dotted hproper hsupported
  have hsame := Grammar.normalize_congr hlower
  have hsuffix : Grammar.isSupported (pathExtension rel) = true := by
    rw [Grammar.isSupported_iff, ← hsame]
    exact Grammar.isSupported_iff.mp hsupported
  -- that a path has the extension shows that it has one dot only
  have hsingle := hdotted.exists_pathExtension_iff.mp ⟨rel, hlower.symm⟩
  have hdot : Text.lower (pathExtension rel) = "." ++ Grammar.normalize (pathExtension rel) := by
    rw [← hlower, ← hsame]
    exact (hdotted.lower_eq_iff hdotted).mpr ⟨hsingle, rfl⟩
  exact ⟨nameSuffix_under_ofText root (two_le_length_of_lower hdot hsuffix), hsuffix,
    Grammar.ofExtension_eq_iff hsuffix hdot⟩

/-- A text file is searched in a document of its text. -/
lemma Check.checkFile_of_holdsText {parser : ParserLibrary} {policy : PathPolicy}
    {rules : List BoundRule} {rel s : String} (hrules : rules ≠ [])
    (h : Check.HoldsText tree root rel s) :
    Check.checkFile parser tree root policy rules rel = (do
      let ds ← Check.lintText parser policy rules rel
        (Check.suffixOf (root.under (Path.ofText rel))) (Check.withLineFeeds s)
      return .ok ds) := by
  have hsome : rules.isEmpty = false := by simpa using hrules
  simp only [Check.checkFile, Check.readText_of_holdsText h, hsome]
  rfl

/-- Every path that is chosen is opened with the suffix by which it was chosen, and the grammar of
that suffix is the one declared for it. So every file that is found is searched in a tree of a
grammar declared for its extension. -/
theorem Check.readBy_declared
    (hbuild : (Config.build library registry cf overrides source).1 = .ok cfg)
    (hd : (Discovery.ofConfig patterns tree root cfg).outcome = .ok d) :
    (∀ rel, d.isLintable rel = true →
      Check.suffixOf (root.under (Path.ofText rel)) = pathExtension rel ∧
      Grammar.isSupported (pathExtension rel) = true ∧
      ∀ g, Grammar.ofExtension (Grammar.normalize (pathExtension rel)) = g ↔
        g.Declares (pathExtension rel)) ∧
    (IsProject tree root → ∀ targets files, (d.files targets).outcome = .ok files →
      ∀ rel ∈ files, d.isLintable rel = true ∧ ∃ g : Grammar, g.Declares (pathExtension rel) ∧
        ∀ parser policy rules s, Check.HoldsText tree root rel s → rules ≠ [] →
          ∃ doc : SourceDocument, doc.data = Text.encode (Check.withLineFeeds s) ∧
            doc.tree = parser.parse g doc.data ∧
            Check.checkFile parser tree root policy rules rel = (do
              let ds ← (do
                let sources ← doc.extract parser
                StateT.lift (Traced.ofExcept (Check.lintImports policy rules rel sources)))
              return .ok ds)) := by
  refine ⟨fun rel hrel => Discovery.suffix_of_isLintable hbuild hd hrel, ?_⟩
  intro hp targets files hfiles rel hrel
  have hchooses := Discovery.chooses_of_ofConfig hd
  have hlintable : d.isLintable rel = true := Discovery.isLintable_of_mem_files hchooses.knows
    (by rwa [hchooses.tree_eq, hchooses.root_eq]) hfiles hrel
  obtain ⟨hsuffix, -, hgrammar⟩ := Discovery.suffix_of_isLintable hbuild hd hlintable
  refine ⟨hlintable, _, (hgrammar _).mp rfl, ?_⟩
  intro parser policy rules s hs hrules
  refine ⟨.ofText parser (Check.withLineFeeds s) (Grammar.normalize (pathExtension rel)), rfl, rfl,
    ?_⟩
  rw [Check.checkFile_of_holdsText hrules hs, hsuffix]
  rfl

/-- A file that asks for an extension with a dot too many, and for one in capitals. -/
def dottedFile : ConfigFile :=
  { lintExtensions := some ["..ts", ".JSX"], gitignore := false }

/-- What the file resolves to. -/
def dottedConfig : LintConfig :=
  { policy := { rootAlias := "@", extensions := dottedFile.extensions }
    lintExtensions := ["..ts", ".JSX"], exclude := [], gitignore := false
    rules := [(EntryImports.ruleName, .error)], source := none }

/-- A project with dots in the names of a directory and of its files. -/
def dottedTree : FileTree :=
  .dir [("p", .dir [("a..ts", .file []),
    ("a.b", .dir [(".x.y.Jsx", .file "import '@/m/f'\n".toUTF8.data.toList)])])]

/-- The choice of the files of the project. -/
def dottedChoice : Discovery IgnorePattern.library :=
  { tree := dottedTree, root := Check.sampleRoot, extensions := ["..ts", ".jsx"], exclude := none
    session := none }

lemma build_dottedFile :
    (Config.build .builtIn .builtIn dottedFile {} none).1 = .ok dottedConfig := by
  rfl

lemma ofConfig_dottedConfig :
    (Discovery.ofConfig IgnorePattern.library dottedTree Check.sampleRoot dottedConfig).outcome =
      .ok dottedChoice := by
  have hextensions : dottedConfig.lintExtensions.map Text.lower = ["..ts", ".jsx"] := by
    decide +kernel
  show Except.ok (Discovery.mk dottedTree Check.sampleRoot
    (dottedConfig.lintExtensions.map Text.lower) none none) = _
  rw [hextensions]
  rfl

lemma isProject_dottedTree : IsProject dottedTree Check.sampleRoot :=
  ⟨by decide +kernel, by decide, by decide +kernel⟩

lemma exists_files_dottedChoice :
    ∃ files, (dottedChoice.files [Path.ofText "a.b/.x.y.Jsx"]).outcome = .ok files ∧
      "a.b/.x.y.Jsx" ∈ files := by
  have hloc : Locates dottedChoice.tree dottedChoice.root (Path.ofText "a.b/.x.y.Jsx")
      ["a.b", ".x.y.Jsx"] (.file "import '@/m/f'\n".toUTF8.data.toList) := ⟨rfl, rfl⟩
  have htargets : ∀ t ∈ [Path.ofText "a.b/.x.y.Jsx"],
      IsTarget dottedChoice.tree dottedChoice.root t := by
    intro t ht
    rw [List.mem_singleton.mp ht]
    exact ⟨_, _, hloc⟩
  obtain ⟨files, hfiles, -, hmem⟩ :=
    Discovery.exists_files (d := dottedChoice) trivial isProject_dottedTree
      (fun _ _ => ⟨false, rfl⟩) htargets
  refine ⟨files, hfiles, (hmem _).mpr ⟨_, List.mem_singleton_self _, ?_⟩⟩
  exact .named hloc rfl (by decide) (by decide)

theorem Check.readBy_declared_dottedTree :
    ∃ files, (dottedChoice.files [Path.ofText "a.b/.x.y.Jsx"]).outcome = .ok files ∧
      "a.b/.x.y.Jsx" ∈ files ∧
      Check.suffixOf (Check.sampleRoot.under (Path.ofText "a.b/.x.y.Jsx")) =
        pathExtension "a.b/.x.y.Jsx" ∧
      Grammar.ofExtension (Grammar.normalize (pathExtension "a.b/.x.y.Jsx")) = .markup ∧
      ∃ g : Grammar, g.Declares (pathExtension "a.b/.x.y.Jsx") ∧ ∀ policy rules, rules ≠ [] →
        ∃ doc : SourceDocument, doc.data = Text.encode "import '@/m/f'\n" ∧
          doc.tree = Lexer.library.parse g doc.data ∧
          Check.checkFile Lexer.library dottedTree Check.sampleRoot policy rules "a.b/.x.y.Jsx" =
            (do
            let ds ← (do
              let sources ← doc.extract Lexer.library
              StateT.lift (Traced.ofExcept (Check.lintImports policy rules "a.b/.x.y.Jsx" sources)))
            return .ok ds) := by
  obtain ⟨hlintable, hfound⟩ := Check.readBy_declared build_dottedFile ofConfig_dottedConfig
  obtain ⟨files, hfiles, hmem⟩ := exists_files_dottedChoice
  obtain ⟨hrel, g, hg, hcheck⟩ := hfound isProject_dottedTree _ files hfiles _ hmem
  obtain ⟨hsuffix, -, hgrammar⟩ := hlintable _ hrel
  refine ⟨files, hfiles, hmem, hsuffix, (hgrammar .markup).mpr ?_, g, hg, ?_⟩
  · unfold Grammar.Declares
    decide +kernel
  · intro policy rules hrules
    have hfeeds : Check.withLineFeeds "import '@/m/f'\n" = "import '@/m/f'\n" := by decide +kernel
    rw [← hfeeds]
    exact hcheck Lexer.library policy rules _ rfl hrules

/-- An extension that is accepted is the one of some path exactly if it has a single dot. Behind a
stem, only the last dot of an extension is read: the name is chosen exactly if an extension with a
single dot, in any case, names the same language. -/
theorem Discovery.isLintable_append_iff
    (hbuild : (Config.build library registry cf overrides source).1 = .ok cfg)
    (hd : (Discovery.ofConfig patterns tree root cfg).outcome = .ok d) {e : String}
    (he : e ∈ cfg.lintExtensions) :
    (∀ dir stem, NoSlash stem → (∃ c ∈ stem.toList, c ≠ '.') →
      (d.isLintable (Discovery.inside dir (stem ++ e)) = true ↔
        ∃ e' ∈ cfg.lintExtensions, SingleDot e' ∧ Grammar.normalize e' = Grammar.normalize e)) ∧
    ((∃ rel, Text.lower (pathExtension rel) = Text.lower e) ↔ SingleDot e) := by
  have hall : ∀ e ∈ cfg.lintExtensions, ∃ dots name, Dotted e dots name := by
    intro e he
    obtain ⟨hproper, hsupported⟩ := Config.accepted_of_build hbuild he
    exact exists_dotted hproper hsupported
  obtain ⟨dots, name, hdotted⟩ := hall e he
  refine ⟨?_, hdotted.exists_pathExtension_iff⟩
  intro dir stem hslash hstem
  rw [Discovery.isLintable_iff hd, hdotted.lower_pathExtension dir hslash hstem]
  refine exists_congr fun e' => and_congr_right fun he' => ?_
  obtain ⟨dots', name', hdotted'⟩ := hall e' he'
  exact hdotted'.lower_eq_iff hdotted

theorem Discovery.isLintable_append_iff_dotted :
    ".JSX" ∈ dottedConfig.lintExtensions ∧ "..ts" ∈ dottedConfig.lintExtensions ∧
      dottedChoice.isLintable (Discovery.inside "a.b" ("..x." ++ ".JSX")) = true ∧
      ¬∃ rel, Text.lower (pathExtension rel) = Text.lower "..ts" := by
  have hcapitals : ".JSX" ∈ dottedConfig.lintExtensions := by decide
  have hdots : "..ts" ∈ dottedConfig.lintExtensions := by decide
  obtain ⟨hstem, -⟩ := Discovery.isLintable_append_iff build_dottedFile
    ofConfig_dottedConfig hcapitals
  obtain ⟨-, hdead⟩ := Discovery.isLintable_append_iff build_dottedFile ofConfig_dottedConfig hdots
  refine ⟨hcapitals, hdots, ?_, ?_⟩
  · refine (hstem "a.b" "..x." ?_ ⟨'x', by decide⟩).mpr
      ⟨".JSX", hcapitals, ⟨['J', 'S', 'X'], by decide⟩, rfl⟩
    unfold NoSlash
    decide
  · rw [hdead]
    rintro ⟨rest, heq, -, hdot, -⟩
    obtain rfl : ['.', 't', 's'] = rest := (List.cons.inj heq).2
    exact absurd (by decide) hdot

/-- An extension with two dots is accepted, and a name that ends with it is not chosen. -/
theorem Discovery.accepted_not_isLintable :
    (Config.build .builtIn .builtIn dottedFile {} none).1 = .ok dottedConfig ∧
      "..ts" ∈ dottedConfig.lintExtensions ∧
      (Discovery.ofConfig IgnorePattern.library dottedTree Check.sampleRoot dottedConfig).outcome =
        .ok dottedChoice ∧
      dottedChoice.isLintable (Discovery.inside "" ("a" ++ "..ts")) = false :=
  ⟨build_dottedFile, by decide, ofConfig_dottedConfig, by decide⟩

end Resolved

end EntryLint
