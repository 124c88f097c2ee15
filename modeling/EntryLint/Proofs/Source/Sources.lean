import EntryLint.Proofs.Parser.Literals

/-!
# Import sources

A node that is captured as a source becomes an import if its text is a literal in quotes. The bytes
of the node are then those of a part of the text (`exists_parts`), its positions are the places
before and after that part, and what stands between these is the literal (`isQuotedAt_of_source?`).
The main result is `extractImports_isQuotedAt`.
-/

namespace EntryLint

/-! ## Literals in a text -/

/-- The two quotes of literals. -/
def IsQuote (c : Char) : Prop :=
  c = '"' ∨ c = '\''

/-- A text between two quotes. -/
def inQuotes (quote : Char) (path : String) : String :=
  String.singleton quote ++ path ++ String.singleton quote

/-- One span starts before another. -/
def Span.StartsBefore (a b : Span) : Prop :=
  a.line < b.line ∨ a.line = b.line ∧ a.column < b.column

/-- One span ends before another starts, or where it starts. -/
def Span.EndsBefore (a b : Span) : Prop :=
  a.endLine < b.line ∨ a.endLine = b.line ∧ a.endColumn ≤ b.column

/-- A source stands in a text between two places, as a literal with its quotes. -/
structure IsQuotedAt (text : String) (source : ImportSource) (quote : Char)
    (start stop : Position) : Prop where
  span : source.span =
    { line := start.line, column := start.column, endLine := stop.line, endColumn := stop.column }
  start_isPlace : IsPlace text start
  stop_isPlace : IsPlace text stop
  isQuote : IsQuote quote
  reads : textBetween text start stop = inQuotes quote source.path
  /-- The places are those of the first byte and of the byte after the last. -/
  bytes : ∃ n, start = positionAt text n ∧
    stop = positionAt text (n + (textBetween text start stop).utf8ByteSize)

/-- What is between quotes is what is left when these are taken away. -/
lemma unquote?_eq_some_iff {s path : String} :
    unquote? s = some path ↔ ∃ quote, IsQuote quote ∧ s = inQuotes quote path := by
  have hchars : ∀ quote, s = inQuotes quote path ↔ s.toList = quote :: path.toList ++ [quote] := by
    intro quote
    rw [← String.toList_inj]
    simp [inQuotes]
  simp only [hchars]
  unfold unquote?
  cases hs : s.toList with
  | nil => simp
  | cons first rest =>
    simp only
    split
    · rename_i hquoted
      rw [Bool.and_eq_true, Bool.or_eq_true] at hquoted
      obtain ⟨hquote, hlast⟩ := hquoted
      have hrest : rest = rest.dropLast ++ [first] :=
        (List.dropLast_append_getLast? first (of_decide_eq_true hlast)).symm
      constructor
      · intro hpath
        refine ⟨first, by simpa [IsQuote, or_comm] using hquote, ?_⟩
        rw [← Option.some_inj.mp hpath, String.toList_ofList, List.cons_append, ← hrest]
      · rintro ⟨quote, -, heq⟩
        obtain ⟨rfl, rfl⟩ := List.cons.inj heq
        simp
    · rename_i hnot
      refine ⟨nofun, ?_⟩
      rintro ⟨quote, hquote, heq⟩
      obtain ⟨rfl, rfl⟩ := List.cons.inj heq
      exact absurd (by rcases hquote with rfl | rfl <;> simp) hnot

namespace SourceDocument

variable {parser : ParserLibrary} {text ext : String} {n : SyntaxNode}

/-! ## The text of a node -/

lemma slice_of_parts {xs ys zs : List Char} (h : text.toList = xs ++ ys ++ zs) :
    (ofText parser text ext).slice (String.ofList xs).utf8ByteSize
      (String.ofList (xs ++ ys)).utf8ByteSize = bytesOf (String.ofList ys) := by
  rw [slice_ofText, bytesOf_eq, bytesOf_eq, h, String.toList_ofList, List.flatMap_append,
    ← length_flatMap_utf8EncodeChar, ← length_flatMap_utf8EncodeChar, List.take_left,
    List.flatMap_append, List.drop_left]

lemma nodeText_eq {s : String}
    (h : (ofText parser text ext).slice n.startByte n.endByte = bytesOf s) :
    (ofText parser text ext).nodeText n = .ok s := by
  have hdecode : Text.decode (bytesOf s) = .ok s := Text.decode_eq_ok_iff.mpr rfl
  rw [nodeText, h, hdecode]
  rfl

/-- A node between characters has a text, which is nothing if the node ends where it starts. -/
lemma exists_nodeText (hstart : String.Pos.Raw.IsValid text ⟨n.startByte⟩)
    (hstop : String.Pos.Raw.IsValid text ⟨n.endByte⟩) :
    ∃ s, (ofText parser text ext).nodeText n = .ok s ∧ (n.endByte ≤ n.startByte → s = "") := by
  rcases Nat.lt_or_ge n.endByte n.startByte with hlt | hle
  · refine ⟨"", nodeText_eq ?_, fun _ => rfl⟩
    have htake := List.length_take_le n.endByte (bytesOf text)
    rw [slice_ofText, List.drop_eq_nil_iff.mpr (by omega)]
    rfl
  · obtain ⟨xs, ys, zs, htext, hxs, hys⟩ := exists_parts hstart hstop hle
    refine ⟨String.ofList ys, nodeText_eq (by rw [hxs, hys, slice_of_parts htext]), fun hge => ?_⟩
    cases ys with
    | nil => rfl
    | cons c ys =>
      have hpos := c.utf8Size_pos
      rw [hxs, hys, utf8ByteSize_ofList_append, utf8ByteSize_ofList_cons] at hge
      omega

/-! ## The source of a node -/

lemma sourceOf_eq {s : String} (h : (ofText parser text ext).nodeText n = .ok s) :
    (ofText parser text ext).sourceOf n =
      .ok ((unquote? s).map fun path => { path, span := (ofText parser text ext).nodeSpan n }) := by
  rw [sourceOf, h]
  rfl

lemma nodeSpan_ofText :
    (ofText parser text ext).nodeSpan n =
      { line := (positionAt text n.startByte).line
        column := (positionAt text n.startByte).column
        endLine := (positionAt text n.endByte).line
        endColumn := (positionAt text n.endByte).column } := by
  rw [nodeSpan, point_eq_positionAt, point_eq_positionAt]

section Bounded

variable (hstart : String.Pos.Raw.IsValid text ⟨n.startByte⟩)
  (hstop : String.Pos.Raw.IsValid text ⟨n.endByte⟩)

include hstart hstop

lemma exists_sourceOf : ∃ r, (ofText parser text ext).sourceOf n = .ok r := by
  obtain ⟨s, hs, -⟩ := exists_nodeText hstart hstop
  exact ⟨_, sourceOf_eq hs⟩

/-- A source has the text of its node, in quotes. -/
lemma exists_of_source? {source : ImportSource}
    (h : (ofText parser text ext).source? n = some source) :
    ∃ quote, IsQuote quote ∧
      (ofText parser text ext).nodeText n = .ok (inQuotes quote source.path) ∧
      source.span = (ofText parser text ext).nodeSpan n := by
  obtain ⟨s, hs, -⟩ := exists_nodeText hstart hstop
  rw [source?, sourceOf_eq hs] at h
  obtain ⟨path, hpath, rfl⟩ := Option.map_eq_some_iff.mp h
  obtain ⟨quote, hquote, rfl⟩ := unquote?_eq_some_iff.mp hpath
  exact ⟨quote, hquote, hs, rfl⟩

/-- A node with a literal in quotes is not empty. -/
lemma startByte_lt {quote : Char} {path : String}
    (h : (ofText parser text ext).nodeText n = .ok (inQuotes quote path)) :
    n.startByte < n.endByte := by
  obtain ⟨s, hs, hempty⟩ := exists_nodeText hstart hstop
  obtain rfl : s = inQuotes quote path := Except.ok.inj (hs.symm.trans h)
  by_contra hle
  have hchars := congrArg String.toList (hempty (by omega))
  simp [inQuotes] at hchars

/-- Between the positions of a node with a literal stands that literal. -/
lemma isQuotedAt_of_nodeText {quote : Char} {source : ImportSource} (hquote : IsQuote quote)
    (hnode : (ofText parser text ext).nodeText n = .ok (inQuotes quote source.path))
    (hspan : source.span = (ofText parser text ext).nodeSpan n) :
    IsQuotedAt text source quote (positionAt text n.startByte) (positionAt text n.endByte) := by
  obtain ⟨xs, ys, zs, htext, hxs, hys⟩ :=
    exists_parts hstart hstop (startByte_lt hstart hstop hnode).le
  have hliteral : String.ofList ys = inQuotes quote source.path := by
    have hslice : (ofText parser text ext).slice n.startByte n.endByte =
        bytesOf (String.ofList ys) := by
      rw [hxs, hys, slice_of_parts htext]
    exact Except.ok.inj ((nodeText_eq hslice).symm.trans hnode)
  have hfirst : positionAt text n.startByte = Position.after {} xs := by
    rw [hxs]
    exact positionAt_append (by rw [htext, List.append_assoc])
  have hlast : positionAt text n.endByte = Position.after {} (xs ++ ys) := by
    rw [hys, positionAt_append htext]
  have hreads : textBetween text (positionAt text n.startByte) (positionAt text n.endByte) =
      String.ofList ys := by
    rw [hfirst, hlast, textBetween_after htext]
  refine ⟨hspan.trans nodeSpan_ofText, ?_, ?_, hquote, hreads.trans hliteral, n.startByte, rfl, ?_⟩
  · rw [hfirst]
    exact isPlace_after (by rw [htext, List.append_assoc])
  · rw [hlast]
    exact isPlace_after htext
  · rw [hreads, hxs, ← utf8ByteSize_ofList_append, ← hys]

end Bounded

/-- A node with a literal in quotes has a source. -/
lemma sourceOf_of_inQuotes {quote : Char} {path : String} (hquote : IsQuote quote)
    (h : (ofText parser text ext).slice n.startByte n.endByte = bytesOf (inQuotes quote path)) :
    (ofText parser text ext).sourceOf n =
      .ok (some { path, span := (ofText parser text ext).nodeSpan n }) := by
  rw [sourceOf_eq (nodeText_eq h), unquote?_eq_some_iff.mpr ⟨quote, hquote, rfl⟩]
  rfl

lemma source?_eq {doc : SourceDocument} {source? : Option ImportSource}
    (h : doc.sourceOf n = .ok source?) : doc.source? n = source? := by
  rw [SourceDocument.source?, h]
  rfl

end SourceDocument

/-! ## Sources of a text -/

section Sources

open SourceDocument

variable {parser : ParserLibrary} {text ext : String} {query : parser.Query}

/-- The imports of a text are the sources of the nodes that were captured, in the order of their
bytes. -/
lemma exists_yields_extractImports
    (hquery : parser.compile (Grammar.ofExtension (Grammar.normalize ext)) importQuery = .ok query)
    (h : parser.SeparatesSources query (Grammar.ofExtension (Grammar.normalize ext)) text) :
    ∃ nodes : List SyntaxNode,
      nodes.Perm (parser.sourceNodes query (Grammar.ofExtension (Grammar.normalize ext)) text) ∧
      nodes.Pairwise (fun a b => a.startByte ≤ b.startByte) ∧
      Scan.Yields (extractImports parser text ext)
        (nodes.filterMap (ofText parser text (Grammar.normalize ext)).source?) :=
  exists_yields_extract (ofText parser text (Grammar.normalize ext)) hquery
    fun n hn => exists_sourceOf (h.bounded n hn).1 (h.bounded n hn).2

/-- Sources of nodes that do not overlap follow each other, if their nodes are in order. -/
lemma pairwise_source? {nodes : List SyntaxNode}
    (hbounded : ∀ n ∈ nodes,
      String.Pos.Raw.IsValid text ⟨n.startByte⟩ ∧ String.Pos.Raw.IsValid text ⟨n.endByte⟩)
    (hapart : nodes.Pairwise fun a b => a.endByte ≤ b.startByte ∨ b.endByte ≤ a.startByte)
    (hsorted : nodes.Pairwise fun a b => a.startByte ≤ b.startByte) :
    (nodes.filterMap (ofText parser text ext).source?).Pairwise fun a b =>
      a.span.StartsBefore b.span ∧ a.span.EndsBefore b.span := by
  rw [List.pairwise_filterMap]
  refine (hapart.and hsorted).imp_of_mem fun {a b} ha hb hab source hsource source' hsource' => ?_
  obtain ⟨hapart, hle⟩ := hab
  obtain ⟨hstart, hstop⟩ := hbounded a ha
  obtain ⟨hstart', hstop'⟩ := hbounded b hb
  obtain ⟨quote, -, hnode, hspan⟩ := exists_of_source? hstart hstop hsource
  obtain ⟨quote', -, hnode', hspan'⟩ := exists_of_source? hstart' hstop' hsource'
  have hlt := startByte_lt hstart hstop hnode
  have hlt' := startByte_lt hstart' hstop' hnode'
  have hend : a.endByte ≤ b.startByte := by omega
  -- positions grow with bytes
  have hfirst : positionAt text a.startByte < positionAt text b.startByte :=
    positionAt_lt hstart hstart' (by omega)
  have hlast : positionAt text a.endByte ≤ positionAt text b.startByte := by
    rcases Nat.eq_or_lt_of_le hend with heq | hbefore
    · rw [heq]
      exact .inr ⟨rfl, Nat.le_refl _⟩
    · exact (positionAt_lt hstop hstart' hbefore).imp_right fun h => ⟨h.1, h.2.le⟩
  rw [Position.lt_def] at hfirst
  rw [Position.le_def] at hlast
  rw [hspan, hspan', nodeSpan_ofText, nodeSpan_ofText]
  simp only [Span.StartsBefore, Span.EndsBefore]
  omega

/-- A sound parser finds the imports of every text, in its order and without overlaps. -/
lemma exists_yields_of_isSound (h : parser.IsSound) (text ext : String) :
    ∃ sources, Scan.Yields (extractImports parser text ext) sources ∧
      sources.Pairwise fun a b => a.span.StartsBefore b.span ∧ a.span.EndsBefore b.span := by
  obtain ⟨query, hquery⟩ := h.compiles (Grammar.ofExtension (Grammar.normalize ext))
  have hseparates := h.separates _ query hquery text
  obtain ⟨nodes, hperm, hsorted, hyields⟩ := exists_yields_extractImports hquery hseparates
  refine ⟨_, hyields, pairwise_source? (fun n hn => ?_) ?_ hsorted⟩
  · exact hseparates.bounded n (hperm.mem_iff.mp hn)
  · exact (hperm.pairwise_iff fun hab => hab.symm).mpr hseparates.apart

/-- The imports of a text are found in its order and without overlaps, between the two places of
each stands its path in quotes, and every node that is captured with such a literal is found. -/
theorem extractImports_isQuotedAt (parser : ParserLibrary) (text ext : String)
    (query : parser.Query)
    (hquery : parser.compile (Grammar.ofExtension (Grammar.normalize ext)) importQuery = .ok query)
    (h : parser.SeparatesSources query (Grammar.ofExtension (Grammar.normalize ext)) text) :
    ∃ sources, Scan.Yields (extractImports parser text ext) sources ∧
      sources.Pairwise (fun a b => a.span.StartsBefore b.span ∧ a.span.EndsBefore b.span) ∧
      (∀ source ∈ sources, ∃ quote start stop, IsQuotedAt text source quote start stop) ∧
      ∀ n ∈ parser.sourceNodes query (Grammar.ofExtension (Grammar.normalize ext)) text,
        ∀ quote path, IsQuote quote →
          ((bytesOf text).take n.endByte).drop n.startByte = bytesOf (inQuotes quote path) →
          ∃ source ∈ sources, source.path = path ∧
            IsQuotedAt text source quote (positionAt text n.startByte)
              (positionAt text n.endByte) := by
  obtain ⟨nodes, hperm, hsorted, hyields⟩ := exists_yields_extractImports hquery h
  have hbounded : ∀ n ∈ nodes,
      String.Pos.Raw.IsValid text ⟨n.startByte⟩ ∧ String.Pos.Raw.IsValid text ⟨n.endByte⟩ :=
    fun n hn => h.bounded n (hperm.mem_iff.mp hn)
  have hapart : nodes.Pairwise fun a b => a.endByte ≤ b.startByte ∨ b.endByte ≤ a.startByte :=
    (hperm.pairwise_iff fun hab => hab.symm).mpr h.apart
  refine ⟨_, hyields, pairwise_source? hbounded hapart hsorted, fun source hsource => ?_,
    fun n hn quote path hquote hbytes => ?_⟩
  · obtain ⟨n, hn, hsource⟩ := List.mem_filterMap.mp hsource
    obtain ⟨hstart, hstop⟩ := hbounded n hn
    obtain ⟨quote, hquote, hnode, hspan⟩ := exists_of_source? hstart hstop hsource
    exact ⟨quote, _, _, isQuotedAt_of_nodeText hstart hstop hquote hnode hspan⟩
  · obtain ⟨hstart, hstop⟩ := h.bounded n hn
    have hslice : (ofText parser text (Grammar.normalize ext)).slice n.startByte n.endByte =
        bytesOf (inQuotes quote path) := by rw [slice_ofText, hbytes]
    have hsource := source?_eq (sourceOf_of_inQuotes hquote hslice)
    refine ⟨_, List.mem_filterMap.mpr ⟨n, hperm.mem_iff.mpr hn, hsource⟩, rfl, ?_⟩
    exact isQuotedAt_of_nodeText hstart hstop hquote (nodeText_eq hslice) rfl

/-- A text with characters of two bytes and a literal that goes on in the next line. -/
def sampleText : String := "/* é */ import 'ä'; import \"b\\\nc\";"

theorem extractImports_isQuotedAt_sampleText :
    Lexer.library.compile (Grammar.ofExtension (Grammar.normalize "ts")) importQuery =
      .ok Lexer.sourceQuery ∧
    Lexer.library.SeparatesSources Lexer.sourceQuery (Grammar.ofExtension (Grammar.normalize "ts"))
      sampleText ∧
    ∃ sources, Scan.Yields (extractImports Lexer.library sampleText "ts") sources ∧
      ∃ source ∈ sources, source.path = "b\\\nc" ∧
        IsQuotedAt sampleText source '"'
          { line := 1, column := 28 } { line := 2, column := 3 } := by
  have hquery := Lexer.compile_library (Grammar.ofExtension (Grammar.normalize "ts"))
  have hseparates := Lexer.isSound_library.separates _ _ hquery sampleText
  refine ⟨hquery, hseparates, ?_⟩
  obtain ⟨sources, hyields, -, -, hfound⟩ :=
    extractImports_isQuotedAt Lexer.library sampleText "ts" Lexer.sourceQuery hquery hseparates
  have hnode : Lexer.sourceNode { start := 29, stop := 35 } ∈ Lexer.library.sourceNodes
      Lexer.sourceQuery (Grammar.ofExtension (Grammar.normalize "ts")) sampleText := by
    rw [Lexer.sourceNodes_library]
    exact List.mem_map_of_mem (by decide +kernel)
  obtain ⟨source, hmem, hpath, hquoted⟩ :=
    hfound _ hnode '"' "b\\\nc" (.inl rfl) (by decide +kernel)
  have hstart : positionAt sampleText 29 = { line := 1, column := 28 } := by decide +kernel
  have hstop : positionAt sampleText 35 = { line := 2, column := 3 } := by decide +kernel
  refine ⟨sources, hyields, source, hmem, hpath, ?_⟩
  rw [← hstart, ← hstop]
  exact hquoted

end Sources

end EntryLint
