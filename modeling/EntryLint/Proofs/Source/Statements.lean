import EntryLint.Proofs.Source.Program

/-!
# Imports of written programs

Every import of a program is found on its line, in order, and nothing else is taken for one
(`extractImports_programText`). What is relied on is how a parser reads a program
(`ParserLibrary.ReadsProgram`): it makes one node of each statement, the node of an import has the
literal of its source in a field, and a query finds the literals in that field.
-/

namespace EntryLint

/-! ## What is imported -/

/-- The source of an import that is written on a line. -/
def ImportStatement.sourceAt (i : ImportStatement) (line : Nat) : ImportSource :=
  let column := i.opening.length + 1
  let endColumn := column + i.source.text.length
  { path := i.source.body, span := { line, column, endLine := line, endColumn } }

def Statement.import? : Statement → Option ImportStatement
  | .static i => some i
  | _ => none

/-- The sources of the imports of a program that begins on a line. -/
def importsFrom (line : Nat) : List Statement → List ImportSource
  | [] => []
  | st :: rest => (st.import?.map (·.sourceAt line)).toList ++ importsFrom (line + 1) rest

lemma importsFrom_static (line : Nat) (is : List ImportStatement) :
    importsFrom line (is.map .static) = is.mapIdx fun k i => i.sourceAt (line + k) := by
  induction is generalizing line with
  | nil => rfl
  | cons i is ih =>
    rw [List.map_cons, importsFrom, ih, List.mapIdx_cons]
    simp only [Nat.add_zero, Nat.add_assoc, Nat.add_comm 1]
    rfl

lemma map_path_importsFrom (line : Nat) (program : List Statement) :
    (importsFrom line program).map ImportSource.path =
      (program.filterMap Statement.import?).map (·.source.body) := by
  induction program generalizing line with
  | nil => rfl
  | cons st program ih =>
    rw [importsFrom, List.map_append, ih, List.filterMap_cons]
    cases st.import? with
    | none => rfl
    | some i => rfl

/-! ## Nodes of a tree -/

namespace SyntaxNode

mutual

/-- A node and all nodes below it. -/
def nodes : SyntaxNode → List SyntaxNode
  | node kind startByte endByte isMissing children =>
    node kind startByte endByte isMissing children :: nodesOf children

/-- Some children and all nodes below them. -/
def nodesOf : List (Option String × SyntaxNode) → List SyntaxNode
  | [] => []
  | (_, n) :: rest => nodes n ++ nodesOf rest

end

/-- The children of a node that fill a field. -/
def inField (field : String) (n : SyntaxNode) : List SyntaxNode :=
  (n.children.filter fun child => child.1 = some field).map Prod.snd

/-- The literals in the source fields of the imports among some nodes. -/
def sourcesAmong (ns : List SyntaxNode) : List SyntaxNode :=
  (ns.filter fun n => n.kind = "import_statement").flatMap fun n =>
    (n.inField "source").filter fun source => source.kind = "string"

/-- No import stands below a node. -/
def HasNoImports (n : SyntaxNode) : Prop :=
  ∀ m ∈ nodesOf n.children, m.kind ≠ "import_statement"

instance (n : SyntaxNode) : Decidable n.HasNoImports :=
  inferInstanceAs (Decidable (∀ m ∈ nodesOf n.children, m.kind ≠ "import_statement"))

lemma nodes_eq (n : SyntaxNode) : n.nodes = n :: nodesOf n.children := by
  cases n
  rfl

lemma nodesOf_map (ns : List SyntaxNode) : nodesOf (ns.map (none, ·)) = ns.flatMap nodes := by
  induction ns with
  | nil => rfl
  | cons n ns ih => rw [List.map_cons, nodesOf, ih, List.flatMap_cons]

lemma sourcesAmong_append (ms ns : List SyntaxNode) :
    sourcesAmong (ms ++ ns) = sourcesAmong ms ++ sourcesAmong ns := by
  rw [sourcesAmong, List.filter_append, List.flatMap_append]
  rfl

lemma sourcesAmong_eq_nil {ns : List SyntaxNode} (h : ∀ n ∈ ns, n.kind ≠ "import_statement") :
    sourcesAmong ns = [] := by
  rw [sourcesAmong, List.filter_eq_nil_iff.mpr fun n hn => by simpa using h n hn]
  rfl

lemma sourcesAmong_nodes {n : SyntaxNode} (h : n.HasNoImports) :
    sourcesAmong n.nodes = sourcesAmong [n] := by
  rw [nodes_eq, ← List.singleton_append, sourcesAmong_append, sourcesAmong_eq_nil h,
    List.append_nil]

lemma sourcesAmong_singleton {n : SyntaxNode} (h : n.kind = "import_statement") :
    sourcesAmong [n] = (n.inField "source").filter fun source => source.kind = "string" := by
  simp [sourcesAmong, h]

end SyntaxNode

open SyntaxNode

/-! ## How programs are read -/

/-- The literal of an import that starts at a byte. -/
structure ImportStatement.IsLiteral (i : ImportStatement) (offset : Nat) (n : SyntaxNode) :
    Prop where
  kind : n.kind = "string"
  startByte : n.startByte = offset + i.opening.utf8ByteSize
  endByte : n.endByte = n.startByte + i.source.text.utf8ByteSize

/-- A node stands for a statement that starts at a byte. Both kinds of imports have nodes of one
kind, but what is required is the source of a part of the statement only. -/
inductive Statement.IsNode : Statement → Nat → SyntaxNode → Prop where
  | static {i : ImportStatement} {offset : Nat} {n source : SyntaxNode}
      (kind : n.kind = "import_statement") (field : n.inField "source" = [source])
      (literal : i.IsLiteral offset source) : IsNode (.static i) offset n
  | importRequire {x : Identifier} {source : QuotedText} {offset : Nat} {n : SyntaxNode}
      (kind : n.kind = "import_statement") (field : n.inField "source" = []) :
      IsNode (.importRequire x source) offset n
  | other {st : Statement} {offset : Nat} {n : SyntaxNode} (isOther : st.import? = none)
      (kind : n.kind ≠ "import_statement") : IsNode st offset n

/-- Nodes stand for the statements of a program that starts at a byte. -/
inductive StandFor : Nat → List Statement → List SyntaxNode → Prop where
  | nil (offset : Nat) : StandFor offset [] []
  | cons {offset : Nat} {st : Statement} {n : SyntaxNode} {program : List Statement}
      {ns : List SyntaxNode} (first : st.IsNode offset n) (below : n.HasNoImports)
      (rest : StandFor (offset + (st.text ++ "\n").utf8ByteSize) program ns) :
      StandFor offset (st :: program) (n :: ns)

/-- A parser reads a program: its tree has a node for each statement, and the matches of a query in
that tree are the literals in the source fields of imports. -/
structure ParserLibrary.ReadsProgram (parser : ParserLibrary) (query : parser.Query)
    (grammar : Grammar) (program : List Statement) : Prop where
  parses : ∃ start stop ns, StandFor 0 program ns ∧
    parser.parse grammar (Text.encode (programText program)) =
      .node "program" start stop false (ns.map (none, ·))
  finds : let tree := parser.parse grammar (Text.encode (programText program))
    (parser.captures query tree).Perm ((sourcesAmong tree.nodes).map fun n => [("source", [n])])

/-! ## The literals of a program -/

/-- Nodes are the literals of the imports of a program that starts at a byte. -/
inductive LiteralsOf : Nat → List Statement → List SyntaxNode → Prop where
  | nil (offset : Nat) : LiteralsOf offset [] []
  | static {offset : Nat} {i : ImportStatement} {n : SyntaxNode} {program : List Statement}
      {ns : List SyntaxNode} (first : i.IsLiteral offset n)
      (rest : LiteralsOf (offset + ((Statement.static i).text ++ "\n").utf8ByteSize) program ns) :
      LiteralsOf offset (.static i :: program) (n :: ns)
  | other {offset : Nat} {st : Statement} {program : List Statement} {ns : List SyntaxNode}
      (first : st.import? = none)
      (rest : LiteralsOf (offset + (st.text ++ "\n").utf8ByteSize) program ns) :
      LiteralsOf offset (st :: program) ns

/-- The literals that are found among the nodes of a program are those of its imports. -/
lemma StandFor.literalsOf {offset : Nat} {program : List Statement} {ns : List SyntaxNode}
    (h : StandFor offset program ns) :
    LiteralsOf offset program (sourcesAmong (ns.flatMap nodes)) := by
  induction h with
  | nil offset => exact .nil offset
  | @cons offset st n program ns first below rest ih =>
    rw [List.flatMap_cons, sourcesAmong_append, sourcesAmong_nodes below]
    cases first with
    | static kind field literal =>
      rw [sourcesAmong_singleton kind, field, List.filter_singleton, literal.kind]
      exact .static literal ih
    | importRequire kind field =>
      rw [sourcesAmong_singleton kind, field]
      exact .other rfl ih
    | other isOther kind =>
      rw [sourcesAmong_eq_nil (List.forall_mem_singleton.mpr kind)]
      exact .other isOther ih

/-- Literals of later imports start at later bytes. -/
lemma LiteralsOf.pairwise {offset : Nat} {program : List Statement} {ns : List SyntaxNode}
    (h : LiteralsOf offset program ns) :
    (∀ n ∈ ns, offset ≤ n.startByte) ∧ ns.Pairwise fun a b => a.startByte < b.startByte := by
  induction h with
  | nil offset => exact ⟨fun _ hn => absurd hn List.not_mem_nil, .nil⟩
  | @static offset i n program ns first rest ih =>
    have hstart := first.startByte
    have hline : i.opening.utf8ByteSize < ((Statement.static i).text ++ "\n").utf8ByteSize := by
      simp only [Statement.text, String.utf8ByteSize_append]
      have hend : "\n".utf8ByteSize = 1 := rfl
      omega
    refine ⟨List.forall_mem_cons.mpr ⟨by omega, fun m hm => ?_⟩,
      List.pairwise_cons.mpr ⟨fun m hm => ?_, ih.2⟩⟩
    · have hlater := ih.1 m hm
      omega
    · have hlater := ih.1 m hm
      omega
  | other first rest ih => exact ⟨fun n hn => (Nat.le_add_right _ _).trans (ih.1 n hn), ih.2⟩

/-! ## What is found -/

section Found

open SourceDocument

variable {parser : ParserLibrary} {text ext : String}

/-- The literal of an import on a line is its source there. -/
lemma sourceOf_of_isLiteral {i : ImportStatement} {n : SyntaxNode} {before rest : String}
    {line : Nat} (htext : text = before ++ (i.opening ++ i.source.text) ++ rest)
    (hline : Position.after {} before.toList = { line, column := 1 })
    (h : i.IsLiteral before.utf8ByteSize n) :
    (ofText parser text ext).sourceOf n = .ok (some (i.sourceAt line)) := by
  let xs := (before ++ i.opening).toList
  let ys := i.source.text.toList
  have hparts : text.toList = xs ++ ys ++ rest.toList := by
    rw [htext]
    simp [xs, ys]
  have hstart : n.startByte = (String.ofList xs).utf8ByteSize := by
    rw [h.startByte, String.ofList_toList, String.utf8ByteSize_append]
  have hstop : n.endByte = (String.ofList (xs ++ ys)).utf8ByteSize := by
    rw [h.endByte, hstart, utf8ByteSize_ofList_append, String.ofList_toList, String.ofList_toList]
  have hslice : (ofText parser text ext).slice n.startByte n.endByte =
      bytesOf (inQuotes i.source.quote i.source.body) := by
    rw [hstart, hstop, slice_of_parts hparts, String.ofList_toList]
    rfl
  -- no line feed stands before the literal or in it, so that columns count characters
  have hfirst : Position.after {} xs = { line, column := i.opening.length + 1 } := by
    show Position.after {} (before ++ i.opening).toList = _
    rw [String.toList_append, Position.after_append, hline,
      Position.after_of_newline_not_mem _ (isLine_opening i), String.length_toList, Nat.add_comm 1]
  have hlast : Position.after {} (xs ++ ys) =
      { line, column := i.opening.length + 1 + i.source.text.length } := by
    rw [Position.after_append, hfirst,
      Position.after_of_newline_not_mem _ (isLine_quotedText i.source), String.length_toList]
  have hbefore : text.toList = xs ++ (ys ++ rest.toList) := by rw [hparts, List.append_assoc]
  rw [sourceOf_of_inQuotes i.source.isQuote hslice, nodeSpan_ofText, hstart, hstop,
    positionAt_append hbefore, positionAt_append hparts, hfirst, hlast]
  rfl

/-- The rest of a text is a program that begins on a line. -/
structure GoesOn (text before : String) (line : Nat) (program : List Statement) : Prop where
  text_eq : text = before ++ programText program
  position : Position.after {} before.toList = { line, column := 1 }

lemma GoesOn.next {before : String} {line : Nat} {st : Statement} {program : List Statement}
    (h : GoesOn text before line (st :: program)) :
    GoesOn text (before ++ (st.text ++ "\n")) (line + 1) program where
  text_eq := h.text_eq.trans String.append_assoc.symm
  position := by rw [String.toList_append, Position.after_append, h.position, after_line_text]

/-- The literals of a program are the sources of its imports, each on its line. -/
lemma LiteralsOf.filterMap_source? {offset : Nat} {program : List Statement} {ns : List SyntaxNode}
    (h : LiteralsOf offset program ns) {before : String} {line : Nat}
    (hoffset : offset = before.utf8ByteSize) (hgoesOn : GoesOn text before line program) :
    (∀ n ∈ ns, ∃ r, (ofText parser text ext).sourceOf n = .ok r) ∧
      ns.filterMap (ofText parser text ext).source? = importsFrom line program := by
  induction h generalizing before line with
  | nil offset => exact ⟨fun _ hn => absurd hn List.not_mem_nil, rfl⟩
  | @static offset i n program ns first rest ih =>
    subst hoffset
    obtain ⟨hok, hrest⟩ := ih String.utf8ByteSize_append.symm hgoesOn.next
    have hsource : (ofText parser text ext).sourceOf n = .ok (some (i.sourceAt line)) := by
      apply sourceOf_of_isLiteral _ hgoesOn.position first
      · exact ";" ++ "\n" ++ programText program
      · rw [hgoesOn.text_eq, programText, Statement.text]
        simp only [String.append_assoc]
    refine ⟨List.forall_mem_cons.mpr ⟨⟨_, hsource⟩, hok⟩, ?_⟩
    rw [List.filterMap_cons_some (source?_eq hsource), hrest]
    rfl
  | @other offset st program ns first rest ih =>
    subst hoffset
    obtain ⟨hok, hrest⟩ := ih String.utf8ByteSize_append.symm hgoesOn.next
    refine ⟨hok, ?_⟩
    rw [hrest, importsFrom, first]
    rfl

/-- A parser that reads a program captures the literals of its imports. -/
lemma ParserLibrary.ReadsProgram.exists_literalsOf {query : parser.Query} {grammar : Grammar}
    {program : List Statement} (h : parser.ReadsProgram query grammar program) :
    ∃ literals, LiteralsOf 0 program literals ∧
      (parser.sourceNodes query grammar (programText program)).Perm literals := by
  obtain ⟨start, stop, ns, hstand, hparse⟩ := h.parses
  have hfinds := h.finds.flatMap_right fun m => (m.filter fun e => e.1 = "source").flatMap Prod.snd
  have htree : sourcesAmong (parser.parse grammar (Text.encode (programText program))).nodes =
      sourcesAmong (ns.flatMap nodes) := by
    rw [hparse, nodes_eq, ← List.singleton_append, sourcesAmong_append, children, nodesOf_map]
    rfl
  refine ⟨_, hstand.literalsOf, hfinds.trans (.of_eq ?_)⟩
  exact (Lexer.capturedAs_singletons "source" _).trans htree

/-- Exactly the imports of a program are found, in order. If there is nothing else in it, each is
found on the line of its number; what stands between them moves them to other lines, and changes no
path. -/
theorem extractImports_programText (parser : ParserLibrary) (ext : String)
    (program : List Statement) (query : parser.Query)
    (hquery : parser.compile (Grammar.ofExtension (Grammar.normalize ext)) importQuery = .ok query)
    (h : parser.ReadsProgram query (Grammar.ofExtension (Grammar.normalize ext)) program) :
    ∃ sources, Scan.Yields (extractImports parser (programText program) ext) sources ∧
      sources = importsFrom 1 program ∧
      sources.map ImportSource.path = (program.filterMap Statement.import?).map (·.source.body) ∧
      ∀ is : List ImportStatement, program = is.map .static →
        sources = is.mapIdx fun k i => i.sourceAt (1 + k) := by
  let doc := ofText parser (programText program) (Grammar.normalize ext)
  obtain ⟨literals, hliterals, hcaptured⟩ := h.exists_literalsOf
  obtain ⟨hok, hsources⟩ : (∀ n ∈ literals, ∃ r, doc.sourceOf n = .ok r) ∧
      literals.filterMap doc.source? = importsFrom 1 program :=
    hliterals.filterMap_source? rfl ⟨String.empty_append.symm, rfl⟩
  obtain ⟨found, hperm, hsorted, hyields⟩ :=
    exists_yields_extract doc hquery fun n hn => hok n (hcaptured.mem_iff.mp hn)
  -- no two literals start at one byte, so there is only one order to find them in
  have hfound : found = literals := by
    have hincreasing := hliterals.pairwise.2
    have hnodup : (literals.map startByte).Nodup :=
      (List.pairwise_map.mpr hincreasing).imp Nat.ne_of_lt
    refine (hperm.trans hcaptured).eq_of_pairwise ?_ hsorted (hincreasing.imp Nat.le_of_lt)
    intro a b ha hb hab hba
    exact List.inj_on_of_nodup_map hnodup ((hperm.trans hcaptured).mem_iff.mp ha) hb
      (Nat.le_antisymm hab hba)
  rw [hfound, hsources] at hyields
  refine ⟨_, hyields, rfl, map_path_importsFrom 1 program, ?_⟩
  rintro is rfl
  exact importsFrom_static 1 is

/-- Two imports among statements that look like imports. -/
def sampleProgram : List Statement :=
  let a : Identifier := ⟨"a", by decide, by decide, by decide, by decide⟩
  let b : Identifier := ⟨"b", by decide, by decide, by decide, by decide⟩
  let x : QuotedText := ⟨'"', "./import x;", .inl rfl, by decide⟩
  let y : QuotedText := ⟨'\'', "y", .inr rfl, by decide⟩
  [.comment " import a from 'c'" (by decide),
    .static ⟨.named [⟨a, some b⟩], x⟩,
    .exportAllFrom y,
    .importRequire b y,
    .expression (.member (.importCall (.text y)) a),
    .static ⟨.sideEffect, y⟩]

/-- A node whose kind is its text. -/
def tokenAt (text : String) (start : Nat) : Option String × SyntaxNode :=
  (none, .node text start (start + text.utf8ByteSize) false [])

/-- A name of one letter. -/
def nameAt (field : Option String) (kind : String) (start : Nat) : Option String × SyntaxNode :=
  (field, .node kind start (start + 1) false [])

/-- A literal with a text of some bytes between its quotes. -/
def literalAt (field : Option String) (quote : String) (start size : Nat) :
    Option String × SyntaxNode :=
  (field, .node "string" start (start + size + 2) false
    [tokenAt quote start,
      (none, .node "string_fragment" (start + 1) (start + 1 + size) false []),
      tokenAt quote (start + 1 + size)])

/-- The nodes of the sample, one for each statement. -/
def sampleNodes : List SyntaxNode :=
  [.node "comment" 0 20 false [],
    .node "import_statement" 21 58 false
      [tokenAt "import" 21,
        (none, .node "import_clause" 28 38 false
          [(none, .node "named_imports" 28 38 false
            [tokenAt "\x7b" 28,
              (none, .node "import_specifier" 30 36 false
                [nameAt (some "name") "identifier" 30, tokenAt "as" 32,
                  nameAt (some "alias") "identifier" 35]),
              tokenAt "\x7d" 37])]),
        tokenAt "from" 39, literalAt (some "source") "\"" 44 11, tokenAt ";" 57],
    .node "export_statement" 59 77 false
      [tokenAt "export" 59, tokenAt "*" 66, tokenAt "from" 68,
        literalAt (some "source") "'" 73 1, tokenAt ";" 76],
    .node "import_statement" 78 102 false
      [tokenAt "import" 78,
        (none, .node "import_require_clause" 85 101 false
          [nameAt none "identifier" 85, tokenAt "=" 87, tokenAt "require" 89, tokenAt "(" 96,
            literalAt (some "source") "'" 97 1, tokenAt ")" 100]),
        tokenAt ";" 101],
    .node "expression_statement" 103 117 false
      [(none, .node "member_expression" 103 116 false
        [(some "object", .node "call_expression" 103 114 false
          [(some "function", .node "import" 103 109 false []),
            (some "arguments", .node "arguments" 109 114 false
              [tokenAt "(" 109, literalAt none "'" 110 1, tokenAt ")" 113])]),
          tokenAt "." 114, nameAt (some "property") "property_identifier" 115]),
        tokenAt ";" 116],
    .node "import_statement" 118 129 false
      [tokenAt "import" 118, literalAt (some "source") "'" 125 1, tokenAt ";" 128]]

/-- A parser that knows the tree of the sample. -/
def sampleParser : ParserLibrary :=
  { Lexer.library with
    parse := fun grammar bytes =>
      if bytes = Text.encode (programText sampleProgram) then
        .node "program" 0 130 false (sampleNodes.map (none, ·))
      else Lexer.library.parse grammar bytes }

lemma standFor_sampleProgram : StandFor 0 sampleProgram sampleNodes := by
  refine .cons ?_ (by decide) (.cons ?_ (by decide) (.cons ?_ (by decide) (.cons ?_ (by decide)
    (.cons ?_ (by decide) (.cons ?_ (by decide) (.nil _))))))
  · exact .other rfl (by decide)
  · exact .static rfl rfl ⟨rfl, by decide +kernel, by decide +kernel⟩
  · exact .other rfl (by decide)
  · exact .importRequire rfl rfl
  · exact .other rfl (by decide)
  · exact .static rfl rfl ⟨rfl, by decide +kernel, by decide +kernel⟩

lemma readsProgram_sampleProgram (grammar : Grammar) :
    sampleParser.ReadsProgram Lexer.sourceQuery grammar sampleProgram := by
  have hparse : sampleParser.parse grammar (Text.encode (programText sampleProgram)) =
      .node "program" 0 130 false (sampleNodes.map (none, ·)) := by
    simp only [sampleParser, if_true]
  refine ⟨⟨0, 130, sampleNodes, standFor_sampleProgram, hparse⟩, ?_⟩
  rw [hparse]
  exact .of_eq rfl

theorem extractImports_sampleProgram :
    programText sampleProgram =
      "// import a from 'c'\n" ++
      "import \x7b a as b \x7d from \"./import x;\";\n" ++
      "export * from 'y';\n" ++
      "import b = require('y');\n" ++
      "import('y').a;\n" ++
      "import 'y';\n" ∧
    Scan.Yields (extractImports sampleParser (programText sampleProgram) "ts")
      [{ path := "./import x;"
         span := { line := 2, column := 24, endLine := 2, endColumn := 37 } },
        { path := "y", span := { line := 6, column := 8, endLine := 6, endColumn := 11 } }] := by
  refine ⟨by decide +kernel, ?_⟩
  have hquery := Lexer.compile_library (Grammar.ofExtension (Grammar.normalize "ts"))
  obtain ⟨sources, hyields, hsources, -⟩ := extractImports_programText sampleParser "ts"
    sampleProgram
    Lexer.sourceQuery hquery (readsProgram_sampleProgram _)
  have hfound : importsFrom 1 sampleProgram =
      [{ path := "./import x;"
         span := { line := 2, column := 24, endLine := 2, endColumn := 37 } },
        { path := "y", span := { line := 6, column := 8, endLine := 6, endColumn := 11 } }] := by
    decide +kernel
  rwa [hsources, hfound] at hyields

end Found

end EntryLint
