import EntryLint.Parser.Library
import EntryLint.Proofs.Source.Counting
import EntryLint.Proofs.Source.Scan

/-!
# The included parser

The machine that stands in for a parser adds a literal only at its closing quote, and the literal
starts where its opening quote was read (`Lexer.Follows`, kept by every step). So the literals of a
text start and end between characters, one after the other (`Placed`), and the sources of its
imports are some of these: the machine is a parser as the theory of imports relies on it
(`Lexer.isSound_library`).
-/

namespace EntryLint

/-! ## Literals and their places -/

/-- A byte of a text is the first one of a character, or the end. -/
def EndsChar (cs : List Char) (n : Nat) : Prop :=
  ∃ xs ys, cs = xs ++ ys ∧ n = (String.ofList xs).utf8ByteSize

lemma endsChar_self (cs : List Char) : EndsChar cs (String.ofList cs).utf8ByteSize :=
  ⟨cs, [], (List.append_nil cs).symm, rfl⟩

lemma EndsChar.append {cs : List Char} {n : Nat} (h : EndsChar cs n) (more : List Char) :
    EndsChar (cs ++ more) n := by
  obtain ⟨xs, ys, rfl, hn⟩ := h
  exact ⟨xs, ys ++ more, List.append_assoc xs ys more, hn⟩

/-- No byte of a text lies behind its end. -/
lemma EndsChar.le {cs : List Char} {n : Nat} (h : EndsChar cs n) :
    n ≤ (String.ofList cs).utf8ByteSize := by
  obtain ⟨xs, ys, rfl, rfl⟩ := h
  rw [utf8ByteSize_ofList_append]
  exact Nat.le_add_right _ _

lemma EndsChar.isValid {text : String} {n : Nat} (h : EndsChar text.toList n) :
    String.Pos.Raw.IsValid text ⟨n⟩ := by
  obtain ⟨xs, ys, htext, rfl⟩ := h
  refine String.Pos.Raw.isValid_iff_exists_append.mpr ⟨String.ofList xs, String.ofList ys, ?_, rfl⟩
  rw [← String.ofList_append, ← htext, String.ofList_toList]

/-- Literals in a text, the last one first: each starts and ends between characters, and ends before
the next one starts. -/
structure Placed (cs : List Char) (ls : List Literal) : Prop where
  starts : ∀ l ∈ ls, EndsChar cs l.start
  stops : ∀ l ∈ ls, EndsChar cs l.stop
  apart : ls.Pairwise fun later earlier => earlier.stop ≤ later.start

lemma placed_nil (cs : List Char) : Placed cs [] :=
  ⟨by simp, by simp, List.Pairwise.nil⟩

lemma Placed.append {cs : List Char} {ls : List Literal} (h : Placed cs ls) (more : List Char) :
    Placed (cs ++ more) ls :=
  ⟨fun l hl => (h.starts l hl).append more, fun l hl => (h.stops l hl).append more, h.apart⟩

lemma Placed.cons {cs : List Char} {ls : List Literal} {l : Literal} (h : Placed cs ls)
    (start : EndsChar cs l.start) (stop : EndsChar cs l.stop)
    (before : ∀ e ∈ ls, e.stop ≤ l.start) :
    Placed cs (l :: ls) :=
  ⟨List.forall_mem_cons.mpr ⟨start, h.starts⟩, List.forall_mem_cons.mpr ⟨stop, h.stops⟩,
    List.pairwise_cons.mpr ⟨before, h.apart⟩⟩

/-! ## What a character does to literals -/

/-- The literal that a lexeme is, if it is one. -/
def Lexeme.literal? : Lexeme → Option Literal
  | .text l => some l
  | _ => none

namespace Pending

/-- Whether a literal is open. -/
def isText : Pending → Bool
  | text .. => true
  | _ => false

end Pending

namespace Lexer

/-- The literals that were read, the last one first. -/
def literals (s : Lexer) : List Literal :=
  s.lexemes.filterMap Lexeme.literal?

/-- A character outside literals adds none. It may open one, which starts where the character
stands. -/
structure Passes (s s' : Lexer) : Prop where
  literals : s'.literals = s.literals
  pending : s'.pending.isText = false ∨ ∃ quote, s'.pending = .text s.offset quote .none

section Passes

variable {s s₁ s' : Lexer}

/-- What is done before a character is read counts only as far as literals and the place. -/
lemma Passes.of_eq (h : Passes s₁ s') (hliterals : s₁.literals = s.literals)
    (hoffset : s₁.offset = s.offset) : Passes s s' := by
  refine ⟨h.literals.trans hliterals, ?_⟩
  rw [← hoffset]
  exact h.pending

/-- A choice passes when both of its sides do. -/
lemma passes_ite {p : Prop} [Decidable p] {s₁ s₂ : Lexer} (h₁ : p → Passes s s₁)
    (h₂ : Passes s s₂) : Passes s (if p then s₁ else s₂) := by
  split
  · rename_i h
    exact h₁ h
  · exact h₂

lemma passes_close (s : Lexer) (c : Char) : Passes s (s.close c) := by
  unfold close
  split
  all_goals exact ⟨rfl, .inl rfl⟩

lemma passes_code (s : Lexer) (c : Char) : Passes s (s.code c) := by
  unfold code
  refine passes_ite (fun _ => ⟨rfl, .inl rfl⟩) ?_
  refine passes_ite (fun _ => passes_ite (fun _ => ⟨rfl, .inl rfl⟩) ⟨rfl, .inl rfl⟩) ?_
  -- a quote is the only character that opens a literal
  refine passes_ite (fun _ => ⟨rfl, .inr ⟨c, rfl⟩⟩) ?_
  repeat' refine passes_ite (fun _ => ?_) ?_
  any_goals exact ⟨rfl, .inl rfl⟩
  exact passes_close s c

lemma passes_template (s : Lexer) (c : Char) : Passes s (s.template c) := by
  unfold template
  repeat' refine passes_ite (fun _ => ?_) ?_
  all_goals exact ⟨rfl, .inl rfl⟩

lemma passes_endElement (s : Lexer) : Passes s s.endElement := by
  unfold endElement
  split
  all_goals exact ⟨rfl, .inl rfl⟩

lemma passes_tagRest (s : Lexer) (c : Char) : Passes s (s.tagRest c) := by
  unfold tagRest
  repeat' refine passes_ite (fun _ => ?_) ?_
  all_goals exact ⟨rfl, .inl rfl⟩

lemma passes_notTag (s : Lexer) (c : Char) : Passes s (s.notTag c) :=
  (passes_code _ c).of_eq rfl rfl

lemma passes_tag (s : Lexer) (progress : TagProgress) (c : Char) :
    Passes s (s.tag progress c) := by
  unfold tag
  split
  · refine passes_ite (fun _ => ⟨rfl, .inl rfl⟩) ?_
    refine passes_ite (fun _ => ⟨rfl, .inl rfl⟩) ?_
    exact passes_ite (fun _ => passes_notTag s c) (passes_tagRest s c)
  · refine passes_ite (fun _ => ⟨rfl, .inl rfl⟩) ?_
    refine passes_ite (fun _ => passes_notTag s c) ?_
    exact passes_ite (fun _ => ⟨rfl, .inl rfl⟩) (passes_tagRest s c)
  · refine passes_ite (fun _ => ⟨rfl, .inl rfl⟩) ?_
    exact passes_ite (fun _ => passes_notTag s c) (passes_tagRest s c)
  · exact passes_tagRest s c

lemma passes_typeArguments (s : Lexer) (c : Char) : Passes s (s.typeArguments c) := by
  unfold typeArguments
  repeat' refine passes_ite (fun _ => ?_) ?_
  all_goals exact ⟨rfl, .inl rfl⟩

lemma passes_content (s : Lexer) (c : Char) : Passes s (s.content c) := by
  unfold content
  refine passes_ite (fun _ => ⟨rfl, .inl rfl⟩) ?_
  refine passes_ite (fun _ => ⟨rfl, .inl rfl⟩) ?_
  exact passes_ite (fun _ => (passes_code _ c).of_eq rfl rfl) ⟨rfl, .inl rfl⟩

lemma passes_openElement (s : Lexer) (c : Char) : Passes s (s.openElement c) := by
  unfold openElement
  exact passes_ite (fun _ => ⟨rfl, .inl rfl⟩) ⟨rfl, .inl rfl⟩

lemma passes_closingTag (s : Lexer) (c : Char) : Passes s (s.closingTag c) := by
  unfold closingTag
  exact passes_ite (fun _ => (passes_endElement _).of_eq rfl rfl) ⟨rfl, .inl rfl⟩

lemma passes_base (s : Lexer) (c : Char) : Passes s (s.base c) := by
  unfold base
  split
  · exact passes_template s c
  · exact passes_tag s _ c
  · exact passes_typeArguments s c
  · exact passes_content s c
  · exact passes_closingTag s c
  · exact passes_code s c

lemma passes_regex (s : Lexer) (inClass escaped : Bool) (c : Char) :
    Passes s (s.regex inClass escaped c) := by
  unfold regex
  repeat' refine passes_ite (fun _ => ?_) ?_
  all_goals exact ⟨rfl, .inl rfl⟩

lemma passes_afterSlash (s : Lexer) (c : Char) : Passes s (s.afterSlash c) := by
  unfold afterSlash
  refine passes_ite (fun _ => ⟨rfl, .inl rfl⟩) ?_
  refine passes_ite (fun _ => ⟨rfl, .inl rfl⟩) ?_
  split
  · exact passes_ite (fun _ => (passes_endElement _).of_eq rfl rfl) (passes_base s c)
  · exact passes_ite (fun _ => passes_regex s false false c) ((passes_base _ c).of_eq rfl rfl)

lemma passes_afterAngle (s : Lexer) (seen : Nat) (c : Char) : Passes s (s.afterAngle seen c) := by
  unfold afterAngle
  split
  · refine passes_ite (fun _ => ⟨rfl, .inl rfl⟩) ?_
    exact passes_ite (fun _ => passes_openElement s c) ((passes_base _ c).of_eq rfl rfl)
  · exact passes_ite (fun _ => ⟨rfl, .inl rfl⟩) ((passes_base _ c).of_eq rfl rfl)
  · exact passes_ite (fun _ => ⟨rfl, .inl rfl⟩) ((passes_base _ c).of_eq rfl rfl)

/-- Outside literals every character passes. -/
lemma passes_read (s : Lexer) (c : Char) (h : s.pending.isText = false) : Passes s (s.read c) := by
  unfold read
  split
  · exact passes_base s c
  · exact passes_ite (fun _ => ⟨rfl, .inl rfl⟩) ((passes_base _ c).of_eq rfl rfl)
  · refine passes_ite (fun _ => ⟨rfl, .inl rfl⟩) ?_
    exact passes_ite (fun _ => ⟨rfl, .inl rfl⟩) ((passes_base _ c).of_eq rfl rfl)
  · exact passes_afterSlash s c
  · exact passes_ite (fun _ => ⟨rfl, .inl rfl⟩) ⟨rfl, .inl h⟩
  · exact passes_ite (fun _ => ⟨rfl, .inl rfl⟩) ⟨rfl, .inl rfl⟩
  · rename_i hpending
    rw [hpending] at h
    cases h
  · exact passes_regex s _ _ c
  · exact passes_ite (fun _ => ⟨rfl, .inl h⟩) ((passes_base _ c).of_eq rfl rfl)
  · exact passes_ite (fun _ => ⟨rfl, .inl rfl⟩) ((passes_base _ c).of_eq rfl rfl)
  · exact passes_ite (fun _ => ⟨rfl, .inl rfl⟩) ((passes_base _ c).of_eq rfl rfl)
  · exact passes_ite (fun _ => ⟨rfl, .inl rfl⟩) ((passes_base _ c).of_eq rfl rfl)
  · exact passes_afterAngle s _ c
  · exact passes_ite (fun _ => ⟨rfl, .inl rfl⟩) (passes_template s c)
  · exact ⟨rfl, .inl rfl⟩
  · exact passes_ite (fun _ => ⟨rfl, .inl rfl⟩) ⟨rfl, .inl h⟩
  · refine passes_ite (fun _ => ⟨rfl, .inl h⟩) ?_
    exact passes_ite (fun _ => ⟨rfl, .inl rfl⟩) (passes_base s c)
  · refine passes_ite (fun _ => ⟨rfl, .inl rfl⟩) ?_
    exact passes_ite (fun _ => ⟨rfl, .inl h⟩) (passes_openElement s c)

end Passes

/-- A character inside a literal goes on with it, closes it, or breaks it off. -/
inductive Extends (s : Lexer) (start : Nat) (quote c : Char) (s' : Lexer) : Prop
  | goesOn (escape : Escape) (literals : s'.literals = s.literals)
      (pending : s'.pending = .text start quote escape)
  | closes (isQuote : c = quote)
      (literals : s'.literals = { start, stop := s.offset + quote.utf8Size } :: s.literals)
      (pending : s'.pending.isText = false)
  | breaks (literals : s'.literals = s.literals) (pending : s'.pending.isText = false)

lemma extends_plainText (s : Lexer) (start : Nat) (quote c : Char) :
    Extends s start quote c (s.plainText start quote c) := by
  unfold plainText
  split_ifs with hquote
  · exact .closes hquote rfl rfl
  · exact .breaks rfl rfl
  · exact .goesOn .next rfl rfl
  · exact .goesOn .none rfl rfl

lemma extends_text (s : Lexer) (start : Nat) (quote : Char) (escape : Escape) (c : Char) :
    Extends s start quote c (s.text start quote escape c) := by
  unfold text
  split
  · exact extends_plainText s start quote c
  · exact .goesOn _ rfl rfl
  · split
    · exact .goesOn .none rfl rfl
    · exact extends_plainText s start quote c

/-! ## Runs -/

/-- The machine has read some characters: it stands behind them, its literals stand in them, and an
open literal starts behind all of these. -/
structure Follows (s : Lexer) (cs : List Char) : Prop where
  offset : s.offset = (String.ofList cs).utf8ByteSize
  literals : Placed cs s.literals
  pending : ∀ start quote escape, s.pending = .text start quote escape →
    EndsChar cs start ∧ ∀ l ∈ s.literals, l.stop ≤ start

variable {s : Lexer} {cs : List Char}

/-- With no literal open only those that were closed count. -/
lemma follows_of_closed (hoffset : s.offset = (String.ofList cs).utf8ByteSize)
    (hliterals : Placed cs s.literals) (hclosed : s.pending.isText = false) : s.Follows cs where
  offset := hoffset
  literals := hliterals
  pending := by
    intro start quote escape hpending
    rw [hpending] at hclosed
    cases hclosed

/-- The machine moves on with every character. -/
lemma Follows.offset_step (h : s.Follows cs) (c : Char) :
    (s.step c).offset = (String.ofList (cs ++ [c])).utf8ByteSize := by
  show s.offset + c.utf8Size = _
  rw [h.offset, utf8ByteSize_ofList_append, utf8ByteSize_ofList_cons, String.ofList_nil,
    String.utf8ByteSize_empty, Nat.add_zero]

/-- Outside literals nothing is added to them. -/
lemma Follows.step_outside (h : s.Follows cs) (c : Char) (hopen : s.pending.isText = false) :
    (s.step c).Follows (cs ++ [c]) := by
  have hpasses := passes_read s c hopen
  have hliterals : (s.step c).literals = s.literals := hpasses.literals
  have hplaced : Placed (cs ++ [c]) (s.step c).literals := by
    rw [hliterals]
    exact h.literals.append [c]
  rcases hpasses.pending with hclosed | ⟨quote, hopened⟩
  · exact follows_of_closed (h.offset_step c) hplaced hclosed
  -- the character is an opening quote
  · refine ⟨h.offset_step c, hplaced, ?_⟩
    intro start quote' escape hpending
    cases hopened.symm.trans hpending
    rw [h.offset, hliterals]
    exact ⟨(endsChar_self cs).append [c], fun l hl => (h.literals.stops l hl).le⟩

/-- Inside a literal, a character goes on with it or ends it. -/
lemma Follows.step_inside (h : s.Follows cs) (c : Char) {start : Nat} {quote : Char}
    {escape : Escape} (hopen : s.pending = .text start quote escape) :
    (s.step c).Follows (cs ++ [c]) := by
  obtain ⟨hstart, hbefore⟩ := h.pending start quote escape hopen
  have hextends : Extends s start quote c (s.read c) := by
    rw [read, hopen]
    exact extends_text s start quote escape c
  have hoffset := h.offset_step c
  cases hextends with
  | goesOn escape' hliterals hpending =>
    have hsame : (s.step c).literals = s.literals := hliterals
    refine ⟨hoffset, by rw [hsame]; exact h.literals.append [c], ?_⟩
    intro start' quote' escape'' hpending'
    cases hpending.symm.trans hpending'
    rw [hsame]
    exact ⟨hstart.append [c], hbefore⟩
  | closes hc hliterals hclosed =>
    refine follows_of_closed hoffset ?_ hclosed
    have hadded : (s.step c).literals =
        { start, stop := s.offset + quote.utf8Size } :: s.literals := hliterals
    rw [hadded]
    refine (h.literals.append [c]).cons (hstart.append [c]) ?_ hbefore
    -- the literal ends behind the character that was read
    have hstop : s.offset + quote.utf8Size = (String.ofList (cs ++ [c])).utf8ByteSize := by
      rw [← hoffset, ← hc]
      rfl
    show EndsChar (cs ++ [c]) (s.offset + quote.utf8Size)
    rw [hstop]
    exact endsChar_self _
  | breaks hliterals hclosed =>
    have hsame : (s.step c).literals = s.literals := hliterals
    exact follows_of_closed hoffset (by rw [hsame]; exact h.literals.append [c]) hclosed

lemma Follows.step (h : s.Follows cs) (c : Char) : (s.step c).Follows (cs ++ [c]) := by
  cases hopen : s.pending with
  | text start quote escape => exact h.step_inside c hopen
  | _ => exact h.step_outside c (by rw [hopen]; rfl)

lemma Follows.run (h : s.Follows cs) (ds : List Char) : (s.run ds).Follows (cs ++ ds) := by
  induction ds generalizing s cs with
  | nil => simpa [Lexer.run] using h
  | cons d ds ih =>
    have hrest := ih (h.step d)
    rwa [List.append_assoc] at hrest

lemma follows_start (grammar : Grammar) : Follows { grammar } [] :=
  follows_of_closed rfl (placed_nil []) rfl

/-- The end of a text adds no literal. -/
lemma literals_finish (s : Lexer) : s.finish.literals = s.literals := by
  unfold finish
  cases s.pending
  all_goals rfl

/-- The literals of a text stand in it, the last one first. -/
lemma placed_readSource (grammar : Grammar) (text : String) :
    Placed text.toList (readSource grammar text).literals := by
  rw [readSource, literals_finish]
  exact ((follows_start grammar).run text.toList).literals

/-! ## Sources of imports -/

/-- The sources of imports are some of the literals, in their order. -/
lemma importLiterals_sublist (phase : ImportPhase) (ls : List Lexeme) :
    (importLiterals phase ls).Sublist (ls.filterMap Lexeme.literal?) := by
  induction ls generalizing phase with
  | nil => exact List.Sublist.refl []
  | cons l ls ih =>
    cases l with
    | text literal =>
      rw [importLiterals, List.filterMap_cons_some
        (show (Lexeme.text literal).literal? = _ from rfl)]
      split
      · exact (ih _).cons_cons literal
      · exact (ih _).cons literal
    | _ => exact ih _

/-- The sources of imports start and end between characters, one after the other. -/
lemma importLiterals_readSource (grammar : Grammar) (text : String) :
    (∀ l ∈ importLiterals .outside (readSource grammar text).lexemes.reverse,
      EndsChar text.toList l.start ∧ EndsChar text.toList l.stop) ∧
    (importLiterals .outside (readSource grammar text).lexemes.reverse).Pairwise fun a b =>
      a.stop ≤ b.start := by
  have hplaced := placed_readSource grammar text
  have hsublist := importLiterals_sublist .outside (readSource grammar text).lexemes.reverse
  rw [List.filterMap_reverse] at hsublist
  refine ⟨fun l hl => ?_, (List.pairwise_reverse.mpr hplaced.apart).sublist hsublist⟩
  have hmem : l ∈ (readSource grammar text).literals := List.mem_reverse.mp (hsublist.subset hl)
  exact ⟨hplaced.starts l hmem, hplaced.stops l hmem⟩

/-! ## The library -/

/-- The node of the source of an import. -/
def sourceNode (l : Literal) : SyntaxNode :=
  .node "string" l.start l.stop false []

lemma nodesBelow_append (outer field inner : String) (xs ys : List (Option String × SyntaxNode)) :
    nodesBelow outer field inner (xs ++ ys) =
      nodesBelow outer field inner xs ++ nodesBelow outer field inner ys := by
  induction xs with
  | nil => rw [nodesBelow, List.nil_append, List.nil_append]
  | cons x xs ih => rw [List.cons_append, nodesBelow, nodesBelow, ih, List.append_assoc]

lemma nodesBelow_imports (ls : List Literal) :
    nodesBelow "import_statement" "source" "string" ((ls.map importNode).map (none, ·)) =
      ls.map sourceNode := by
  induction ls with
  | nil => rfl
  | cons l ls ih =>
    rw [List.map_cons, List.map_cons, nodesBelow, ih]
    rfl

/-- In the tree of a text the sources of its imports are found, and nothing else. -/
lemma nodesIn_parse (grammar : Grammar) (text : String) :
    nodesIn "import_statement" "source" "string" (parse grammar (Text.encode text)) =
      (importLiterals .outside (readSource grammar text).lexemes.reverse).map sourceNode := by
  have htext : Text.decodeLossy (Text.encode text) = text := by
    have hdecoded := Text.decodeLossy_append_cutShort text.toList Text.cutShort_nil
    rwa [List.append_nil, String.ofList_toList] at hdecoded
  have herrors : ∀ stop, nodesBelow "import_statement" "source" "string"
      ((if (readSource grammar text).hasSyntaxError then [SyntaxNode.node "ERROR" 0 stop false []]
        else []).map (none, ·)) = [] := by
    intro stop
    split
    · simp [nodesBelow, nodesIn]
    · simp [nodesBelow]
  rw [parse, htext, nodesIn, if_neg (by decide)]
  simp only [List.map_append, nodesBelow_append, nodesBelow_imports, herrors, List.append_nil,
    List.nil_append]

lemma capturedAs_singletons (name : String) (nodes : List SyntaxNode) :
    capturedAs name (nodes.map fun n => [(name, [n])]) = nodes := by
  rw [capturedAs, List.flatMap_map]
  simp

/-- What the machine makes of the query for sources. -/
def sourceQuery : Query :=
  { outer := "import_statement", field := "source", inner := "string", name := "source" }

lemma compile_library (grammar : Grammar) :
    library.compile grammar importQuery = .ok sourceQuery := by
  show compileQuery importQuery = _
  rw [compileQuery, if_pos SourceDocument.get?_queries.symm]
  rfl

/-- The nodes that are captured are those of the sources of imports. -/
lemma sourceNodes_library (grammar : Grammar) (text : String) :
    library.sourceNodes sourceQuery grammar text =
      (importLiterals .outside (readSource grammar text).lexemes.reverse).map sourceNode := by
  have hcaptures : ∀ tree, library.captures sourceQuery tree =
      (nodesIn "import_statement" "source" "string" tree).map fun n => [("source", [n])] :=
    fun _ => rfl
  show capturedAs "source" (library.captures sourceQuery (parse grammar (Text.encode text))) = _
  rw [hcaptures, capturedAs_singletons, nodesIn_parse]

/-- The machine is a parser that can be relied on. -/
lemma isSound_library : library.IsSound := by
  refine ⟨fun grammar => ⟨sourceQuery, compile_library grammar⟩,
    fun grammar query hquery text => ?_⟩
  have hsame : query = sourceQuery := Except.ok.inj (hquery.symm.trans (compile_library grammar))
  obtain ⟨hbounded, hapart⟩ := importLiterals_readSource grammar text
  rw [hsame]
  constructor
  · rw [sourceNodes_library, List.forall_mem_map]
    exact fun l hl => ⟨(hbounded l hl).1.isValid, (hbounded l hl).2.isValid⟩
  · rw [sourceNodes_library, List.pairwise_map]
    exact hapart.imp .inl

end Lexer

end EntryLint
