import EntryLint.Proofs.NameMap
import EntryLint.Proofs.Traced
import EntryLint.Source.Import
import Mathlib.Data.List.Basic

/-!
# Scans

What is relied on of a parser, and what a scan with it gives. Compiled queries stay for later scans,
so a scan is said to yield a value if it does so whatever was compiled before (`Scan.Yields`). A
document then yields the import sources of the nodes that were captured, in the order of their bytes
(`SourceDocument.exists_yields_extract`).
-/

namespace EntryLint

/-! ## Parsers -/

/-- The query for the sources of static imports. -/
def importQuery : String :=
  "\n    (import_statement\n      source: (string) @source)\n    "

/-- The nodes that matches capture under a name. -/
def capturedAs (name : String) (found : List (NameMap (List SyntaxNode))) : List SyntaxNode :=
  found.flatMap fun m => (m.filter fun e => e.1 = name).flatMap Prod.snd

namespace ParserLibrary

/-- The nodes that a query captures as sources in a text. -/
def sourceNodes (parser : ParserLibrary) (query : parser.Query) (grammar : Grammar)
    (text : String) :
    List SyntaxNode :=
  capturedAs "source" (parser.captures query (parser.parse grammar (Text.encode text)))

/-- The nodes that are captured as sources in a text start and end between characters, and no two of
them overlap. -/
structure SeparatesSources (parser : ParserLibrary) (query : parser.Query) (grammar : Grammar)
    (text : String) : Prop where
  bounded : ∀ n ∈ parser.sourceNodes query grammar text,
    String.Pos.Raw.IsValid text ⟨n.startByte⟩ ∧ String.Pos.Raw.IsValid text ⟨n.endByte⟩
  apart : (parser.sourceNodes query grammar text).Pairwise fun a b =>
    a.endByte ≤ b.startByte ∨ b.endByte ≤ a.startByte

/-- What is relied on of a parser: it knows the query, and separates the sources of every text. -/
structure IsSound (parser : ParserLibrary) : Prop where
  compiles : ∀ grammar, ∃ query, parser.compile grammar importQuery = .ok query
  separates : ∀ grammar query, parser.compile grammar importQuery = .ok query →
    ∀ text, parser.SeparatesSources query grammar text

end ParserLibrary

/-! ## Compiled queries -/

variable {parser : ParserLibrary} {α β : Type}

/-- Compiled queries are what the parser makes of their texts. -/
def QueryCache.IsTrue (cache : QueryCache parser) : Prop :=
  ∀ e ∈ cache, ∃ text, SourceDocument.queries.get? e.1.query = some text ∧
    parser.compile (Grammar.ofExtension e.1.ext) text = .ok e.2

lemma QueryCache.isTrue_nil : QueryCache.IsTrue ([] : QueryCache parser) :=
  fun _ he => absurd he List.not_mem_nil

namespace Scan

/-- A scan gives a value, whatever was compiled before, and leaves true queries. -/
def Yields (x : Scan parser α) (a : α) : Prop :=
  ∀ cache : QueryCache parser, cache.IsTrue →
    ∃ cache' : QueryCache parser, (x cache).outcome = .ok (a, cache') ∧ cache'.IsTrue

variable {x : Scan parser α} {a : α}

lemma yields_pure (a : α) : Yields (pure a : Scan parser α) a :=
  fun cache hcache => ⟨cache, rfl, hcache⟩

lemma yields_lift {y : Traced LogLine Raised α} (h : y.outcome = .ok a) :
    Yields (StateT.lift y : Scan parser α) a :=
  fun cache hcache => ⟨cache, Traced.outcome_bind_ok h _, hcache⟩

lemma Yields.bind {f : α → Scan parser β} {b : β} (hx : Yields x a) (hf : Yields (f a) b) :
    Yields (x >>= f) b := by
  intro cache hcache
  obtain ⟨cache', hx', htrue⟩ := hx cache hcache
  obtain ⟨cache'', hf', htrue'⟩ := hf cache' htrue
  exact ⟨cache'', (Traced.outcome_bind_ok hx' _).trans hf', htrue'⟩

/-- A scan yields one value at most. -/
lemma Yields.unique {b : α} (ha : Yields x a) (hb : Yields x b) : a = b := by
  obtain ⟨cache, hcache, -⟩ := ha [] QueryCache.isTrue_nil
  obtain ⟨cache', hcache', -⟩ := hb [] QueryCache.isTrue_nil
  exact (Prod.mk.inj (Except.ok.inj (hcache.symm.trans hcache'))).1

end Scan

namespace SourceDocument

open Scan (Yields)

variable {doc : SourceDocument} {query : parser.Query}

lemma get?_queries : queries.get? "import_sources" = some importQuery := rfl

lemma yields_compile {name text : String} (hname : queries.get? name = some text)
    (h : parser.compile (Grammar.ofExtension doc.ext) text = .ok query) :
    Yields (doc.compile parser name) query := by
  intro cache hcache
  rw [compile, hname]
  simp only
  cases hlookup : cache.lookup { document := kind, ext := doc.ext, query := name } with
  | some found =>
    -- what is remembered under this key was compiled from the same text
    obtain ⟨before, after, rfl, -⟩ := List.lookup_eq_some_iff.mp hlookup
    obtain ⟨text', htext', hfound⟩ := hcache _ (List.mem_append_right _ List.mem_cons_self)
    obtain rfl : text = text' := Option.some_inj.mp (hname.symm.trans htext')
    obtain rfl : query = found := Except.ok.inj (h.symm.trans hfound)
    exact ⟨_, rfl, hcache⟩
  | none =>
    simp only [h]
    exact ⟨_, rfl, List.forall_mem_cons.mpr ⟨⟨text, hname, h⟩, hcache⟩⟩

/-- The nodes of a query under a name, as they come out of the sort. -/
lemma filterMap_capturedNodes (name : String) (found : List (NameMap (List SyntaxNode))) :
    (found.flatMap capturedNodes).filterMap (fun e => if e.2 = name then some e.1 else none) =
      capturedAs name found := by
  rw [capturedAs, List.filterMap_flatMap]
  apply List.flatMap_congr
  intro captured hmem
  clear hmem
  rw [capturedNodes, List.filterMap_flatMap]
  induction captured with
  | nil => rfl
  | cons e captured ih =>
    rw [List.flatMap_cons, ih, List.filterMap_map]
    by_cases hname : e.1 = name
    · rw [List.filter_cons_of_pos (by simpa using hname), List.flatMap_cons]
      simp [hname]
    · rw [List.filter_cons_of_neg (by simpa using hname)]
      simp [hname]

/-- The import source of a node, if there is one. -/
def source? (doc : SourceDocument) (node : SyntaxNode) : Option ImportSource :=
  (doc.sourceOf node).toOption.join

lemma sourcesOf_eq (found : List (SyntaxNode × String))
    (h : ∀ n ∈ found.filterMap (fun e => if e.2 = "source" then some e.1 else none),
      ∃ r, doc.sourceOf n = .ok r) :
    doc.sourcesOf found =
      .ok ((found.filterMap fun e => if e.2 = "source" then some e.1 else none).filterMap
        doc.source?) := by
  induction found with
  | nil => rfl
  | cons e found ih =>
    obtain ⟨node, capture⟩ := e
    rw [sourcesOf]
    by_cases hcapture : capture = "source"
    · rw [List.filterMap_cons_some (by rw [if_pos hcapture]), List.forall_mem_cons] at h
      obtain ⟨⟨r, hr⟩, hrest⟩ := h
      rw [if_pos hcapture, hr, ih hrest, List.filterMap_cons_some (by rw [if_pos hcapture])]
      have hsource : doc.source? node = r := by
        rw [source?, hr]
        rfl
      show Except.ok (r.toList ++ _) = _
      rw [List.filterMap_cons, hsource]
      cases r with
      | none => rfl
      | some source => rfl
    · rw [List.filterMap_cons_none (by rw [if_neg hcapture])] at h
      rw [if_neg hcapture, ih h, List.filterMap_cons_none (by rw [if_neg hcapture])]

/-- Nodes that are sorted by their first bytes stay so when those under one name are taken. -/
lemma pairwise_filterMap_mergeSort (name : String) (found : List (SyntaxNode × String)) :
    ((found.mergeSort fun a b => decide (a.1.startByte ≤ b.1.startByte)).filterMap
      fun e => if e.2 = name then some e.1 else none).Pairwise
        fun a b => a.startByte ≤ b.startByte := by
  have hsorted : (found.mergeSort fun a b => decide (a.1.startByte ≤ b.1.startByte)).Pairwise
      fun a b => decide (a.1.startByte ≤ b.1.startByte) = true := by
    apply List.pairwise_mergeSort
    · intro a b c hab hbc
      rw [decide_eq_true_iff] at hab hbc ⊢
      exact Nat.le_trans hab hbc
    · intro a b
      rw [Bool.or_eq_true, decide_eq_true_iff, decide_eq_true_iff]
      exact Nat.le_total _ _
  rw [List.pairwise_filterMap]
  refine hsorted.imp fun {a b} hab n hn m hm => ?_
  split at hn
  · split at hm
    · cases hn
      cases hm
      exact of_decide_eq_true hab
    · cases hm
  · cases hn

/-- A document yields the sources of the nodes that were captured, in the order of their bytes. -/
lemma exists_yields_extract (doc : SourceDocument)
    (hquery : parser.compile (Grammar.ofExtension doc.ext) importQuery = .ok query)
    (h : ∀ n ∈ capturedAs "source" (parser.captures query doc.tree), ∃ r, doc.sourceOf n = .ok r) :
    ∃ nodes : List SyntaxNode, nodes.Perm (capturedAs "source" (parser.captures query doc.tree)) ∧
      nodes.Pairwise (fun a b => a.startByte ≤ b.startByte) ∧
      Yields (doc.extract parser) (nodes.filterMap doc.source?) := by
  let found := (parser.captures query doc.tree).flatMap capturedNodes
  let sorted := found.mergeSort fun a b => decide (a.1.startByte ≤ b.1.startByte)
  let nodes := sorted.filterMap fun e => if e.2 = "source" then some e.1 else none
  have hperm : nodes.Perm (capturedAs "source" (parser.captures query doc.tree)) := by
    rw [← filterMap_capturedNodes]
    exact (List.mergeSort_perm found _).filterMap _
  refine ⟨nodes, hperm, pairwise_filterMap_mergeSort "source" found, ?_⟩
  have hsources : doc.sourcesOf sorted = .ok (nodes.filterMap doc.source?) :=
    sourcesOf_eq sorted fun n hn => h n (hperm.mem_iff.mp hn)
  have hfound : Yields (doc.query parser "import_sources") sorted :=
    (yields_compile get?_queries hquery).bind (Scan.yields_pure _)
  -- a syntax error is only noted in the log
  unfold extract
  split
  · apply Scan.Yields.bind (Scan.yields_lift rfl)
    apply Scan.Yields.bind hfound
    exact Scan.yields_lift hsources
  · apply Scan.Yields.bind hfound
    exact Scan.yields_lift hsources

end SourceDocument

end EntryLint
