import EntryLint.Proofs.Files.Tree

/-!
# Shapes of file trees

The shape of a tree is what is left when its files are emptied: its directories and all names.
Following a path commutes with taking the shape, and so two trees of the same shape have files and
directories at the same paths.

Writing to a file that is there keeps the shape (`shape_insert`) and the bytes of every other file
(`contents?_insert_of_ne`). Putting anything at a place keeps the files outside it
(`sameOutside_insert`).
-/

namespace EntryLint.FileTree

mutual

/-- A tree with its files emptied. -/
def shape : FileTree → FileTree
  | file _ => file []
  | dir entries => dir (shapeEntries entries)

/-- Entries with their files emptied. -/
def shapeEntries : List (String × FileTree) → List (String × FileTree)
  | [] => []
  | (name, t) :: rest => (name, shape t) :: shapeEntries rest

end

/-- The bytes of the file at the end of a way down, if there is one. -/
def contents? (t : FileTree) (names : List String) : Option (List UInt8) :=
  match t.descend names with
  | some (file bytes) => some bytes
  | _ => none

lemma contents?_eq_some_iff {t : FileTree} {names : List String} {bytes : List UInt8} :
    t.contents? names = some bytes ↔ t.descend names = some (file bytes) := by
  rw [contents?]
  split
  · rename_i hfile
    simp [hfile]
  · rename_i hno
    exact ⟨(nomatch ·), fun h => absurd h (hno bytes)⟩

/-! ## Taking the shape -/

@[simp]
lemma shape_file (bytes : List UInt8) : (file bytes).shape = file [] := by
  rw [shape]

@[simp]
lemma shape_dir (entries : List (String × FileTree)) :
    (dir entries).shape = dir (entries.map fun e => (e.1, e.2.shape)) := by
  have hmap : shapeEntries entries = entries.map fun e => (e.1, e.2.shape) := by
    induction entries with
    | nil => rfl
    | cons e entries ih => rw [shapeEntries, ih, List.map_cons]
  rw [shape, hmap]

lemma lookup?_map_shape (entries : List (String × FileTree)) (name : String) :
    lookup? (entries.map fun e => (e.1, e.2.shape)) name = (lookup? entries name).map shape := by
  rw [lookup?, lookup?, List.find?_map, Option.map_map, Option.map_map]
  rfl

lemma follow_shape (parts : List String) :
    ∀ (above : List FileTree) (here : FileTree),
      follow (above.map shape) here.shape parts = (follow above here parts).map shape := by
  induction parts with
  | nil => exact fun above here => rfl
  | cons part parts ih =>
    intro above here
    cases here with
    | file bytes => rw [shape_file, follow, follow]; rfl
    | dir entries =>
      have hdir := shape_dir entries
      rw [hdir, follow_dir_cons, follow_dir_cons, lookup?_map_shape, ← hdir]
      split
      · cases above with
        | nil => exact ih [] (dir entries)
        | cons up above => exact ih above up
      · cases lookup? entries part with
        | none => rfl
        | some next => exact ih (dir entries :: above) next

lemma find?_shape (tree : FileTree) (p : Path) : tree.shape.find? p = (tree.find? p).map shape :=
  follow_shape p.parts [] tree

lemma descend_shape (names : List String) :
    ∀ t : FileTree, t.shape.descend names = (t.descend names).map shape := by
  induction names with
  | nil => exact fun t => by simp [descend]
  | cons name names ih =>
    intro t
    cases t with
    | file bytes => rw [shape_file, descend, descend, Option.map_none]
    | dir entries =>
      rw [shape_dir, descend, descend, lookup?_map_shape]
      cases lookup? entries name with
      | none => rfl
      | some next => exact ih next

lemma wellFormed_shape_iff {t : FileTree} : t.shape.WellFormed ↔ t.WellFormed := by
  induction t using FileTree.induction with
  | file bytes => exact ⟨fun _ => .file bytes, fun _ => by rw [shape_file]; exact .file []⟩
  | dir entries ih =>
    have hnames : (entries.map fun e => (e.1, e.2.shape)).map Prod.fst = entries.map Prod.fst := by
      rw [List.map_map]
      rfl
    rw [shape_dir]
    constructor
    · intro h
      have hbelow := h.of_mem
      have hproper := h.names
      rw [List.forall_mem_map] at hbelow hproper
      exact .dir hproper (hnames ▸ h.distinct) fun e he => (ih e he).mp (hbelow e he)
    · intro h
      refine .dir ?_ (hnames ▸ h.distinct) ?_
      · rw [List.forall_mem_map]
        exact h.names
      · rw [List.forall_mem_map]
        exact fun e he => (ih e he).mpr (h.of_mem e he)

/-! ## Two trees of the same shape -/

section SameShape

variable {tree tree' : FileTree}

lemma WellFormed.of_shape (ht : tree.WellFormed) (h : tree.shape = tree'.shape) :
    tree'.WellFormed := by
  rwa [← wellFormed_shape_iff, ← h, wellFormed_shape_iff]

lemma eq_file_of_shape {bytes : List UInt8} (h : (file bytes).shape = tree'.shape) :
    ∃ bytes', tree' = file bytes' := by
  cases tree' with
  | file bytes' => exact ⟨bytes', rfl⟩
  | dir entries => simp at h

lemma eq_dir_of_shape {entries : List (String × FileTree)} (h : (dir entries).shape = tree'.shape) :
    ∃ entries', tree' = dir entries' := by
  cases tree' with
  | file bytes => simp at h
  | dir entries' => exact ⟨entries', rfl⟩

/-- The same path leads to nodes of the same shape. -/
lemma exists_find?_of_shape (h : tree.shape = tree'.shape) {p : Path} {node : FileTree}
    (hfind : tree.find? p = some node) :
    ∃ node', tree'.find? p = some node' ∧ node.shape = node'.shape := by
  have hmap := find?_shape tree' p
  rw [← h, find?_shape, hfind] at hmap
  obtain ⟨node', hnode', hshape⟩ := Option.map_eq_some_iff.mp hmap.symm
  exact ⟨node', hnode', hshape.symm⟩

/-- The same way down leads to nodes of the same shape. -/
lemma exists_descend_of_shape (h : tree.shape = tree'.shape) {names : List String} {node : FileTree}
    (hdescend : tree.descend names = some node) :
    ∃ node', tree'.descend names = some node' ∧ node.shape = node'.shape := by
  have hmap := descend_shape names tree'
  rw [← h, descend_shape, hdescend] at hmap
  obtain ⟨node', hnode', hshape⟩ := Option.map_eq_some_iff.mp hmap.symm
  exact ⟨node', hnode', hshape.symm⟩

end SameShape

/-! ## Writing to a file -/

/-- A name that is there keeps its place. -/
lemma putEntry_eq_map {entries : List (String × FileTree)} {name : String} {old : FileTree}
    (h : lookup? entries name = some old) (t : FileTree) :
    putEntry entries name t = entries.map fun e => if e.1 = name then (e.1, t) else e := by
  have hany : (entries.any fun e => decide (e.1 = name)) = true :=
    List.any_eq_true.mpr ⟨_, mem_of_lookup? h, decide_eq_true rfl⟩
  exact if_pos hany

/-- A new name comes last. -/
lemma putEntry_of_none {entries : List (String × FileTree)} {name : String}
    (h : lookup? entries name = none) (t : FileTree) :
    putEntry entries name t = entries ++ [(name, t)] := by
  rw [lookup?, Option.map_eq_none_iff, List.find?_eq_none] at h
  have hany : ¬ (entries.any fun e => decide (e.1 = name)) = true := by
    rw [List.any_eq_true]
    rintro ⟨e, he, hname⟩
    exact h e he hname
  exact if_neg hany

lemma lookup?_append (entries entries' : List (String × FileTree)) (name : String) :
    lookup? (entries ++ entries') name = (lookup? entries name).or (lookup? entries' name) := by
  rw [lookup?, lookup?, lookup?, List.find?_append, Option.map_or]

lemma lookup?_cons (e : String × FileTree) (entries : List (String × FileTree)) (name : String) :
    lookup? (e :: entries) name = if e.1 = name then some e.2 else lookup? entries name := by
  rw [lookup?, List.find?_cons]
  by_cases h : e.1 = name
  · simp [h]
  · simp [h, lookup?]

/-- Setting the entry of a name changes what is found under that name and no other. -/
lemma lookup?_putEntry (entries : List (String × FileTree)) (name : String) (t : FileTree)
    (n : String) :
    lookup? (putEntry entries name t) n = if n = name then some t else lookup? entries n := by
  cases hold : lookup? entries name with
  | none =>
    rw [putEntry_of_none hold, lookup?_append, lookup?_cons]
    by_cases hn : n = name
    · subst hn
      simp [hold]
    · simp [hn, Ne.symm hn, lookup?]
  | some old =>
    rw [putEntry_eq_map hold]
    -- below the entry that was found the list may have no such name
    suffices hmap : lookup? (entries.map fun e => if e.1 = name then (e.1, t) else e) n =
        if n = name then (lookup? entries n).map fun _ => t else lookup? entries n by
      rw [hmap]
      split
      · rename_i hn
        rw [hn, hold, Option.map_some]
      · rfl
    clear hold
    induction entries with
    | nil => split <;> rfl
    | cons e entries ih =>
      rw [List.map_cons, lookup?_cons, lookup?_cons, ih]
      by_cases he : e.1 = name
      · by_cases hn : n = name
        · simp [he, hn]
        · simp [he, hn, Ne.symm hn]
      · by_cases hn : n = name
        · subst hn
          simp [he]
        · simp [he, hn]

/-- Writing to a file that is there sets the entry on the way to it. -/
lemma insert_cons {entries : List (String × FileTree)} {name : String} {next : FileTree}
    (h : lookup? entries name = some next) (path : List String) (new : FileTree) :
    (dir entries).insert (name :: path) new =
      dir (putEntry entries name (next.insert path new)) := by
  rw [insert, h]
  rfl

lemma shape_insert {t : FileTree} (ht : t.WellFormed) {path : List String} {old : List UInt8}
    (h : t.descend path = some (.file old)) (bytes : List UInt8) :
    (t.insert path (.file bytes)).shape = t.shape := by
  induction path generalizing t with
  | nil =>
    obtain rfl : t = .file old := by simpa using h
    rw [insert, shape_file, shape_file]
  | cons name path ih =>
    obtain ⟨entries, next, rfl, hlookup, hnext⟩ := descend_cons_eq_some h
    have hmem := mem_of_lookup? hlookup
    rw [insert_cons hlookup, putEntry_eq_map hlookup, shape_dir, shape_dir, List.map_map]
    congr 1
    apply List.map_congr_left
    intro e he
    simp only [Function.comp_apply]
    split
    · rename_i hname
      -- names are distinct, so this is the entry that was looked up
      have heq : lookup? entries e.1 = some e.2 := lookup?_of_mem ht.distinct he
      rw [hname, hlookup, Option.some_inj] at heq
      rw [ih (ht.of_mem _ hmem) hnext, heq]
    · rfl

/-- Writing to a file changes no other file. -/
lemma contents?_insert_of_ne {t : FileTree} {path : List String} {old : List UInt8}
    (h : t.descend path = some (.file old)) (bytes : List UInt8) {names : List String}
    (hne : names ≠ path) :
    (t.insert path (.file bytes)).contents? names = t.contents? names := by
  induction path generalizing t names with
  | nil =>
    obtain rfl : t = .file old := by simpa using h
    obtain ⟨name, names, rfl⟩ := List.exists_cons_of_ne_nil hne
    rfl
  | cons name path ih =>
    obtain ⟨entries, next, rfl, hlookup, hnext⟩ := descend_cons_eq_some h
    rw [insert_cons hlookup]
    cases names with
    | nil => rfl
    | cons n names =>
      rw [contents?, contents?, descend, descend, lookup?_putEntry]
      by_cases hn : n = name
      · subst hn
        rw [if_pos rfl, hlookup]
        exact ih hnext fun heq => hne (by rw [heq])
      · rw [if_neg hn]

/-! ## Changing one place -/

/-- Two trees hold the same files, but for what stands at a place or below it. -/
def SameOutside (place : List String) (tree tree' : FileTree) : Prop :=
  ∀ names, ¬ place <+: names → tree.contents? names = tree'.contents? names

lemma contents?_empty (names : List String) : empty.contents? names = none := by
  cases names with
  | nil => rfl
  | cons name names => rfl

/-- Putting something at a place changes no file outside it, unless a file stands in the way. -/
lemma sameOutside_insert {t : FileTree} {place : List String}
    (h : ∀ k < place.length, t.contents? (place.take k) = none) (new : FileTree) :
    SameOutside place t (t.insert place new) := by
  induction place generalizing t with
  | nil => exact fun names hnot => absurd List.nil_prefix hnot
  | cons name place ih =>
    cases t with
    | file bytes => cases h 0 (by simp)
    | dir entries =>
      intro names hnot
      rw [insert]
      cases names with
      | nil => rfl
      | cons n names =>
        rw [contents?, contents?, descend, descend, lookup?_putEntry]
        by_cases hn : n = name
        · subst hn
          have hbelow : ¬ place <+: names := fun hstart =>
            hnot (List.cons_prefix_cons.mpr ⟨rfl, hstart⟩)
          rw [if_pos rfl]
          cases hlookup : lookup? entries n with
          | none =>
            -- the directories on the way are made, and hold nothing else
            have hnew := ih (t := empty) (fun k _ => contents?_empty _) names hbelow
            rw [contents?_empty] at hnew
            exact hnew
          | some next =>
            refine ih (t := next) (fun k hk => ?_) names hbelow
            have hclear := h (k + 1) (Nat.succ_lt_succ hk)
            rw [List.take_succ_cons, contents?, descend, hlookup] at hclear
            exact hclear
        · rw [if_neg hn]

end EntryLint.FileTree
