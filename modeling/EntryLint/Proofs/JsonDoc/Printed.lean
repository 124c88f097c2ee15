import EntryLint.Proofs.JsonDoc.Grammar

/-!
# Printed documents

A document is printed as one of its spellings (`WellFormed.spells_chars`), whatever characters its
strings are made of. With the grammar's own result, the text of a document is read back as that
document and as no other (`WellFormed.isText_render_iff`).
-/

namespace EntryLint.JsonDoc

/-- The numbers of a document are numbers of the grammar. Nothing is asked of its strings. -/
inductive WellFormed : JsonDoc → Prop
  | null : WellFormed .null
  | bool (b : Bool) : WellFormed (.bool b)
  | number {literal : String} (h : NumberText literal.toList) : WellFormed (.number literal)
  | string (s : String) : WellFormed (.string s)
  | array {items : List JsonDoc} (h : ∀ d ∈ items, WellFormed d) : WellFormed (.array items)
  | object {members : List (String × JsonDoc)} (h : ∀ m ∈ members, WellFormed m.2) :
      WellFormed (.object members)

/-! ## Strings -/

/-- Control characters are escaped by four digits that give their codes. -/
lemma codeText_hexDigits {n : Nat} (h : n < 0x20) : CodeText (Text.hexDigits 4 n) n := by
  have hall : ∀ m : Fin 0x20, (Text.hexDigits 4 m).length = 4 ∧
      hexNumber? (Text.hexDigits 4 m) = some m.val := by decide
  exact hall ⟨n, h⟩

lemma charText_escapeChar (c : Char) : CharText (escapeChar c) c := by
  have hshort : ∀ letter, (letter, c) ∈ shortEscapes → CharText ['\\', letter] c :=
    fun letter h => .short h
  unfold escapeChar
  split_ifs with hquote hslash hn hr ht hb hf hcontrol
  · exact hshort _ (by simp [hquote, shortEscapes])
  · exact hshort _ (by simp [hslash, shortEscapes])
  · exact hshort _ (by simp [hn, shortEscapes])
  · exact hshort _ (by simp [hr, shortEscapes])
  · exact hshort _ (by simp [ht, shortEscapes])
  · have hc : c = '\x08' := Char.toNat_inj.mp hb
    exact hshort _ (by simp [hc, shortEscapes])
  · have hc : c = '\x0c' := Char.toNat_inj.mp hf
    exact hshort _ (by simp [hc, shortEscapes])
  · exact .code (codeText_hexDigits hcontrol)
  · exact .plain (Nat.le_of_not_lt hcontrol) hquote hslash

lemma bodyText_flatMap_escapeChar (cs : List Char) : BodyText (cs.flatMap escapeChar) cs := by
  induction cs with
  | nil => exact .nil
  | cons c cs ih =>
    rw [List.flatMap_cons]
    exact .cons (charText_escapeChar c) ih

lemma stringText_quote (s : String) : StringText (quote s) s :=
  ⟨_, bodyText_flatMap_escapeChar s.toList, rfl⟩

/-! ## Brackets -/

lemma blank_newline (level : Nat) : Blank (newline level) := by
  intro c hc
  rcases List.mem_cons.mp hc with rfl | hc
  · rfl
  · rw [List.eq_of_mem_replicate hc]
    rfl

/-- Separators that end in a line break are commas before pieces that start with one. -/
lemma append_flatMap_comma (line : List Char) (parts : List (List Char)) :
    line ++ parts.flatMap (· ++ ',' :: line) =
      (parts.map (line ++ ·)).flatMap (· ++ [',']) ++ line := by
  induction parts with
  | nil => simp
  | cons p parts ih =>
    rw [List.flatMap_cons, List.map_cons, List.flatMap_cons, List.append_assoc _ _ line, ← ih]
    simp

/-- Each part stands on a line of its own, and the last one before the line of the closing bracket.
-/
lemma enclose_concat (opening closing : Char) (level : Nat) (parts : List (List Char))
    (last : List Char) :
    enclose opening closing level (parts ++ [last]) =
      opening :: [','].intercalate
        (parts.map (newline (level + 1) ++ ·) ++ [newline (level + 1) ++ last ++ newline level]) ++
        [closing] := by
  have hne : ∃ p ps, parts ++ [last] = p :: ps := List.exists_cons_of_ne_nil (by simp)
  obtain ⟨p, ps, hparts⟩ := hne
  have henclose : enclose opening closing level (parts ++ [last]) =
      opening :: newline (level + 1) ++
        (',' :: newline (level + 1)).intercalate (parts ++ [last]) ++
        newline level ++ [closing] := by
    rw [hparts, enclose]
    exact List.cons_ne_nil p ps
  rw [henclose, Text.intercalate_concat, Text.intercalate_concat]
  have hshift := append_flatMap_comma (newline (level + 1)) parts
  simp only [List.cons_append, List.append_assoc, List.cons.injEq, true_and] at hshift ⊢
  rw [← List.append_assoc, hshift, List.append_assoc]

/-- Texts between brackets are pieces between brackets, if each text is a piece once it is put on a
line of its own. -/
lemma exists_body_enclose {α β : Type} (piece : β → List Char) (value : β → α) {Good : β → Prop}
    (text : α → List Char) {level : Nat} {xs : List α} (place : List Char → α → β)
    (hpiece : ∀ after x, piece (place after x) = newline (level + 1) ++ text x ++ after)
    (hvalue : ∀ after x, value (place after x) = x)
    (hgood : ∀ after, Blank after → ∀ x ∈ xs, Good (place after x)) (opening closing : Char) :
    ∃ ys body, Body piece Good ys body ∧ ys.map value = xs ∧
      enclose opening closing level (xs.map text) = opening :: body ++ [closing] := by
  rcases List.eq_nil_or_concat xs with rfl | ⟨init, last, rfl⟩
  · exact ⟨[], [], .blank (fun c hc => absurd hc List.not_mem_nil), rfl, rfl⟩
  · have hnil : Blank [] := fun c hc => absurd hc List.not_mem_nil
    refine ⟨init.map (place []) ++ [place (newline level) last], _, .pieces (by simp) ?_, ?_, ?_⟩
    · intro y hy
      rcases List.mem_append.mp hy with hy | hy
      · obtain ⟨x, hx, rfl⟩ := List.mem_map.mp hy
        exact hgood [] hnil x (by simp [hx])
      · rw [List.mem_singleton.mp hy]
        exact hgood _ (blank_newline level) last (by simp)
    · simp [hvalue, Function.comp_def]
    · rw [List.concat_eq_append, List.map_append, List.map_singleton, enclose_concat]
      simp [hpiece, Function.comp_def]

/-! ## Documents -/

lemma itemChars_eq_map (level : Nat) (items : List JsonDoc) :
    itemChars level items = items.map (chars level) := by
  induction items with
  | nil => simp [itemChars]
  | cons x xs ih => simp [itemChars, ih]

/-- A key, a colon and a value. -/
def memberText (level : Nat) (m : String × JsonDoc) : List Char :=
  quote m.1 ++ ':' :: ' ' :: chars level m.2

lemma memberChars_eq_map (level : Nat) (members : List (String × JsonDoc)) :
    memberChars level members = members.map (memberText level) := by
  induction members with
  | nil => simp [memberChars]
  | cons m ms ih => simp [memberChars, memberText, ih]

/-- An item on a line of its own. -/
def Element.onLine (level : Nat) (after : List Char) (d : JsonDoc) : Element :=
  ⟨newline level, JsonDoc.chars level d, d, after⟩

/-- A member on a line of its own. -/
def Member.onLine (level : Nat) (after : List Char) (m : String × JsonDoc) : Member :=
  ⟨newline level, quote m.1, m.1, [], ⟨[' '], JsonDoc.chars level m.2, m.2, after⟩⟩

lemma Element.chars_onLine (level : Nat) (after : List Char) (d : JsonDoc) :
    (onLine level after d).chars = newline level ++ JsonDoc.chars level d ++ after :=
  rfl

lemma Member.chars_onLine (level : Nat) (after : List Char) (m : String × JsonDoc) :
    (onLine level after m).chars = newline level ++ memberText level m ++ after := by
  simp [Member.chars, Element.chars, onLine, memberText]

lemma Element.spelled_onLine {level : Nat} {after : List Char} {d : JsonDoc} (hafter : Blank after)
    (h : Spells (JsonDoc.chars level d) d) : (onLine level after d).Spelled :=
  ⟨h, blank_newline level, hafter⟩

lemma Member.spelled_onLine {level : Nat} {after : List Char} {m : String × JsonDoc}
    (hafter : Blank after) (h : Spells (JsonDoc.chars level m.2) m.2) :
    (onLine level after m).Spelled where
  left := h
  right :=
    { before := blank_newline level
      key := stringText_quote m.1
      after := by simp [Blank, onLine]
      value := ⟨by simp [Blank, isBlank, onLine], hafter⟩ }

/-- A document is printed as one of its spellings, at every level. -/
lemma WellFormed.spells_chars {d : JsonDoc} (h : WellFormed d) (level : Nat) :
    Spells (chars level d) d := by
  induction h generalizing level with
  | null =>
    rw [chars]
    exact .null
  | bool b =>
    cases b with
    | false =>
      rw [chars]
      exact .no
    | true =>
      rw [chars]
      exact .yes
  | @number literal h =>
    rw [chars]
    simpa using Spells.number h
  | string s =>
    rw [chars]
    exact .string (stringText_quote s)
  | @array items _ ih =>
    obtain ⟨elements, body, hbody, hdocs, hchars⟩ := exists_body_enclose Element.chars Element.doc
      (chars (level + 1)) (Element.onLine (level + 1)) (Element.chars_onLine _) (fun _ _ => rfl)
      (fun _ hafter d hd => Element.spelled_onLine hafter (ih d hd (level + 1))) '[' ']'
    rw [chars, itemChars_eq_map, hchars, ← hdocs]
    exact hbody.spells_array
  | @object members _ ih =>
    obtain ⟨pieces, body, hbody, hentries, hchars⟩ := exists_body_enclose Member.chars Member.entry
      (memberText (level + 1)) (Member.onLine (level + 1)) (Member.chars_onLine _) (fun _ _ => rfl)
      (fun _ hafter m hm => Member.spelled_onLine hafter (ih m hm (level + 1))) '\x7b' '\x7d'
    rw [chars, memberChars_eq_map, hchars, ← hentries]
    exact hbody.spells_object

/-- The text of a document is read as that document and as no other. -/
lemma WellFormed.isText_render_iff {d : JsonDoc} (h : WellFormed d) (d' : JsonDoc) :
    IsText d.render d' ↔ d' = d := by
  have htext : IsText d.render d :=
    ⟨[], chars 0 d, ['\n'], by simp [Blank], by simp [Blank, isBlank],
      h.spells_chars 0, by simp [render]⟩
  constructor
  · intro h'
    exact h'.unique htext
  · rintro rfl
    exact htext

end EntryLint.JsonDoc
