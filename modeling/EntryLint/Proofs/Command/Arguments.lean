import EntryLint.Command.Arguments
import EntryLint.Proofs.Text.Segments

/-!
# Reading arguments

Whatever a value or an operand is, there are arguments that give it: a value is joined to its option
by an equals sign, and operands stand behind a double hyphen. `Spec.read_joined` says what is read
from such arguments, and `Spec.read_command` that a command and its arguments are passed on as they
are.
-/

namespace EntryLint.Command

/-- An option with the value it is given. -/
structure Given where
  option : OptionSpec
  value : String

namespace Given

/-- The option and its value in one argument. -/
def argument (g : Given) : String :=
  g.option.key ++ "=" ++ g.value

/-- The argument as it is read. -/
def item (g : Given) : Item :=
  .option (some g.option) g.option.key (some g.value) g.argument

/-- What is recorded. -/
def entry (g : Given) : String × String :=
  (g.option.key, g.value)

/-- A text that is recorded as it is, by an option that any other may stand beside. -/
structure Plain (g : Given) : Prop where
  kind : g.option.kind = .value .text
  excludes : g.option.excludes = []

lemma equals_mem_argument (g : Given) : '=' ∈ g.argument.toList := by
  simp [argument]

lemma argument_ne_separator (g : Given) : g.argument ≠ "--" := by
  intro h
  have hmem := g.equals_mem_argument
  rw [h] at hmem
  revert hmem
  decide

lemma startsWith_argument {start : String} {g : Given}
    (h : Text.startsWith start g.option.key = true) :
    Text.startsWith start g.argument = true := by
  obtain ⟨tail, htail⟩ := Text.startsWith_iff.mp h
  refine Text.startsWith_iff.mpr ⟨tail ++ "=" ++ g.value, ?_⟩
  rw [argument, htail]
  simp [String.append_assoc]

end Given

namespace Spec

variable {spec : Spec}

/-! ## Forms of arguments -/

/-- The names of options have no equals sign in them. -/
def NamesPlain (spec : Spec) : Prop :=
  ∀ n ∈ spec.names, '=' ∉ n.1.toList

lemma mem_names_of_find? {s : String} {o : OptionSpec} (h : spec.find? s = some o) :
    (s, o) ∈ spec.names := by
  have hname : s ∈ o.names := by simpa using List.find?_some h
  have ho : o ∈ spec.options := List.mem_of_find?_eq_some h
  exact List.mem_flatMap.mpr ⟨o, ho, List.mem_map.mpr ⟨s, hname, rfl⟩⟩

lemma find?_eq_none_of_equals (hplain : spec.NamesPlain) {s : String} (hs : '=' ∈ s.toList) :
    spec.find? s = none := by
  cases h : spec.find? s with
  | none => rfl
  | some o => exact absurd hs (hplain _ (mem_names_of_find? h))

/-- The first equals sign separates a name from its value. -/
lemma cutEquals?_append {name : String} (h : '=' ∉ name.toList) (value : String) :
    cutEquals? (name ++ "=" ++ value) = some (name, value) := by
  have hne : ∀ c ∈ name.toList, decide (c ≠ '=') = true := by
    intro c hc
    simp only [decide_eq_true_eq]
    rintro rfl
    exact h hc
  have htext : (name ++ "=" ++ value).toList = name.toList ++ '=' :: value.toList := by simp
  rw [cutEquals?, htext, List.dropWhile_append_of_pos hne, List.takeWhile_append_of_pos hne]
  simp

lemma text_item {s : String} {i : Item} (h : spec.item s = .ok i) : i.text = s := by
  unfold item at h
  repeat' split at h
  all_goals cases h
  all_goals rfl

/-- An argument is one item, whatever its form is. -/
lemma map_text_items {args : List String} {is : List Item} (h : spec.items args = .ok is) :
    is.map Item.text = args := by
  induction args generalizing is with
  | nil =>
    obtain rfl := Except.ok.inj h
    rfl
  | cons s args ih =>
    rw [items] at h
    by_cases hs : s = "--"
    · rw [if_pos hs] at h
      obtain rfl := Except.ok.inj h
      simp [hs, Item.text, Function.comp_def]
    · rw [if_neg hs] at h
      cases hitem : spec.item s with
      | error e =>
        rw [hitem] at h
        cases h
      | ok i =>
        cases hrest : spec.items args with
        | error e =>
          rw [hitem, hrest] at h
          cases h
        | ok js =>
          rw [hitem, hrest] at h
          obtain rfl := Except.ok.inj h
          rw [List.map_cons, text_item hitem, ih hrest]

/-- A value that is joined to the name of an option is its value. -/
lemma item_argument (hplain : spec.NamesPlain) {g : Given}
    (hfind : spec.find? g.option.key = some g.option)
    (hhyphen : Text.startsWith "-" g.option.key = true) : spec.item g.argument = .ok g.item := by
  have hname : '=' ∉ g.option.key.toList := hplain _ (mem_names_of_find? hfind)
  have hlength : g.argument.length ≠ 1 := by
    obtain ⟨tail, htail⟩ := Text.startsWith_iff.mp hhyphen
    simp only [Given.argument, htail, String.length_append]
    have hone : "-".length = 1 := rfl
    have hone' : "=".length = 1 := rfl
    omega
  have hcut : cutEquals? g.argument = some (g.option.key, g.value) :=
    cutEquals?_append hname g.value
  rw [item, Given.startsWith_argument hhyphen, find?_eq_none_of_equals hplain g.equals_mem_argument,
    hcut]
  simp only [Bool.not_true, Bool.false_eq_true, if_false, if_neg hlength, Option.bind_some, hfind,
    Option.map_some]
  rfl

/-- An argument that no option can be meant by is not refused yet. -/
lemma exists_item {s : String} (h : spec.candidates s = []) : ∃ i, spec.item s = .ok i := by
  unfold item
  rw [h]
  repeat' split
  all_goals exact ⟨_, rfl⟩

/-- A value joined to a name that starts the name of no option. -/
lemma exists_item_argument {g : Given} (hname : '=' ∉ g.option.key.toList)
    (hhyphens : Text.startsWith "--" g.option.key = true)
    (hnone : ∀ n ∈ spec.names, Text.startsWith g.option.key n.1 = false) :
    ∃ i, spec.item g.argument = .ok i := by
  apply exists_item
  have hstart := Given.startsWith_argument hhyphens
  rw [candidates, if_pos hstart, Given.argument, cutEquals?_append hname, List.filterMap_eq_nil_iff]
  intro n hn
  simp [hnone n hn]

lemma items_arguments {gs : List Given} {rest : List String} {is : List Item}
    (hitem : ∀ g ∈ gs, spec.item g.argument = .ok g.item) (hrest : spec.items rest = .ok is) :
    spec.items (gs.map Given.argument ++ rest) = .ok (gs.map Given.item ++ is) := by
  induction gs with
  | nil => exact hrest
  | cons g gs ih =>
    rw [List.forall_mem_cons] at hitem
    rw [List.map_cons, List.cons_append, items, if_neg g.argument_ne_separator, hitem.1,
      ih hitem.2]
    rfl

lemma exists_items {args rest : List String} (hitem : ∀ s ∈ args, ∃ i, spec.item s = .ok i) :
    ∃ is, spec.items (args ++ "--" :: rest) = .ok is := by
  induction args with
  | nil => exact ⟨_, by rw [List.nil_append, items, if_pos rfl]⟩
  | cons s args ih =>
    rw [List.forall_mem_cons] at hitem
    obtain ⟨i, hi⟩ := hitem.1
    obtain ⟨is, his⟩ := ih hitem.2
    rw [List.cons_append, items]
    by_cases hs : s = "--"
    · exact ⟨_, if_pos hs⟩
    · rw [if_neg hs, hi, his]
      exact ⟨_, rfl⟩

/-! ## Reading items -/

lemma readItems_argument {g : Given} (h : g.Plain) (fuel : Nat) (r : Reading) (rest : List Item) :
    readItems spec (fuel + 1) r (g.item :: rest) =
      readItems spec fuel { r with options := g.entry :: r.options } rest := by
  have htake : takeOption spec r g.option g.value =
      .ok { r with options := g.entry :: r.options } := by
    simp only [takeOption, h.kind, h.excludes, checkValue,
      List.find?_nil, Given.entry]
    rfl
  have hvalue : g.option.takesValue = true := by
    simp only [OptionSpec.takesValue, h.kind]
  have hread : readOption spec r (some g.option) g.option.key (some g.value) g.argument rest =
      .ok ({ r with options := g.entry :: r.options }, rest) := by
    simp only [readOption, hvalue, if_true, htake]
    rfl
  rw [Given.item, readItems, hread]
  rfl

/-- Values are recorded one after the other, the last one first. -/
lemma readItems_arguments {gs : List Given} (h : ∀ g ∈ gs, g.Plain) (fuel : Nat) (r : Reading)
    (rest : List Item) :
    readItems spec (gs.length + fuel) r (gs.map Given.item ++ rest) =
      readItems spec fuel { r with options := (gs.map Given.entry).reverse ++ r.options } rest := by
  induction gs generalizing r with
  | nil => rw [List.length_nil, Nat.zero_add]; rfl
  | cons g gs ih =>
    rw [List.forall_mem_cons] at h
    rw [List.length_cons, Nat.add_right_comm, List.map_cons, List.cons_append,
      readItems_argument h.1, ih h.2]
    simp

/-- Where no option follows, operands are read once and the rest is unknown. -/
lemma readItems_operands {items rest : List Item} {r r' : Reading}
    (hoption : items.any Item.isOption = false) (hread : readOperands spec r items = .ok (r', rest))
    (fuel : Nat) :
    readItems spec (fuel + 1) r items =
      .ok { r' with unknown := r'.unknown ++ rest.map Item.text } := by
  have hhead : ∀ o name joined text tail, items = .option o name joined text :: tail → False := by
    rintro o name joined text tail rfl
    simp [Item.isOption] at hoption
  rw [readItems, hread]
  · simp only [hoption]
    rfl
  · exact hhead

/-- Behind a double hyphen everything is an operand, also another double hyphen. -/
lemma readItems_separator (harity : spec.arity = .atLeastOne) {operands : List String}
    (hne : operands ≠ []) {r : Reading} (hr : r.operands = none) (fuel : Nat) :
    readItems spec (fuel + 1) r (.separator :: operands.map Item.operand) =
      .ok { r with operands := some operands } := by
  have hoption : (Item.separator :: operands.map Item.operand).any Item.isOption = false := by
    simp [Item.isOption]
  have hrun : (Item.separator :: operands.map Item.operand).takeWhile (fun i => !i.isOption) =
      .separator :: operands.map Item.operand := by
    rw [← List.append_nil (Item.separator :: _), List.takeWhile_append_of_pos]
    · simp
    · simpa using hoption
  have hcount : operandCount? .atLeastOne (.separator :: operands.map Item.operand) =
      some (operands.length + 1) := by
    obtain ⟨first, others, rfl⟩ := List.exists_cons_of_ne_nil hne
    simp only [operandCount?, hrun]
    simp
  have htexts : (Item.separator :: operands.map Item.operand).map Item.text = "--" :: operands := by
    simp [Item.text, Function.comp_def]
  have hread : readOperands spec r (.separator :: operands.map Item.operand) =
      .ok ({ r with operands := some operands }, []) := by
    have hlength : (Item.separator :: operands.map Item.operand).length =
      operands.length + 1 := by simp
    simp only [readOperands, hr, harity, hcount, takeOperands, ← hlength, List.take_length,
      List.drop_length, htexts, List.erase_cons_head]
    rfl
  rw [readItems_operands hoption hread]
  simp

lemma readItems_nil (fuel : Nat) {r : Reading} (hr : r.operands.isSome = true) :
    readItems spec fuel r [] = .ok r := by
  cases fuel with
  | zero => rfl
  | succ fuel =>
    have hread : readOperands spec r [] = .ok (r, []) := by
      rw [readOperands, if_pos hr]
    rw [readItems_operands rfl hread]
    simp

/-! ## All arguments -/

lemma read_eq_ok {args : List String} {is : List Item} {r : Reading}
    (hitems : spec.items args = .ok is) (hread : readItems spec (is.length + 1) {} is = .ok r)
    (hr : r.operands.isSome = true) :
    spec.read args = .ok r := by
  obtain ⟨operands, hoperands⟩ := Option.isSome_iff_exists.mp hr
  simp only [Spec.read, hitems, bind, Except.bind, hread, hoperands]
  rfl

/-- Values that are joined to their options, and operands behind a double hyphen, are read as they
are. -/
lemma read_joined (hplain : spec.NamesPlain) (harity : spec.arity = .atLeastOne) {gs : List Given}
    (hgs : ∀ g ∈ gs, g.Plain ∧ spec.find? g.option.key = some g.option ∧
      Text.startsWith "-" g.option.key = true) {operands : List String} (hne : operands ≠ []) :
    spec.read (gs.map Given.argument ++ "--" :: operands) =
      .ok { options := (gs.map Given.entry).reverse, operands := some operands } := by
  have hitems : spec.items (gs.map Given.argument ++ "--" :: operands) =
      .ok (gs.map Given.item ++ .separator :: operands.map Item.operand) :=
    items_arguments (fun g hg => item_argument hplain (hgs g hg).2.1 (hgs g hg).2.2)
      (by rw [items, if_pos rfl])
  have hfuel : (gs.map Given.item ++ .separator :: operands.map Item.operand).length + 1 =
      gs.length + (operands.length + 1 + 1) := by
    simp [Nat.add_assoc]
  refine read_eq_ok hitems ?_ rfl
  rw [hfuel, readItems_arguments fun g hg => (hgs g hg).1, readItems_separator harity hne rfl,
    List.append_nil]

/-- A command is passed on with all its arguments, whatever they are. -/
lemma read_command {allowed : List String} (harity : spec.arity = .command allowed) {name : String}
    (hname : allowed.contains name = true) (hhyphen : Text.startsWith "-" name = false)
    {args : List String} {is : List Item} (hargs : spec.items args = .ok is) :
    spec.read (name :: args) = .ok { operands := some (name :: args) } := by
  have hne : name ≠ "--" := by
    rintro rfl
    cases hhyphen
  have hitem : spec.item name = .ok (.operand name) := by
    simp [item, hhyphen]
  have hitems : spec.items (name :: args) = .ok (.operand name :: is) := by
    rw [items, if_neg hne, hitem, hargs]
    rfl
  have htexts : (Item.operand name :: is).map Item.text = name :: args := by
    rw [List.map_cons, map_text_items hargs, Item.text]
  have hcount : operandCount? (.command allowed) (.operand name :: is) =
      some (Item.operand name :: is).length := by
    simp [operandCount?, Item.isOption]
  have hread : readOperands spec {} (.operand name :: is) =
      .ok ({ operands := some (name :: args) }, []) := by
    simp only [readOperands, harity, hcount, takeOperands, List.take_length, List.drop_length,
      htexts, checkChoice, List.head?_cons, Option.getD_some, hname]
    rfl
  refine read_eq_ok hitems ?_ rfl
  by_cases hoption : (Item.operand name :: is).any Item.isOption = true
  · -- the options are part of what was passed on, and nothing is left
    simp only [readItems, hread, bind, Except.bind, hoption]
    exact readItems_nil _ rfl
  · rw [readItems_operands (by simpa using hoption) hread]
    rfl

end Spec

end EntryLint.Command
