/-!
# Ordered maps from names

Rules, presets and verdicts are kept under names, in the order in which the names first appeared:
setting a known name changes its value and not its place.
-/

namespace EntryLint

/-- A map from names, in order of first appearance. -/
abbrev NameMap (α : Type) := List (String × α)

namespace NameMap

variable {α : Type}

/-- The value under a name. -/
def get? (m : NameMap α) (name : String) : Option α :=
  match m with
  | [] => none
  | (n, a) :: rest => if n = name then some a else get? rest name

/-- Sets the value under a name: a known name keeps its place, a new one comes last. -/
def put (m : NameMap α) (name : String) (a : α) : NameMap α :=
  match m with
  | [] => [(name, a)]
  | (n, b) :: rest => if n = name then (n, a) :: rest else (n, b) :: put rest name a

/-- Sets every name of the second map to its value there. -/
def update (m : NameMap α) (entries : NameMap α) : NameMap α :=
  entries.foldl (fun m (name, a) => put m name a) m

/-- The map with the given entries. -/
def ofEntries (entries : List (String × α)) : NameMap α :=
  update [] entries

/-- The names of a map, in order. -/
def names (m : NameMap α) : List String :=
  m.map Prod.fst

@[simp] theorem get?_nil (name : String) : get? ([] : NameMap α) name = none := rfl

theorem get?_put (m : NameMap α) (name other : String) (a : α) :
    get? (put m name a) other = if name = other then some a else get? m other := by
  induction m with
  | nil => simp [put, get?]
  | cons e rest ih =>
    obtain ⟨n, b⟩ := e
    by_cases h : n = name
    · subst h
      by_cases h' : n = other <;> simp [put, get?, h']
    · by_cases h' : n = other
      · subst h'
        simp [put, get?, h, Ne.symm h]
      · simp [put, get?, h, h', ih]

end NameMap

/-- Names in increasing order of their characters. -/
def sortNames (names : List String) : List String :=
  names.mergeSort fun a b => !decide (b < a)

end EntryLint
