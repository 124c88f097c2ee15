/-!
# Splitting text at a separator

`pieces` cuts a list of characters at every occurrence of a separator and keeps empty pieces, so
that joining the pieces gives the text back. Paths, entry names and file systems all cut their
texts this way.
-/

namespace EntryLint.Text

/-- The maximal separator-free pieces of a list of characters, empty ones included. -/
def pieces (sep : Char) : List Char → List (List Char)
  | [] => [[]]
  | c :: cs =>
    if c = sep then [] :: pieces sep cs
    else
      match pieces sep cs with
      | [] => [[c]]
      | p :: ps => (c :: p) :: ps

/-- The pieces of a string between occurrences of a separator. -/
def split (sep : Char) (s : String) : List String :=
  (pieces sep s.toList).map String.ofList

/-- The strings of a list with a separator between neighbours. -/
def join (sep : String) (parts : List String) : String :=
  String.ofList (sep.toList.intercalate (parts.map String.toList))

/-- Whether a text starts with another. -/
def startsWith (start s : String) : Bool :=
  start.toList.isPrefixOf s.toList

/-- Whether a text ends with another. -/
def endsWith (ending s : String) : Bool :=
  ending.toList.isSuffixOf s.toList

/-- What follows a given start of a text, if the text starts so. -/
def after? (start s : String) : Option String :=
  if startsWith start s then some (String.ofList (s.toList.drop start.length)) else none

/-- A text without its first characters. -/
def dropFirst (n : Nat) (s : String) : String :=
  String.ofList (s.toList.drop n)

/-- A text without its last characters. -/
def dropLast (n : Nat) (s : String) : String :=
  String.ofList (s.toList.take (s.length - n))

/-- Whether a character occurs in a text. -/
def contains (c : Char) (s : String) : Bool :=
  s.toList.contains c

/-- A text without the trailing characters of a class. -/
def dropTrailing (p : Char → Bool) (s : String) : String :=
  String.ofList (s.toList.reverse.dropWhile p).reverse

theorem pieces_ne_nil (sep : Char) (cs : List Char) : pieces sep cs ≠ [] := by
  induction cs with
  | nil => simp [pieces]
  | cons c cs ih =>
    by_cases h : c = sep
    · simp [pieces, h]
    · simp only [pieces, if_neg h]
      split <;> simp

/-- Joining the pieces gives the text back. -/
theorem intercalate_pieces (sep : Char) (cs : List Char) :
    [sep].intercalate (pieces sep cs) = cs := by
  induction cs with
  | nil => rfl
  | cons c cs ih =>
    by_cases h : c = sep
    · subst h
      cases hp : pieces c cs with
      | nil => exact absurd hp (pieces_ne_nil c cs)
      | cons p ps => simpa [pieces, hp, List.intercalate, List.intersperse] using ih
    · cases hp : pieces sep cs with
      | nil => exact absurd hp (pieces_ne_nil sep cs)
      | cons p ps =>
        cases ps with
        | nil => simpa [pieces, h, hp, List.intercalate, List.intersperse] using ih
        | cons q qs => simpa [pieces, h, hp, List.intercalate, List.intersperse] using ih

end EntryLint.Text
