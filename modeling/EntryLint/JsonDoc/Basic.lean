import EntryLint.Text.Quoted
import EntryLint.Text.Segments

/-!
# JSON documents

The documents that reports are printed as, and their text: members and items on lines of their own,
two blanks of indentation per level, and only quotes, backslashes and control characters escaped.
-/

namespace EntryLint

/-- A JSON document. Numbers are kept as they are written. -/
inductive JsonDoc where
  | null
  | bool (b : Bool)
  | number (literal : String)
  | string (s : String)
  | array (items : List JsonDoc)
  | object (members : List (String × JsonDoc))
  deriving Repr

namespace JsonDoc

/-- An integer. -/
def int (n : Int) : JsonDoc :=
  number (toString n)

/-- A text, or nothing. -/
def text? : Option String → JsonDoc
  | some s => string s
  | none => null

/-- How a character stands in a string. -/
def escapeChar (c : Char) : List Char :=
  if c = '"' then ['\\', '"']
  else if c = '\\' then ['\\', '\\']
  else if c = '\n' then ['\\', 'n']
  else if c = '\r' then ['\\', 'r']
  else if c = '\t' then ['\\', 't']
  else if c.toNat = 8 then ['\\', 'b']
  else if c.toNat = 12 then ['\\', 'f']
  else if c.toNat < 0x20 then '\\' :: 'u' :: Text.hexDigits 4 c.toNat
  else [c]

/-- A string in quotation marks. -/
def quote (s : String) : List Char :=
  '"' :: s.toList.flatMap escapeChar ++ ['"']

/-- A line break and the indentation of a level. -/
def newline (level : Nat) : List Char :=
  '\n' :: List.replicate (2 * level) ' '

/-- The texts of items or members between brackets, one to a line. -/
def enclose (opening closing : Char) (level : Nat) (parts : List (List Char)) : List Char :=
  match parts with
  | [] => [opening, closing]
  | _ =>
    opening :: newline (level + 1) ++ (',' :: newline (level + 1)).intercalate parts ++
      newline level ++ [closing]

mutual

/-- The characters of a document at a level of indentation. -/
def chars : Nat → JsonDoc → List Char
  | _, null => "null".toList
  | _, bool b => if b then "true".toList else "false".toList
  | _, number literal => literal.toList
  | _, string s => quote s
  | level, array items => enclose '[' ']' level (itemChars (level + 1) items)
  | level, object members => enclose '\x7b' '\x7d' level (memberChars (level + 1) members)

/-- The characters of the items of an array. -/
def itemChars : Nat → List JsonDoc → List (List Char)
  | _, [] => []
  | level, x :: xs => chars level x :: itemChars level xs

/-- The characters of the members of an object. -/
def memberChars : Nat → List (String × JsonDoc) → List (List Char)
  | _, [] => []
  | level, (k, v) :: ms => (quote k ++ ':' :: ' ' :: chars level v) :: memberChars level ms

end

/-- The text of a document, closed by a line break. -/
def render (doc : JsonDoc) : String :=
  String.ofList (chars 0 doc ++ ['\n'])

end JsonDoc

end EntryLint
