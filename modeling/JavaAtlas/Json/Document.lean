import JavaAtlas.Text.Hex

/-!
# Documents

The JSON documents that are written: numbers, texts, lists and records whose fields keep their order. A
document has a compact form without blanks, and a laid out form in which every item of a list and every
field of a record has a line of its own, two blanks deeper than what holds it.
-/

namespace JavaAtlas.Json

open JavaAtlas.Text

/-- A document to be written. -/
inductive Document where
  | natural (value : Nat)
  | text (content : String)
  | list (items : List Document)
  | record (fields : List (String × Document))
deriving Inhabited

/-- A character inside the quotes of a text. Quotes, backslashes and control characters are escaped; a
control character with a letter of its own uses it. -/
def escapeChar (c : Char) : List Char :=
  if c == '"' then ['\\', '"']
  else if c == '\\' then ['\\', '\\']
  else if c == '\n' then ['\\', 'n']
  else if c == '\r' then ['\\', 'r']
  else if c == '\t' then ['\\', 't']
  else if c == '\x08' then ['\\', 'b']
  else if c == '\x0c' then ['\\', 'f']
  else if c.toNat < 0x20 then
    ['\\', 'u', '0', '0', hexDigit (c.toNat / 16), hexDigit (c.toNat % 16)]
  else [c]

def quoted (content : String) : List Char :=
  '"' :: content.toList.flatMap escapeChar ++ ['"']

/-- Some items with a separator between two of them. -/
def separated (separator : List Char) (items : List (List Char)) : List Char :=
  separator.intercalate items

namespace Document

mutual

def compactChars : Document → List Char
  | natural value => (toString value).toList
  | text content => quoted content
  | list items => '[' :: separated [','] (compactItems items) ++ [']']
  | record fields => '{' :: separated [','] (compactFields fields) ++ ['}']

def compactItems : List Document → List (List Char)
  | [] => []
  | item :: rest => compactChars item :: compactItems rest

def compactFields : List (String × Document) → List (List Char)
  | [] => []
  | (name, value) :: rest => (quoted name ++ ':' :: compactChars value) :: compactFields rest

end

/-- The start of a line at some depth. -/
def newLine (depth : Nat) : List Char :=
  '\n' :: List.replicate (2 * depth) ' '

/-- Some parts between two marks, each on a line of its own; marks without parts stay together. -/
def laidOut (depth : Nat) (opening closing : Char) (parts : List (List Char)) : List Char :=
  if parts.isEmpty then [opening, closing]
  else
    opening :: separated [','] (parts.map fun part => newLine (depth + 1) ++ part) ++
      newLine depth ++ [closing]

mutual

/-- The laid out form of a document that starts at some depth. -/
def prettyChars (depth : Nat) : Document → List Char
  | natural value => (toString value).toList
  | text content => quoted content
  | list items => laidOut depth '[' ']' (prettyItems (depth + 1) items)
  | record fields => laidOut depth '{' '}' (prettyFields (depth + 1) fields)

def prettyItems (depth : Nat) : List Document → List (List Char)
  | [] => []
  | item :: rest => prettyChars depth item :: prettyItems depth rest

def prettyFields (depth : Nat) : List (String × Document) → List (List Char)
  | [] => []
  | (name, value) :: rest =>
    (quoted name ++ ':' :: ' ' :: prettyChars depth value) :: prettyFields depth rest

end

def compact (document : Document) : String :=
  String.ofList document.compactChars

def pretty (document : Document) : String :=
  String.ofList (document.prettyChars 0)

end Document

end JavaAtlas.Json
