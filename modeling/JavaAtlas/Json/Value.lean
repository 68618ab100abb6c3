import JavaAtlas.Json.Document

/-!
# Values

The JSON values that are read. All of JSON is read, yet only what can matter later is kept: of numbers those
written as plain naturals, of texts those whose escapes spell characters. A text with half of a surrogate
pair is a value without content, which stands anywhere nothing looks at it. An object keeps all its
fields, repeated ones too, so that a reader can refuse them.
-/

namespace JavaAtlas.Json

open JavaAtlas.Text

inductive Value where
  | null
  | bool (value : Bool)
  | natural (value : Nat)
  | otherNumber
  | text (content : String)
  | brokenText
  | array (items : List Value)
  | object (fields : List (Option String × Value))
deriving Inhabited

namespace Value

/-! ## Texts -/

/-- A part of a text between quotes: a character, or half of a surrogate pair. -/
inductive Piece where
  | char (c : Char)
  | half (unit : Nat)
deriving DecidableEq, Repr

/-- The piece that an escape with a code unit spells. -/
def unitPiece (unit : Nat) : Piece :=
  if 0xd800 ≤ unit && unit < 0xe000 then .half unit else .char (Char.ofNat unit)

def unit? (a b c d : Char) : Option Nat := do
  return (((← hexValue? a) * 16 + (← hexValue? b)) * 16 + (← hexValue? c)) * 16 + (← hexValue? d)

/-- The character that a letter after a backslash stands for. -/
def simpleEscape? (c : Char) : Option Char :=
  [('"', '"'), ('\\', '\\'), ('/', '/'), ('b', '\x08'), ('f', '\x0c'), ('n', '\n'), ('r', '\r'),
    ('t', '\t')].lookup c

/-- The pieces of a text up to its closing quote, and what follows the quote. -/
def pieces? : List Char → Option (List Piece × List Char)
  | '"' :: rest => some ([], rest)
  | '\\' :: 'u' :: a :: b :: c :: d :: rest =>
    match unit? a b c d, pieces? rest with
    | some unit, some (pieces, rest) => some (unitPiece unit :: pieces, rest)
    | _, _ => none
  | '\\' :: c :: rest =>
    match simpleEscape? c, pieces? rest with
    | some spelled, some (pieces, rest) => some (.char spelled :: pieces, rest)
    | _, _ => none
  | c :: rest =>
    if c == '\\' || c.toNat < 0x20 then none
    else
      match pieces? rest with
      | some (pieces, rest) => some (.char c :: pieces, rest)
      | none => none
  | [] => none

/-- The characters that some pieces spell; none if half of a pair stands alone. -/
def assemble? : List Piece → Option (List Char)
  | [] => some []
  | .char c :: rest => (assemble? rest).map (c :: ·)
  | .half high :: .half low :: rest =>
    if high < 0xdc00 && 0xdc00 ≤ low then
      (assemble? rest).map (Char.ofNat (0x10000 + (high - 0xd800) * 0x400 + (low - 0xdc00)) :: ·)
    else none
  | .half _ :: _ => none

/-- The content of a text after its opening quote, if it spells characters, and what follows the text. -/
def content? (source : List Char) : Option (Option String × List Char) :=
  (pieces? source).map fun found => ((assemble? found.1).map String.ofList, found.2)

/-! ## Numbers -/

def isDigit (c : Char) : Bool :=
  '0' ≤ c && c ≤ '9'

def naturalOf (digits : List Char) : Nat :=
  digits.foldl (fun n c => n * 10 + (c.toNat - 48)) 0

/-- At least one digit, and what follows the digits. -/
def digits? (source : List Char) : Option (List Char × List Char) :=
  match source.takeWhile isDigit with
  | [] => none
  | digits => some (digits, source.dropWhile isDigit)

/-- The integer part of a number: a zero alone, or digits that start with another one. -/
def integer? : List Char → Option (List Char × List Char)
  | '0' :: rest => some (['0'], rest)
  | source => digits? source

/-- What follows the fraction of a number, if it has one, and whether it has. -/
def afterFraction? : List Char → Option (Bool × List Char)
  | '.' :: rest => (digits? rest).map fun found => (true, found.2)
  | source => some (false, source)

/-- What follows the exponent of a number, if it has one, and whether it has. -/
def afterExponent? : List Char → Option (Bool × List Char)
  | mark :: rest =>
    if mark == 'e' || mark == 'E' then
      let unsigned := match rest with
        | '+' :: digits => digits
        | '-' :: digits => digits
        | digits => digits
      (digits? unsigned).map fun found => (true, found.2)
    else some (false, mark :: rest)
  | [] => some (false, [])

def number? (source : List Char) : Option (Value × List Char) := do
  let negative := source.head? == some '-'
  let (digits, rest) ← integer? (if negative then source.drop 1 else source)
  let (hasFraction, rest) ← afterFraction? rest
  let (hasExponent, rest) ← afterExponent? rest
  if negative || hasFraction || hasExponent then return (.otherNumber, rest)
  else return (.natural (naturalOf digits), rest)

/-! ## Values -/

/-- Whether a character is blank between the parts of a value. -/
def isLayout (c : Char) : Bool :=
  c == ' ' || c == '\n' || c == '\r' || c == '\t'

/-- The rest of a source after a given word. -/
def afterWord? (word : List Char) (source : List Char) : Option (List Char) :=
  if word.isPrefixOf source then some (source.drop word.length) else none

mutual

/-- A value after any layout, and what follows it, within an allowance of nested steps. -/
def value? : Nat → List Char → Option (Value × List Char)
  | 0, _ => none
  | steps + 1, source =>
    match source.dropWhile isLayout with
    | '"' :: rest =>
      (content? rest).map fun found =>
        (match found.1 with | some content => .text content | none => .brokenText, found.2)
    | '[' :: rest =>
      match rest.dropWhile isLayout with
      | ']' :: rest => some (.array [], rest)
      | _ => (items? steps rest).map fun found => (.array found.1, found.2)
    | '{' :: rest =>
      match rest.dropWhile isLayout with
      | '}' :: rest => some (.object [], rest)
      | _ => (fields? steps rest).map fun found => (.object found.1, found.2)
    | 'n' :: rest => (afterWord? ['u', 'l', 'l'] rest).map fun rest => (.null, rest)
    | 't' :: rest => (afterWord? ['r', 'u', 'e'] rest).map fun rest => (.bool true, rest)
    | 'f' :: rest => (afterWord? ['a', 'l', 's', 'e'] rest).map fun rest => (.bool false, rest)
    | source => number? source

/-- The items of an array up to its closing bracket, and what follows it. -/
def items? : Nat → List Char → Option (List Value × List Char)
  | 0, _ => none
  | steps + 1, source =>
    match value? steps source with
    | none => none
    | some (item, rest) =>
      match rest.dropWhile isLayout with
      | ']' :: rest => some ([item], rest)
      | ',' :: rest => (items? steps rest).map fun found => (item :: found.1, found.2)
      | _ => none

/-- The fields of an object up to its closing brace, and what follows it. -/
def fields? : Nat → List Char → Option (List (Option String × Value) × List Char)
  | 0, _ => none
  | steps + 1, source =>
    match source.dropWhile isLayout with
    | '"' :: rest =>
      match content? rest with
      | none => none
      | some (name, rest) =>
        match rest.dropWhile isLayout with
        | ':' :: rest =>
          match value? steps rest with
          | none => none
          | some (value, rest) =>
            match rest.dropWhile isLayout with
            | '}' :: rest => some ([(name, value)], rest)
            | ',' :: rest => (fields? steps rest).map fun found => ((name, value) :: found.1, found.2)
            | _ => none
        | _ => none
    | _ => none

end

/-- The value that a whole text spells; layout may stand around it. -/
def parse? (source : String) : Option Value :=
  let chars := source.toList
  match value? (2 * chars.length + 1) chars with
  | some (value, rest) => if rest.all isLayout then some value else none
  | none => none

mutual

/-- The value that a written document is read back as. -/
def ofDocument : Document → Value
  | .natural value => .natural value
  | .text content => .text content
  | .list items => .array (ofItems items)
  | .record fields => .object (ofFields fields)

def ofItems : List Document → List Value
  | [] => []
  | item :: rest => ofDocument item :: ofItems rest

def ofFields : List (String × Document) → List (Option String × Value)
  | [] => []
  | (name, value) :: rest => (some name, ofDocument value) :: ofFields rest

end

/-! ## Looking into values -/

def asText? : Value → Option String
  | text content => some content
  | _ => none

def asNatural? (bound : Nat) : Value → Option Nat
  | natural value => if value < bound then some value else none
  | _ => none

/-- The items of an array, each as `read` reads it. -/
def asList? {α : Type} (read : Value → Option α) : Value → Option (List α)
  | array items => items.mapM read
  | _ => none

/-- The value of the field with a given name; none if there is no such field or more than one. -/
def onlyField? (fields : List (Option String × Value)) (name : String) : Option Value :=
  match fields.filter fun entry => entry.1 == some name with
  | [entry] => some entry.2
  | _ => none

/-- The values of the fields of a record, in the order of their names. An object has each of them once, and
may have others; an array has exactly these values. -/
def asRecord? (names : List String) : Value → Option (List Value)
  | object fields =>
    if fields.all fun entry => entry.1.isSome then names.mapM (onlyField? fields) else none
  | array items => if items.length == names.length then some items else none
  | _ => none

/-- One of some names: a text, or an object whose only field has that name and nothing in it. -/
def asVariant? : Value → Option String
  | text content => some content
  | object [(some name, null)] => some name
  | _ => none

end Value

end JavaAtlas.Json
