import JavaAtlas.Syntax.Token
import JavaAtlas.Text.Identifier

/-!
# From source text to tokens

The lexical rules of Java source. A gap is a run of ASCII blanks and comments; after it comes the longest
lexeme that opens the rest. Two departures from longest match serve type arguments: a `>` is always a
token of its own, and the operators made of several are put together by the grammar from touching
tokens. Words are not told apart here, since whether a word is a keyword depends on where it stands.

Lengths count the characters after the one that decides the kind of lexeme, so the scan always moves on.
-/

namespace JavaAtlas.Syntax

open JavaAtlas.Text

/-! ## Gaps -/

/-- Whether a character is blank between tokens: a space or one of the five controls from tab on. -/
def isGapBlank (c : Char) : Bool :=
  c == ' ' || (9 ≤ c.toNat && c.toNat ≤ 13)

/-- Where a walk through a gap stands: between comments, in a line comment, in a block comment. -/
inductive GapState where
  | outside
  | lineComment
  | blockComment
deriving DecidableEq, Repr

/-- The length of the gap that opens a text; none if a block comment in it is never closed. -/
def gapLength : GapState → List Char → Option Nat
  | .outside, '/' :: '/' :: rest => (gapLength .lineComment rest).map (· + 2)
  | .outside, '/' :: '*' :: rest => (gapLength .blockComment rest).map (· + 2)
  | .outside, c :: rest => if isGapBlank c then (gapLength .outside rest).map (· + 1) else some 0
  | .lineComment, '\n' :: rest => (gapLength .outside rest).map (· + 1)
  | .lineComment, _ :: rest => (gapLength .lineComment rest).map (· + 1)
  | .blockComment, '*' :: '/' :: rest => (gapLength .outside rest).map (· + 2)
  | .blockComment, _ :: rest => (gapLength .blockComment rest).map (· + 1)
  | .blockComment, [] => none
  | .outside, [] => some 0
  | .lineComment, [] => some 0

/-! ## Numerals -/

/-- The length of the longest run of digits that opens a text; inside it single low lines may stand
between digits. -/
def digitsTail (isDigit : Char → Bool) : List Char → Nat
  | '_' :: c :: rest => if isDigit c then digitsTail isDigit (c :: rest) + 1 else 0
  | c :: rest => if isDigit c then digitsTail isDigit rest + 1 else 0
  | [] => 0

/-- The length of the run of digits that opens a text, none if a digit does not come first. -/
def digits? (isDigit : Char → Bool) : List Char → Option Nat
  | c :: rest => if isDigit c then some (digitsTail isDigit (c :: rest)) else none
  | [] => none

/-- Like `digitsTail`, with any number of low lines between two digits. -/
def looseDigitsTail : List Char → Nat
  | [] => 0
  | c :: rest =>
    if isAsciiDigit c then looseDigitsTail rest + 1
    else if c == '_' then
      match looseDigitsTail rest with
      | 0 => 0
      | more => more + 1
    else 0

/-- The length of a decimal integer without sign: `0`, or digits of which the first is not zero. A second
low line directly after the first digit ends it. -/
def integer? : List Char → Option Nat
  | '0' :: _ => some 1
  | c :: '_' :: '_' :: _ => if isAsciiDigit c then some 1 else none
  | c :: rest => if isAsciiDigit c then some (looseDigitsTail rest + 1) else none
  | [] => none

/-- The length of one of the given characters at the head of a text, zero if there is none. -/
def oneOf (marks : List Char) : List Char → Nat
  | c :: _ => if marks.contains c then 1 else 0
  | [] => 0

/-- The length of an exponent: one of the marks, a sign or none, digits. -/
def exponent? (marks : List Char) (text : List Char) : Option Nat :=
  match oneOf marks text with
  | 0 => none
  | mark =>
    let sign := oneOf ['-', '+'] (text.drop mark)
    (digits? isAsciiDigit (text.drop (mark + sign))).map (· + mark + sign)

def isHexDigit (c : Char) : Bool :=
  isAsciiDigit c || ('a' ≤ c && c ≤ 'f') || ('A' ≤ c && c ≤ 'F')

/-- The length of an integer in base sixteen, eight or two, whose digits follow a mark. -/
def basedInteger? (marks : List (List Char)) (isDigit : Char → Bool) (text : List Char) :
    Option Nat :=
  match marks.find? (·.isPrefixOf text) with
  | none => none
  | some mark =>
    (digits? isDigit (text.drop mark.length)).map fun n =>
      mark.length + n + oneOf ['l', 'L'] (text.drop (mark.length + n))

/-- The length of a decimal fraction: digits, a point, digits or none; or a point and digits. -/
def pointed? (text : List Char) : Option Nat :=
  let whole := (digits? isAsciiDigit text).getD 0
  match text.drop whole with
  | '.' :: rest =>
    match digits? isAsciiDigit rest with
    | some n => some (whole + 1 + n)
    | none => if whole = 0 then none else some (whole + 1)
  | _ => none

/-- The length of a hexadecimal number with a point, an exponent, or both. -/
def hexFraction? (text : List Char) : Option Nat :=
  match [['0', 'x'], ['0', 'X']].find? (·.isPrefixOf text) with
  | none => none
  | some mark =>
    let whole := (digits? isHexDigit (text.drop mark.length)).getD 0
    let afterWhole := text.drop (mark.length + whole)
    let point := oneOf ['.'] afterWhole
    let fraction := if point = 0 then 0 else (digits? isHexDigit (afterWhole.drop 1)).getD 0
    if whole + fraction = 0 then none
    else
      let n := mark.length + whole + point + fraction
      match exponent? ['e', 'E', 'p', 'P'] (text.drop n) with
      | some e => some (n + e + oneOf ['f', 'F', 'd', 'D'] (text.drop (n + e)))
      | none => some n

/-- The lengths of the numerals of each form that open a text. -/
def numeralLengths (text : List Char) : List (Option Nat) :=
  let suffix := fun n => oneOf ['f', 'F', 'd', 'D'] (text.drop n)
  [ (integer? text).map fun n => n + oneOf ['l', 'L'] (text.drop n),
    basedInteger? [['0', 'x'], ['0', 'X']] isHexDigit text,
    basedInteger? [['0', 'o'], ['0', 'O'], ['0']] (fun c => '0' ≤ c && c ≤ '7') text,
    basedInteger? [['0', 'b'], ['0', 'B']] (fun c => c == '0' || c == '1') text,
    (pointed? text).map fun n =>
      let m := n + (exponent? ['e', 'E'] (text.drop n)).getD 0
      m + suffix m,
    (integer? text).bind fun n =>
      (exponent? ['e', 'E', 'p', 'P'] (text.drop n)).map fun e => n + e + suffix (n + e),
    (integer? text).map fun n => n + suffix n,
    hexFraction? text ]

/-- The length of the longest numeral that opens a text, zero if there is none. -/
def numeralLength (text : List Char) : Nat :=
  (numeralLengths text).foldl (fun longest n => max longest (n.getD 0)) 0

/-! ## Characters and texts -/

/-- The length of the rest of a character literal after its opening quote and `seen` characters of its
content, which may not be empty or hold a bare line feed. -/
def characterTail : Nat → List Char → Option Nat
  | seen, '\'' :: _ => if seen = 0 then none else some 1
  | _, '\n' :: _ => none
  | seen, '\\' :: _ :: rest => (characterTail (seen + 1) rest).map (· + 2)
  | _, '\\' :: [] => none
  | seen, _ :: rest => (characterTail (seen + 1) rest).map (· + 1)
  | _, [] => none

/-- How a piece of text inside quotes ends. -/
inductive TextEnd where
  | closed
  | embedding
deriving DecidableEq, Repr

/-- Whether the part of a braced code point escape after its opening brace is well formed. -/
def isBracedEscape (text : List Char) : Bool :=
  !(text.takeWhile isHexDigit).isEmpty && (text.dropWhile isHexDigit).head? == some '}'

/-- The length of a piece of a string, up to its closing quote or an embedded expression. An escape of the
forms `x` and `u` needs its digits; any other character may follow a backslash. -/
def stringTail : List Char → Option (Nat × TextEnd)
  | '"' :: _ => some (1, .closed)
  | '\\' :: '{' :: _ => some (2, .embedding)
  | '\\' :: 'x' :: a :: b :: rest =>
    if isHexDigit a && isHexDigit b then (stringTail rest).map fun r => (r.1 + 4, r.2) else none
  | '\\' :: 'u' :: '{' :: rest =>
    if isBracedEscape rest then (stringTail rest).map fun r => (r.1 + 3, r.2) else none
  | '\\' :: 'u' :: a :: b :: c :: d :: rest =>
    if isHexDigit a && isHexDigit b && isHexDigit c && isHexDigit d then
      (stringTail rest).map fun r => (r.1 + 6, r.2)
    else none
  | '\\' :: 'x' :: _ => none
  | '\\' :: 'u' :: _ => none
  | '\\' :: _ :: rest => (stringTail rest).map fun r => (r.1 + 2, r.2)
  | '\\' :: [] => none
  | _ :: rest => (stringTail rest).map fun r => (r.1 + 1, r.2)
  | [] => none

/-- The length of a piece of a text block, up to three closing quotes or an embedded expression. -/
def blockTail : List Char → Option (Nat × TextEnd)
  | '"' :: '"' :: '"' :: _ => some (3, .closed)
  | '\\' :: '{' :: _ => some (2, .embedding)
  | '\\' :: _ :: rest => (blockTail rest).map fun r => (r.1 + 2, r.2)
  | '\\' :: [] => none
  | _ :: rest => (blockTail rest).map fun r => (r.1 + 1, r.2)
  | [] => none

/-- An expression embedded in a text that is being scanned: whether that text is a block, and how many
braces the expression has open. -/
structure Embedding where
  inBlock : Bool
  braces : Nat
deriving DecidableEq, Repr

/-- The length of a piece of text of either kind. -/
def textTail (inBlock : Bool) (rest : List Char) : Option (Nat × TextEnd) :=
  if inBlock then blockTail rest else stringTail rest

/-! ## Symbols and lexemes -/

/-- The symbols, every one before its own proper beginnings. -/
def symbols : List String :=
  ["...", "<<=", "->", "--", "-=", "++", "+=", "==", "!=", "<=", "<<", "&&", "&=", "||", "|=", "*=",
    "/=", "^=", "%=", "::", "(", ")", "\x7b", "\x7d", "[", "]", ";", ",", ".", "@", "=", "<", ">",
    "?", ":", "!", "~", "&", "|", "+", "-", "*", "/", "^", "%"]

/-- A lexeme that has been recognised: how many characters it has after the first, and the embedded
expressions that are open after it. -/
structure Recognised where
  lexeme : Lexeme
  more : Nat
  embeddings : List Embedding

/-- The piece of text that a quote opens. -/
def openText (embeddings : List Embedding) (inBlock : Bool) (more : Nat) (rest : List Char) :
    Option Recognised :=
  (textTail inBlock rest).map fun found =>
    match found.2 with
    | .closed => ⟨.text, more + found.1, embeddings⟩
    | .embedding => ⟨.textOpening, more + found.1, ⟨inBlock, 0⟩ :: embeddings⟩

/-- The lexeme that opens a text with the given first character, as the embedded expressions that are
open see it. -/
def lexeme? (embeddings : List Embedding) (first : Char) (rest : List Char) : Option Recognised :=
  if isIdentifierStart first then
    let tail := rest.takeWhile isIdentifierPart
    some ⟨.word (String.ofList (first :: tail)), tail.length, embeddings⟩
  else if isAsciiDigit first || (first == '.' && (rest.head?.map isAsciiDigit).getD false) then
    some ⟨.literal, numeralLength (first :: rest) - 1, embeddings⟩
  else if first == '\'' then
    (characterTail 0 rest).map fun n => ⟨.literal, n, embeddings⟩
  else if first == '"' then
    if ['"', '"'].isPrefixOf rest then openText embeddings true 2 (rest.drop 2)
    else openText embeddings false 0 rest
  else
    match first, embeddings with
    | '}', ⟨inBlock, 0⟩ :: outer =>
      (textTail inBlock rest).map fun found =>
        match found.2 with
        | .closed => ⟨.textClosing, found.1, outer⟩
        | .embedding => ⟨.textMiddle, found.1, embeddings⟩
    | '}', ⟨inBlock, braces + 1⟩ :: outer => some ⟨.symbol "\x7d", 0, ⟨inBlock, braces⟩ :: outer⟩
    | '{', ⟨inBlock, braces⟩ :: outer => some ⟨.symbol "\x7b", 0, ⟨inBlock, braces + 1⟩ :: outer⟩
    | _, _ =>
      (symbols.find? (·.toList.isPrefixOf (first :: rest))).map fun symbol =>
        ⟨.symbol symbol, symbol.toList.length - 1, embeddings⟩

/-! ## The scan -/

def lineFeeds (text : List Char) : Nat :=
  text.count '\n'

/-- The tokens of the rest of a source, which starts on the given line; none if the rest holds something
that is no lexeme. -/
def scanFrom (line : Nat) (embeddings : List Embedding) (source : List Char) :
    Option (List Token) :=
  match gapLength .outside source with
  | none => none
  | some gap =>
    match _opened : source.drop gap with
    | [] => some []
    | first :: rest =>
      match lexeme? embeddings first rest with
      | none => none
      | some found =>
        let start := line + lineFeeds (source.take gap)
        let spelled := first :: rest.take found.more
        (scanFrom (start + lineFeeds spelled) found.embeddings (rest.drop found.more)).map
          (⟨found.lexeme, source.take gap, spelled, start⟩ :: ·)
termination_by source.length
decreasing_by
  have shorter := congrArg List.length _opened
  simp only [List.length_drop, List.length_cons] at shorter ⊢
  omega

/-- The tokens of a source text; none if it cannot be cut into tokens. A byte order mark at the very start
is passed over, and a null character is part of no token and of no gap. -/
def scan (source : List Char) : Option (List Token) :=
  if source.contains '\x00' then none
  else
    match source with
    | '\ufeff' :: rest => scanFrom 1 [] rest
    | _ => scanFrom 1 [] source

end JavaAtlas.Syntax
