/-!
# Tokens

A source text as a list of tokens, none of its characters lost: a token keeps its own spelling and
the gap of blanks and comments in front of it, so a stretch of source is read back from the tokens
that cover it. The grammar looks at a token's lexeme and at whether its gap is empty, never at the gap
itself and never at the line; the lemmas about comments, line ends and leading lines rest on that.
-/

namespace JavaAtlas.Syntax

/-- What a token is to the grammar. A string whose text holds embedded expressions comes in pieces: an
opening piece, an expression, a middle piece for each further expression, and a closing piece. -/
inductive Lexeme where
  | word (spelling : String)
  | symbol (spelling : String)
  | literal
  | text
  | textOpening
  | textMiddle
  | textClosing
deriving DecidableEq, Repr, Inhabited

/-- One token of a source text, with the gap before it and the line, counted from one, it starts on. -/
structure Token where
  lexeme : Lexeme
  gap : List Char
  spelled : List Char
  line : Nat
deriving DecidableEq, Repr, Inhabited

namespace Token

/-- Whether nothing, not even a blank, stands between a token and the one before it. -/
def touching (token : Token) : Bool :=
  token.gap.isEmpty

/-- The stretch of source that a list of tokens covers, gaps included. -/
def source (tokens : List Token) : List Char :=
  tokens.flatMap fun token => token.gap ++ token.spelled

/-- The stretch of source from the first character of the first token to the last of the last. -/
def slice : List Token → List Char
  | [] => []
  | token :: rest => token.spelled ++ source rest

end Token

end JavaAtlas.Syntax
