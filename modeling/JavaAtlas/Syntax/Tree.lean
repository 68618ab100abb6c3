import JavaAtlas.Syntax.Token

/-!
# Syntax trees

A tree whose leaves are tokens and whose inner nodes carry the part of speech they stand for. The leaves of
a tree, read from left to right, are the stretch of tokens it was built from.
-/

namespace JavaAtlas.Syntax

/-- A syntax tree with labels from `κ`. -/
inductive ParseTree (κ : Type) where
  | leaf (token : Token)
  | node (label : κ) (children : List (ParseTree κ))
deriving Inhabited

namespace ParseTree

variable {κ : Type}

mutual

/-- The tokens at the leaves of a tree, from left to right. -/
def tokens : ParseTree κ → List Token
  | .leaf token => [token]
  | .node _ children => tokensOfAll children

def tokensOfAll : List (ParseTree κ) → List Token
  | [] => []
  | tree :: rest => tokens tree ++ tokensOfAll rest

end

/-- The line on which the first token of some trees stands, zero if they have none. -/
def firstLine (trees : List (ParseTree κ)) : Nat :=
  match tokensOfAll trees with
  | [] => 0
  | token :: _ => token.line

/-- The source that some neighbouring trees cover, without the gap before them. -/
def sourceOf (trees : List (ParseTree κ)) : List Char :=
  Token.slice (tokensOfAll trees)

def isLeaf (lexeme : Lexeme) : ParseTree κ → Bool
  | .leaf token => token.lexeme == lexeme
  | .node .. => false

/-- The children of the first of some trees that carries a label. -/
def firstLabelled [BEq κ] (label : κ) : List (ParseTree κ) → Option (List (ParseTree κ))
  | [] => none
  | .leaf _ :: rest => firstLabelled label rest
  | .node found children :: rest => if found == label then some children else firstLabelled label rest

/-- The children of every one of some trees that carries a label. -/
def allLabelled [BEq κ] (label : κ) : List (ParseTree κ) → List (List (ParseTree κ))
  | [] => []
  | .leaf _ :: rest => allLabelled label rest
  | .node found children :: rest =>
    if found == label then children :: allLabelled label rest else allLabelled label rest

end ParseTree

end JavaAtlas.Syntax
