import JavaAtlas.Syntax.Tree

/-!
# Grammars as data

A grammar gives every rule a pattern: tokens, sequences, ordered choices, repetitions, negative look-ahead,
references to rules, and labels that gather what a pattern matched into one node. One function reads
tokens by a pattern, for all grammars, so what holds of every reading is proved once, by induction on it.

A choice is final: when its first pattern matches, the second is never tried, and a repetition takes all it
can. Reading is bounded by an allowance of steps. It is large enough for every grammar in which no rule
comes back to itself without taking a token, and running out is an outcome of its own, told apart from a
refusal.
-/

namespace JavaAtlas.Syntax

/-- What a pattern asks of one token: to be one of some words, to be a word other than some, to be a word
that starts with another, or to have a given lexeme. -/
inductive Expected where
  | word (spellings : List String)
  | name (except : List String)
  | starting (stem : String)
  | exactly (lexeme : Lexeme)
deriving DecidableEq, Repr

def Expected.accepts : Expected → Lexeme → Bool
  | .word spellings, .word spelling => spellings.contains spelling
  | .name except, .word spelling => !except.contains spelling
  | .starting stem, .word spelling => stem.toList.isPrefixOf spelling.toList
  | .exactly wanted, lexeme => wanted == lexeme
  | _, _ => false

/-- A pattern over the rules `ρ` that builds trees with labels from `κ`. -/
inductive Pattern (ρ κ : Type) where
  | token (mustTouch : Bool) (expected : Expected)
  | empty
  | seq (first second : Pattern ρ κ)
  | choice (first second : Pattern ρ κ)
  | many (repeated : Pattern ρ κ)
  | unless (refused : Pattern ρ κ)
  | rule (name : ρ)
  | node (label : κ) (inner : Pattern ρ κ)

/-- How reading by a pattern ends: without an answer, with a refusal, or with trees and the tokens left. -/
inductive Reading (κ : Type) where
  | exhausted
  | refused
  | matched (trees : List (ParseTree κ)) (rest : List Token)

namespace Pattern

variable {ρ κ : Type}

/-- The number of constructors in a pattern, a bound on the steps from it to the rules it calls. -/
def size : Pattern ρ κ → Nat
  | .token .. => 1
  | .empty => 1
  | .seq first second => first.size + second.size + 1
  | .choice first second => first.size + second.size + 1
  | .many repeated => repeated.size + 1
  | .unless refused => refused.size + 1
  | .rule _ => 1
  | .node _ inner => inner.size + 1

def fail : Pattern ρ κ :=
  .unless .empty

def all : List (Pattern ρ κ) → Pattern ρ κ
  | [] => .empty
  | [last] => last
  | first :: rest => .seq first (all rest)

/-- The first of some patterns that matches. -/
def any : List (Pattern ρ κ) → Pattern ρ κ
  | [] => fail
  | [last] => last
  | first :: rest => .choice first (any rest)

def optional (p : Pattern ρ κ) : Pattern ρ κ :=
  .choice p .empty

def atLeastOne (p : Pattern ρ κ) : Pattern ρ κ :=
  .seq p (.many p)

/-- A test that a pattern matches, which takes no token. -/
def ahead (p : Pattern ρ κ) : Pattern ρ κ :=
  .unless (.unless p)

def word (spelling : String) : Pattern ρ κ :=
  .token false (.word [spelling])

def oneWord (spellings : List String) : Pattern ρ κ :=
  .token false (.word spellings)

def name (except : List String) : Pattern ρ κ :=
  .token false (.name except)

def symbol (spelling : String) : Pattern ρ κ :=
  .token false (.exactly (.symbol spelling))

/-- The symbol with a given spelling, with no gap before it. -/
def touchingSymbol (spelling : String) : Pattern ρ κ :=
  .token true (.exactly (.symbol spelling))

/-- A pattern one or more times, with commas between. -/
def list (p : Pattern ρ κ) : Pattern ρ κ :=
  .seq p (.many (.seq (symbol ",") p))

/-- Reads tokens by a pattern, with `body` for the rules and an allowance of nested steps. -/
def read (body : ρ → Pattern ρ κ) : Nat → Pattern ρ κ → List Token → Reading κ
  | 0, _, _ => .exhausted
  | steps + 1, pattern, tokens =>
    match pattern with
    | .token mustTouch expected =>
      match tokens with
      | [] => .refused
      | next :: rest =>
        if expected.accepts next.lexeme && (!mustTouch || next.touching) then
          .matched [.leaf next] rest
        else .refused
    | .empty => .matched [] tokens
    | .seq first second =>
      match read body steps first tokens with
      | .matched trees rest =>
        match read body steps second rest with
        | .matched more rest => .matched (trees ++ more) rest
        | other => other
      | other => other
    | .choice first second =>
      match read body steps first tokens with
      | .refused => read body steps second tokens
      | other => other
    | .many repeated =>
      match read body steps repeated tokens with
      | .matched trees rest =>
        if rest.length < tokens.length then
          match read body steps (.many repeated) rest with
          | .matched more rest => .matched (trees ++ more) rest
          | other => other
        else .matched trees rest
      | .refused => .matched [] tokens
      | .exhausted => .exhausted
    | .unless refused =>
      match read body steps refused tokens with
      | .matched _ _ => .refused
      | .refused => .matched [] tokens
      | .exhausted => .exhausted
    | .rule name => read body steps (body name) tokens
    | .node label inner =>
      match read body steps inner tokens with
      | .matched trees rest => .matched [.node label trees] rest
      | other => other

end Pattern

/-- A grammar: its rules, the pattern of each, and the rule that a whole text follows. -/
structure Grammar (ρ κ : Type) where
  rules : List ρ
  body : ρ → Pattern ρ κ
  start : ρ

namespace Grammar

variable {ρ κ : Type}

/-- The steps that reading may nest between two tokens. -/
def stepsPerToken (grammar : Grammar ρ κ) : Nat :=
  (grammar.rules.map fun rule => (grammar.body rule).size).foldr (· + ·) 1

/-- The trees of a whole list of tokens, none if the list does not follow the grammar. -/
def parse? (grammar : Grammar ρ κ) (tokens : List Token) : Option (List (ParseTree κ)) :=
  let steps := (tokens.length + 1) * grammar.stepsPerToken
  match Pattern.read grammar.body steps (.rule grammar.start) tokens with
  | .matched trees [] => some trees
  | _ => none

end Grammar

end JavaAtlas.Syntax
