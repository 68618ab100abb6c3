import JavaAtlas.Proofs.Syntax.Alike
import JavaAtlas.Proofs.Syntax.Content

/-!
# The first token of a text

A pattern asks a token to touch the one before it only where it has taken one already. So the gap in front of a whole
text does not count: what differs in it and agrees otherwise is read alike. The first token of a text is the first
token of some of its trees, but never stands further inside a tree.
-/

namespace JavaAtlas.Syntax

open ParseTree

variable {ρ κ : Type} {S R : Token → Token → Prop} {P : κ → List (ParseTree κ) → List (ParseTree κ) → Prop}

/-- Lists of tokens of which the first are related in one way and all others in another. -/
inductive FrontAlike (S R : Token → Token → Prop) : List Token → List Token → Prop where
  | nil : FrontAlike S R [] []
  | cons {token other : Token} {tokens others : List Token} (hfirst : S token other)
      (hrest : List.Forall₂ R tokens others) : FrontAlike S R (token :: tokens) (other :: others)

namespace FrontAlike

variable {tokens others front back head tail : List Token}

theorem of_forall₂ (hRS : ∀ token other, R token other → S token other) (h : List.Forall₂ R tokens others) :
    FrontAlike S R tokens others := by
  cases h with
  | nil => exact .nil
  | cons htoken hrest => exact .cons (hRS _ _ htoken) hrest

theorem length_eq (h : FrontAlike S R tokens others) : tokens.length = others.length := by
  cases h with
  | nil => rfl
  | cons _ hrest => rw [List.length_cons, List.length_cons, hrest.length_eq]

/-- Behind the first token all tokens are related in the other way, so a back part may count as one with a front. -/
theorem split (hRS : ∀ token other, R token other → S token other) (h : FrontAlike S R (front ++ back) (head ++ tail))
    (hlength : front.length = head.length) : FrontAlike S R front head ∧ FrontAlike S R back tail := by
  cases front with
  | nil =>
    rw [List.eq_nil_of_length_eq_zero hlength.symm] at h ⊢
    exact ⟨.nil, h⟩
  | cons token front =>
    cases head with
    | nil => cases hlength
    | cons other head =>
      cases h with
      | cons hfirst hrest =>
        have hsame : front.length = head.length := Nat.succ.inj hlength
        change List.Forall₂ R (front ++ back) (head ++ tail) at hrest
        have hfront := List.forall₂_take front.length hrest
        have hback := List.forall₂_drop front.length hrest
        rw [List.take_left, hsame, List.take_left] at hfront
        rw [List.drop_left, hsame, List.drop_left] at hback
        exact ⟨.cons hfirst hfront, of_forall₂ hRS hback⟩

end FrontAlike

/-! ### Patterns that do not ask their first token to touch -/

namespace Pattern

/-- Whether a pattern never asks the first token it sees to touch the one before it, if no rule does. -/
def isLoose (taking : ρ → Bool) : Pattern ρ κ → Bool
  | .token mustTouch _ => !mustTouch
  | .empty => true
  | .seq first second => first.isLoose taking && (first.takes taking || second.isLoose taking)
  | .choice first second => first.isLoose taking && second.isLoose taking
  | .many repeated => repeated.isLoose taking
  | .unless refused => refused.isLoose taking
  | .rule _ => true
  | .node _ inner => inner.isLoose taking

end Pattern

/-- Two readings end alike, and alike in the stricter way behind the first of some tokens. -/
inductive Reading.FrontAlike (S R : Token → Token → Prop) (tokens : List Token) : Reading κ → Reading κ → Prop where
  | exhausted : FrontAlike S R tokens .exhausted .exhausted
  | refused : FrontAlike S R tokens .refused .refused
  | matched {trees others : List (ParseTree κ)} {rest after : List Token}
      (htrees : List.Forall₂ (ParseTree.Alike S fun _ _ _ => True) trees others)
      (hrest : Syntax.FrontAlike S R rest after)
      (hless : rest.length < tokens.length → List.Forall₂ R rest after) :
      FrontAlike S R tokens (.matched trees rest) (.matched others after)

namespace Reading.FrontAlike

variable {tokens others longer : List Token} {reading reading' other other' : Reading κ}

/-- The fewer tokens a reading starts from, the less it says of what is behind them. -/
theorem mono (h : Reading.FrontAlike S R longer reading reading') (hlength : tokens.length ≤ longer.length) :
    Reading.FrontAlike S R tokens reading reading' := by
  cases h with
  | exhausted => exact .exhausted
  | refused => exact .refused
  | matched htrees hrest hless => exact .matched htrees hrest fun hfewer => hless (by omega)

/-- What takes no token leaves the front where it is. -/
theorem nothing (h : Syntax.FrontAlike S R tokens others) :
    Reading.FrontAlike S R tokens (.matched [] tokens : Reading κ) (.matched [] others) :=
  .matched .nil h fun hless => absurd hless (Nat.lt_irrefl _)

theorem andThen {next next' : List Token → Reading κ} (h : Reading.FrontAlike S R tokens reading reading')
    (hnext : ∀ trees rest after, reading = .matched trees rest → Syntax.FrontAlike S R rest after →
      (rest.length < tokens.length → List.Forall₂ R rest after) →
      Reading.FrontAlike S R tokens (next rest) (next' after)) :
    Reading.FrontAlike S R tokens (reading.andThen next) (reading'.andThen next') := by
  cases h with
  | exhausted => exact .exhausted
  | refused => exact .refused
  | @matched trees _ rest after htrees hrest hless =>
    have hmore := hnext trees rest after rfl hrest hless
    unfold Reading.andThen
    dsimp only
    generalize next rest = ours at hmore ⊢
    generalize next' after = theirs at hmore ⊢
    cases hmore with
    | exhausted => exact .exhausted
    | refused => exact .refused
    | matched hmore hleft hfewer => exact .matched (List.rel_append htrees hmore) hleft hfewer

theorem orElse (h : Reading.FrontAlike S R tokens reading reading') (hother : Reading.FrontAlike S R tokens other other') :
    Reading.FrontAlike S R tokens (reading.orElse other) (reading'.orElse other') := by
  cases h with
  | exhausted => exact .exhausted
  | refused => exact hother
  | matched htrees hrest hless => exact .matched htrees hrest hless

theorem negated (h : Reading.FrontAlike S R tokens reading reading') (htokens : Syntax.FrontAlike S R tokens others) :
    Reading.FrontAlike S R tokens (reading.negated tokens) (reading'.negated others) := by
  cases h with
  | exhausted => exact .exhausted
  | refused => exact nothing htokens
  | matched => exact .refused

theorem under {label : κ} (h : Reading.FrontAlike S R tokens reading reading') :
    Reading.FrontAlike S R tokens (reading.under label) (reading'.under label) := by
  cases h with
  | exhausted => exact .exhausted
  | refused => exact .refused
  | matched htrees hrest hless => exact .matched (.cons (.node trivial htrees) .nil) hrest hless

end Reading.FrontAlike

/-- Trees with related tokens have tokens that are related in any weaker way. -/
theorem ParseTree.Alike.weaken {trees others : List (ParseTree κ)} (hRS : ∀ token other, R token other → S token other)
    (h : List.Forall₂ (Alike R P) trees others) : List.Forall₂ (Alike S P) trees others := by
  have htree : ∀ tree other : ParseTree κ, Alike R P tree other → Alike S P tree other := by
    intro tree
    induction tree using ParseTree.induction with
    | step tree ih =>
      intro other hother
      cases hother with
      | leaf htoken => exact .leaf (hRS _ _ htoken)
      | @node label children below hlabel hchildren =>
        refine .node hlabel ?_
        have hinside : ∀ child ∈ children, Within child children := fun child hmem => .here hmem
        refine ((List.forall₂_and_left _ _).2 ⟨hinside, hchildren⟩).imp ?_
        exact fun child other hboth => ih child hboth.1 other hboth.2
  exact h.imp fun tree other hother => htree tree other hother

section Reading

variable {body : ρ → Pattern ρ κ} {taking : ρ → Bool} {tokens others : List Token}

theorem Reading.Alike.front {ours theirs : Reading κ} (hRS : ∀ token other, R token other → S token other)
    (h : Reading.Alike R ours theirs) : Reading.FrontAlike S R tokens ours theirs := by
  cases h with
  | exhausted => exact .exhausted
  | refused => exact .refused
  | matched htrees hrest =>
    exact .matched (ParseTree.Alike.weaken hRS htrees) (Syntax.FrontAlike.of_forall₂ hRS hrest) fun _ => hrest

theorem Pattern.read_frontAlike (hR : Indistinct R) (hRS : ∀ token other, R token other → S token other)
    (hS : ∀ token other, S token other → other.lexeme = token.lexeme)
    (htaking : ∀ name, taking name = true → (body name).takes taking = true)
    (hloose : ∀ name, (body name).isLoose taking = true) (steps : Nat) {pattern : Pattern ρ κ}
    (hpattern : pattern.isLoose taking = true) (h : FrontAlike S R tokens others) :
    Reading.FrontAlike S R tokens (read body steps pattern tokens) (read body steps pattern others) := by
  induction steps generalizing pattern tokens others with
  | zero => exact .exhausted
  | succ steps ih =>
    cases pattern with
    | token mustTouch expected =>
      cases h with
      | nil => exact .refused
      | @cons token other tokens others htoken hrest =>
        rw [isLoose] at hpattern
        rw [read, read, hS _ _ htoken, hpattern, Bool.true_or, Bool.true_or]
        split
        · exact .matched (.cons (.leaf htoken) .nil) (Syntax.FrontAlike.of_forall₂ hRS hrest) fun _ => hrest
        · exact .refused
    | empty => exact .nothing h
    | seq first second =>
      rw [isLoose, Bool.and_eq_true, Bool.or_eq_true] at hpattern
      rw [read_seq, read_seq]
      refine (ih hpattern.1 h).andThen fun trees rest after hread hrest hless => ?_
      -- Behind a token that was taken all are related in the stricter way; otherwise this is still the front.
      by_cases hbehind : rest.length < tokens.length
      · exact (read_alike hR steps second (hless hbehind)).front hRS
      · have hsame : second.isLoose taking = true :=
          hpattern.2.resolve_left fun htakes => hbehind (length_lt_of_takes htaking htakes hread)
        exact (ih hsame hrest).mono (Nat.le_of_not_lt hbehind)
    | choice first second =>
      rw [isLoose, Bool.and_eq_true] at hpattern
      rw [read_choice, read_choice]
      exact (ih hpattern.1 h).orElse (ih hpattern.2 h)
    | many repeated =>
      rw [isLoose] at hpattern
      rw [read_many, read_many, ← h.length_eq]
      refine ((ih hpattern h).andThen fun trees rest after _ hrest hless => ?_).orElse (.nothing h)
      rw [← hrest.length_eq]
      split
      · next hbehind => exact (read_alike hR steps (.many repeated) (hless hbehind)).front hRS
      · exact .matched .nil hrest hless
    | «unless» refused =>
      rw [isLoose] at hpattern
      rw [read_unless, read_unless]
      exact (ih hpattern h).negated h
    | rule name =>
      rw [read_rule, read_rule]
      exact ih (hloose name) h
    | node label inner =>
      rw [isLoose] at hpattern
      rw [read_node, read_node]
      exact (ih hpattern h).under

/-- **The gap in front of a text does not count**: without it the text is parsed alike, or not at all. -/
theorem Grammar.parse?_frontAlike (grammar : Grammar ρ κ) (hR : Indistinct R)
    (hRS : ∀ token other, R token other → S token other)
    (hS : ∀ token other, S token other → other.lexeme = token.lexeme)
    (htaking : ∀ name, taking name = true → (grammar.body name).takes taking = true)
    (hloose : ∀ name, (grammar.body name).isLoose taking = true) (h : FrontAlike S R tokens others) :
    Option.Rel (List.Forall₂ (ParseTree.Alike S fun _ _ _ => True)) (grammar.parse? tokens)
      (grammar.parse? others) := by
  have hread : Reading.FrontAlike S R tokens
      (Pattern.read grammar.body ((tokens.length + 1) * grammar.stepsPerToken) (.rule grammar.start) tokens)
      (Pattern.read grammar.body ((tokens.length + 1) * grammar.stepsPerToken) (.rule grammar.start) others) :=
    Pattern.read_frontAlike hR hRS hS htaking hloose _ rfl h
  unfold parse?
  dsimp only
  rw [← h.length_eq]
  generalize Pattern.read grammar.body _ _ tokens = ours at hread ⊢
  generalize Pattern.read grammar.body _ _ others = theirs at hread ⊢
  cases hread with
  | exhausted => exact .none
  | refused => exact .none
  | matched htrees hrest hless =>
    cases hrest with
    | nil => exact .some htrees
    | cons => exact .none

end Reading

/-! ### Nodes in front -/

namespace ParseTree

variable {trees others : List (ParseTree κ)}

/-- The children of two corresponding nodes are alike in the stricter way behind their first token. -/
def FrontNodes (S R : Token → Token → Prop) (_ : κ) (children below : List (ParseTree κ)) : Prop :=
  FrontAlike S R (tokensOfAll children) (tokensOfAll below)

theorem frontNodes_of_within (hRS : ∀ token other, R token other → S token other)
    (h : List.Forall₂ (Alike S P) trees others) (hfront : FrontAlike S R (tokensOfAll trees) (tokensOfAll others))
    (hwithin : AllWithin (fun tree => ∀ other, Alike S P tree other → FrontAlike S R tree.tokens other.tokens →
      Alike S (FrontNodes S R) tree other) trees) : List.Forall₂ (Alike S (FrontNodes S R)) trees others := by
  induction h with
  | nil => exact .nil
  | @cons tree other rest more hhead htail ih =>
    rw [tokensOfAll_cons, tokensOfAll_cons] at hfront
    obtain ⟨hfirst, hrest⟩ := hfront.split hRS (forall₂_tokens tree other hhead).length_eq
    exact .cons (hwithin.head other hhead hfirst) (ih hrest hwithin.tail)

/-- Where the tokens of whole texts are alike in the stricter way behind the first, so are those of all their nodes. -/
theorem Alike.frontNodes (hRS : ∀ token other, R token other → S token other)
    (h : List.Forall₂ (Alike S P) trees others) (hfront : FrontAlike S R (tokensOfAll trees) (tokensOfAll others)) :
    List.Forall₂ (Alike S (FrontNodes S R)) trees others := by
  have htree : ∀ tree other : ParseTree κ, Alike S P tree other → FrontAlike S R tree.tokens other.tokens →
      Alike S (FrontNodes S R) tree other := by
    intro tree
    induction tree using ParseTree.induction with
    | step tree ih =>
      intro other hother htokens
      cases hother with
      | leaf htoken => exact .leaf htoken
      | node hlabel hchildren =>
        rw [tokens_node, tokens_node] at htokens
        exact .node htokens (frontNodes_of_within hRS hchildren htokens ih)
  exact frontNodes_of_within hRS h hfront fun tree _ => htree tree

/-- What holds of the tokens of some trees holds of those of any trees that stand together among them. -/
theorem frontAlike_part (hRS : ∀ token other, R token other → S token other)
    (h : List.Forall₂ (Alike S P) trees others) (hfront : FrontAlike S R (tokensOfAll trees) (tokensOfAll others))
    (start count : Nat) :
    FrontAlike S R (tokensOfAll ((trees.drop start).take count)) (tokensOfAll ((others.drop start).take count)) := by
  have hback := List.forall₂_drop start h
  rw [← List.take_append_drop start trees, ← List.take_append_drop start others, tokensOfAll_append,
    tokensOfAll_append] at hfront
  have hdrop := (hfront.split hRS (forall₂_tokensOfAll (List.forall₂_take start h)).length_eq).2
  rw [← List.take_append_drop count (trees.drop start), ← List.take_append_drop count (others.drop start),
    tokensOfAll_append, tokensOfAll_append] at hdrop
  exact (hdrop.split hRS (forall₂_tokensOfAll (List.forall₂_take count hback)).length_eq).1

end ParseTree

namespace Construct

theorem isLoose_body : ∀ construct, (body construct).isLoose taking = true :=
  forall_of_every (by decide +kernel)

end Construct

end JavaAtlas.Syntax
