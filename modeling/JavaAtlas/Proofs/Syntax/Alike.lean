import Mathlib.Data.List.Forall2
import JavaAtlas.Proofs.Syntax.Derivation

/-!
# Trees of one shape

A pattern asks for lexemes and for tokens that touch. So two lists of tokens that agree in both are read alike, and
what is read off them are trees of one shape, with corresponding tokens at their leaves. What holds between the
children under a label, in one tree and in the other, is carried along.
-/

namespace JavaAtlas.Syntax

variable {ρ κ : Type} {R : Token → Token → Prop} {P Q : κ → List (ParseTree κ) → List (ParseTree κ) → Prop}

/-- A relation holds only between tokens that no pattern tells apart. -/
def Indistinct (R : Token → Token → Prop) : Prop :=
  ∀ token other, R token other → other.lexeme = token.lexeme ∧ other.touching = token.touching

namespace ParseTree

/-- Two trees have one shape: the same labels, related children under each of them, and related tokens at the
leaves. -/
inductive Alike (R : Token → Token → Prop) (P : κ → List (ParseTree κ) → List (ParseTree κ) → Prop) :
    ParseTree κ → ParseTree κ → Prop where
  | leaf {token other : Token} (htoken : R token other) : Alike R P (.leaf token) (.leaf other)
  | node {label : κ} {children others : List (ParseTree κ)} (hlabel : P label children others)
      (hchildren : List.Forall₂ (Alike R P) children others) : Alike R P (.node label children) (.node label others)

/-- What holds between the children of corresponding nodes can be replaced by what follows from it there. -/
theorem Alike.refine {trees others : List (ParseTree κ)} (h : List.Forall₂ (Alike R P) trees others)
    (hlabel : ∀ label children others, Within (.node label children) trees →
      List.Forall₂ (Alike R P) children others → P label children others → Q label children others) :
    List.Forall₂ (Alike R Q) trees others := by
  have htree : ∀ tree : ParseTree κ, Within tree trees → ∀ other, Alike R P tree other → Alike R Q tree other := by
    intro tree
    induction tree using ParseTree.induction with
    | step tree ih =>
      intro hwithin other hother
      cases hother with
      | leaf htoken => exact .leaf htoken
      | @node label children others hchild hchildren =>
        refine .node (hlabel _ _ _ hwithin hchildren hchild) ?_
        have hinside : ∀ child ∈ children, Within child children := fun child hmem => .here hmem
        refine ((List.forall₂_and_left _ _).2 ⟨hinside, hchildren⟩).imp ?_
        intro child other hboth
        exact ih child hboth.1 (hboth.1.trans hwithin) other hboth.2
  have hinside : ∀ tree ∈ trees, Within tree trees := fun tree hmem => .here hmem
  refine ((List.forall₂_and_left _ _).2 ⟨hinside, h⟩).imp ?_
  intro tree other hboth
  exact htree tree hboth.1 other hboth.2

theorem Alike.ne_node {tree other : ParseTree κ} {label : κ} (h : Alike R P tree other)
    (hne : ∀ children, tree = .node label children → False) : ∀ children, other = .node label children → False := by
  rintro children rfl
  cases h with
  | node => exact hne _ rfl

variable {trees others : List (ParseTree κ)}

/-- Alike trees have corresponding tokens, provided that those below them have. -/
theorem forall₂_tokensOfAll_of_within (h : List.Forall₂ (Alike R P) trees others)
    (hwithin : AllWithin (fun tree => ∀ other, Alike R P tree other → List.Forall₂ R tree.tokens other.tokens) trees) :
    List.Forall₂ R (tokensOfAll trees) (tokensOfAll others) := by
  induction h with
  | nil =>
    rw [tokensOfAll_nil]
    exact .nil
  | cons hhead htail ih =>
    rw [tokensOfAll_cons, tokensOfAll_cons]
    exact List.rel_append (hwithin.head _ hhead) (ih hwithin.tail)

theorem forall₂_tokens (tree : ParseTree κ) :
    ∀ other, Alike R P tree other → List.Forall₂ R tree.tokens other.tokens := by
  induction tree using ParseTree.induction with
  | step tree ih =>
    intro other hother
    cases hother with
    | leaf htoken =>
      rw [tokens_leaf, tokens_leaf]
      exact .cons htoken .nil
    | node hlabel hchildren =>
      rw [tokens_node, tokens_node]
      exact forall₂_tokensOfAll_of_within hchildren ih

/-- The leaves of alike trees are corresponding tokens in the same order. -/
theorem forall₂_tokensOfAll (h : List.Forall₂ (Alike R P) trees others) :
    List.Forall₂ R (tokensOfAll trees) (tokensOfAll others) :=
  forall₂_tokensOfAll_of_within h fun tree _ => forall₂_tokens tree

/-- Some children and others stand under one label in trees of one shape. -/
def Alike.Under (R : Token → Token → Prop) (P : κ → List (ParseTree κ) → List (ParseTree κ) → Prop) (label : κ)
    (children others : List (ParseTree κ)) : Prop :=
  P label children others ∧ List.Forall₂ (Alike R P) children others

theorem firstLabelled_alike [BEq κ] [LawfulBEq κ] (label : κ) (h : List.Forall₂ (Alike R P) trees others) :
    Option.Rel (Alike.Under R P label)
      (firstLabelled label trees) (firstLabelled label others) := by
  induction h with
  | nil => exact .none
  | cons hhead htail ih =>
    cases hhead with
    | leaf htoken => exact ih
    | node hlabel hchildren =>
      rw [firstLabelled, firstLabelled]
      split
      · next hsame =>
        rw [eq_of_beq hsame] at hlabel
        exact .some ⟨hlabel, hchildren⟩
      · exact ih

theorem allLabelled_alike [BEq κ] [LawfulBEq κ] (label : κ) (h : List.Forall₂ (Alike R P) trees others) :
    List.Forall₂ (Alike.Under R P label) (allLabelled label trees) (allLabelled label others) := by
  induction h with
  | nil => exact .nil
  | cons hhead htail ih =>
    cases hhead with
    | leaf htoken => exact ih
    | node hlabel hchildren =>
      rw [allLabelled, allLabelled]
      split
      · next hsame =>
        rw [eq_of_beq hsame] at hlabel
        exact .cons ⟨hlabel, hchildren⟩ ih
      · exact ih

theorem any_isLeaf_alike (hR : ∀ token other, R token other → other.lexeme = token.lexeme) (lexeme : Lexeme)
    (h : List.Forall₂ (Alike R P) trees others) :
    others.any (isLeaf lexeme) = trees.any (isLeaf lexeme) := by
  induction h with
  | nil => rfl
  | cons hhead htail ih =>
    rw [List.any_cons, List.any_cons, ih]
    cases hhead with
    | leaf htoken => rw [isLeaf, isLeaf, hR _ _ htoken]
    | node => rfl

end ParseTree

open ParseTree

inductive Reading.Alike (R : Token → Token → Prop) : Reading κ → Reading κ → Prop where
  | exhausted : Alike R .exhausted .exhausted
  | refused : Alike R .refused .refused
  | matched {trees others : List (ParseTree κ)} {rest after : List Token}
      (htrees : List.Forall₂ (ParseTree.Alike R fun _ _ _ => True) trees others)
      (hrest : List.Forall₂ R rest after) : Alike R (.matched trees rest) (.matched others after)

namespace Reading.Alike

variable {reading reading' other other' : Reading κ} {tokens others : List Token}

theorem andThen {next next' : List Token → Reading κ} (h : Reading.Alike R reading reading')
    (hnext : ∀ rest after, List.Forall₂ R rest after → Reading.Alike R (next rest) (next' after)) :
    Reading.Alike R (reading.andThen next) (reading'.andThen next') := by
  cases h with
  | exhausted => exact .exhausted
  | refused => exact .refused
  | @matched _ _ rest after htrees hrest =>
    have hmore := hnext rest after hrest
    unfold Reading.andThen
    dsimp only
    generalize next rest = ours at hmore ⊢
    generalize next' after = theirs at hmore ⊢
    cases hmore with
    | exhausted => exact .exhausted
    | refused => exact .refused
    | matched hmore hleft => exact .matched (List.rel_append htrees hmore) hleft

theorem orElse (h : Reading.Alike R reading reading') (hother : Reading.Alike R other other') :
    Reading.Alike R (reading.orElse other) (reading'.orElse other') := by
  cases h with
  | exhausted => exact .exhausted
  | refused => exact hother
  | matched htrees hrest => exact .matched htrees hrest

theorem negated (h : Reading.Alike R reading reading') (htokens : List.Forall₂ R tokens others) :
    Reading.Alike R (reading.negated tokens) (reading'.negated others) := by
  cases h with
  | exhausted => exact .exhausted
  | refused => exact .matched .nil htokens
  | matched => exact .refused

theorem under {label : κ} (h : Reading.Alike R reading reading') :
    Reading.Alike R (reading.under label) (reading'.under label) := by
  cases h with
  | exhausted => exact .exhausted
  | refused => exact .refused
  | matched htrees hrest => exact .matched (.cons (.node trivial htrees) .nil) hrest

end Reading.Alike

theorem Pattern.read_alike {body : ρ → Pattern ρ κ} (hR : Indistinct R) (steps : Nat) (pattern : Pattern ρ κ)
    {tokens others : List Token} (h : List.Forall₂ R tokens others) :
    Reading.Alike R (read body steps pattern tokens) (read body steps pattern others) := by
  induction steps generalizing pattern tokens others with
  | zero => exact .exhausted
  | succ steps ih =>
    cases pattern with
    | token mustTouch expected =>
      cases h with
      | nil => exact .refused
      | @cons token other tokens others htoken hrest =>
        obtain ⟨hlexeme, htouching⟩ := hR token other htoken
        rw [read, read, hlexeme, htouching]
        split
        · exact .matched (.cons (.leaf htoken) .nil) hrest
        · exact .refused
    | empty => exact .matched .nil h
    | seq first second =>
      rw [read_seq, read_seq]
      exact (ih first h).andThen fun rest after hrest => ih second hrest
    | choice first second =>
      rw [read_choice, read_choice]
      exact (ih first h).orElse (ih second h)
    | many repeated =>
      rw [read_many, read_many]
      refine ((ih repeated h).andThen ?_).orElse (.matched .nil h)
      intro rest after hrest
      rw [h.length_eq, hrest.length_eq]
      split
      · exact ih (.many repeated) hrest
      · exact .matched .nil hrest
    | «unless» refused =>
      rw [read_unless, read_unless]
      exact (ih refused h).negated h
    | rule name =>
      rw [read_rule, read_rule]
      exact ih (body name) h
    | node label inner =>
      rw [read_node, read_node]
      exact (ih inner h).under

/-- **Tokens that agree are parsed alike**, into trees of one shape or not at all. -/
theorem Grammar.parse?_alike (grammar : Grammar ρ κ) (hR : Indistinct R) {tokens others : List Token}
    (h : List.Forall₂ R tokens others) :
    Option.Rel (List.Forall₂ (ParseTree.Alike R fun _ _ _ => True)) (grammar.parse? tokens)
      (grammar.parse? others) := by
  have hread : Reading.Alike R
      (Pattern.read grammar.body ((tokens.length + 1) * grammar.stepsPerToken) (.rule grammar.start) tokens)
      (Pattern.read grammar.body ((tokens.length + 1) * grammar.stepsPerToken) (.rule grammar.start) others) :=
    Pattern.read_alike hR _ _ h
  unfold parse?
  dsimp only
  rw [← h.length_eq]
  generalize Pattern.read grammar.body _ _ tokens = ours at hread ⊢
  generalize Pattern.read grammar.body _ _ others = theirs at hread ⊢
  cases hread with
  | exhausted => exact .none
  | refused => exact .none
  | matched htrees hrest =>
    cases hrest with
    | nil => exact .some htrees
    | cons => exact .none

end JavaAtlas.Syntax
