import JavaAtlas.Proofs.Syntax.Readings

/-!
# Derivations

What a successful reading says about the trees it builds: they are derived from the pattern, and the tokens at
their leaves are the tokens that were taken. A derivation knows nothing of steps, of choices that were tried
before, and of look-ahead, so facts about trees are proved by induction on it. The main one brings facts about
nodes down to the grammar: a node at any depth has children that are derived from a pattern which stands under
its label somewhere in the grammar.
-/

namespace JavaAtlas.Syntax

namespace ParseTree

variable {κ : Type} {tree : ParseTree κ} {trees more : List (ParseTree κ)}

@[simp] theorem tokensOfAll_nil : tokensOfAll ([] : List (ParseTree κ)) = [] := by
  rw [tokensOfAll]

@[simp] theorem tokensOfAll_cons : tokensOfAll (tree :: trees) = tree.tokens ++ tokensOfAll trees := by
  rw [tokensOfAll]

@[simp] theorem tokens_leaf {token : Token} : (leaf token : ParseTree κ).tokens = [token] := by
  rw [tokens]

@[simp] theorem tokens_node {label : κ} : (node label trees).tokens = tokensOfAll trees := by
  rw [tokens]

@[simp] theorem tokensOfAll_append : tokensOfAll (trees ++ more) = tokensOfAll trees ++ tokensOfAll more := by
  induction trees with
  | nil => simp
  | cons tree rest ih => simp [ih]

/-- A tree stands among some trees or at any depth below one of them. -/
inductive Within (tree : ParseTree κ) : List (ParseTree κ) → Prop where
  | here {trees : List (ParseTree κ)} (hmem : tree ∈ trees) : Within tree trees
  | inside {label : κ} {children trees : List (ParseTree κ)} (hmem : node label children ∈ trees)
      (hwithin : Within tree children) : Within tree trees

theorem Within.mono (h : Within tree trees) (hsub : ∀ other ∈ trees, other ∈ more) : Within tree more := by
  cases h with
  | here hmem => exact .here (hsub _ hmem)
  | inside hmem hwithin => exact .inside (hsub _ hmem) hwithin

theorem within_append : Within tree (trees ++ more) ↔ Within tree trees ∨ Within tree more := by
  constructor
  · intro h
    cases h with
    | here hmem => exact (List.mem_append.1 hmem).imp .here .here
    | inside hmem hwithin =>
      exact (List.mem_append.1 hmem).imp (.inside · hwithin) (.inside · hwithin)
  · intro h
    rcases h with h | h
    · exact h.mono fun _ hmem => List.mem_append_left more hmem
    · exact h.mono fun _ hmem => List.mem_append_right trees hmem

theorem within_node {label : κ} :
    Within tree [node label trees] ↔ tree = node label trees ∨ Within tree trees := by
  constructor
  · intro h
    cases h with
    | here hmem => exact Or.inl (List.mem_singleton.1 hmem)
    | inside hmem hwithin =>
      cases List.mem_singleton.1 hmem
      exact Or.inr hwithin
  · intro h
    rcases h with rfl | h
    · exact .here (List.mem_singleton_self _)
    · exact .inside (List.mem_singleton_self _) h

theorem not_within_nil : ¬ Within tree [] := by
  intro h
  cases h with
  | here hmem => cases hmem
  | inside hmem _ => cases hmem

theorem eq_of_within_leaf {token : Token} (h : Within tree [leaf token]) : tree = leaf token := by
  cases h with
  | here hmem => exact List.mem_singleton.1 hmem
  | inside hmem _ => cases List.mem_singleton.1 hmem

theorem Within.trans {label : κ} {children : List (ParseTree κ)} (hinner : Within tree children)
    (h : Within (node label children) trees) : Within tree trees := by
  generalize hnode : node label children = outer at h
  induction h with
  | here hmem => exact .inside (hnode ▸ hmem) hinner
  | inside hmem _ ih => exact .inside hmem ih

def children : ParseTree κ → List (ParseTree κ)
  | .leaf _ => []
  | .node _ below => below

def AllWithin (P : ParseTree κ → Prop) (trees : List (ParseTree κ)) : Prop :=
  ∀ tree, Within tree trees → P tree

section AllWithin

variable {P : ParseTree κ → Prop} {rest inside : List (ParseTree κ)} {label : κ}

theorem AllWithin.head (h : AllWithin P (tree :: rest)) : P tree :=
  h tree (.here List.mem_cons_self)

theorem AllWithin.tail (h : AllWithin P (tree :: rest)) : AllWithin P rest :=
  fun inner hinner => h inner (hinner.mono fun _ => List.mem_cons_of_mem tree)

theorem AllWithin.below (h : AllWithin P (.node label inside :: rest)) : AllWithin P inside :=
  fun inner hinner => h inner (.inside List.mem_cons_self hinner)

end AllWithin

theorem induction {P : ParseTree κ → Prop}
    (step : ∀ tree : ParseTree κ, AllWithin P tree.children → P tree) : ∀ tree, P tree := by
  -- The size decides, since a tree within others is smaller than they are.
  have hsize : ∀ {inner : ParseTree κ} {trees : List (ParseTree κ)}, Within inner trees →
      sizeOf inner < sizeOf trees := by
    intro inner trees h
    induction h with
    | here hmem => exact List.sizeOf_lt_of_mem hmem
    | inside hmem _ ih =>
      have hless := List.sizeOf_lt_of_mem hmem
      rw [node.sizeOf_spec] at hless
      omega
  intro tree
  induction hbound : sizeOf tree using Nat.strongRecOn generalizing tree with
  | ind bound ih =>
    apply step
    intro inner hinner
    refine ih (sizeOf inner) ?_ inner rfl
    have hless := hsize hinner
    cases tree with
    | leaf token => exact absurd hinner not_within_nil
    | node label below =>
      rw [node.sizeOf_spec] at hbound
      have hchildren : sizeOf (node label below).children = sizeOf below := rfl
      omega

theorem mem_tokensOfAll {token : Token} :
    token ∈ tokensOfAll trees ↔ ∃ tree ∈ trees, token ∈ tree.tokens := by
  induction trees with
  | nil => simp
  | cons first rest ih => simp [ih]

theorem exists_append_of_mem (h : tree ∈ trees) :
    ∃ before behind, tokensOfAll trees = before ++ tree.tokens ++ behind := by
  obtain ⟨front, back, rfl⟩ := List.append_of_mem h
  exact ⟨tokensOfAll front, tokensOfAll back, by simp⟩

/-- The tokens of a tree are a stretch of those of the trees that it stands among or below. -/
theorem exists_append_of_within (h : Within tree trees) :
    ∃ before behind, tokensOfAll trees = before ++ tree.tokens ++ behind := by
  induction h with
  | here hmem => exact exists_append_of_mem hmem
  | inside hmem _ ih =>
    obtain ⟨before, behind, hinside⟩ := ih
    obtain ⟨front, back, hwhole⟩ := exists_append_of_mem hmem
    exact ⟨front ++ before, behind ++ back, by simp [hwhole, hinside]⟩

theorem mem_tokensOfAll_of_within {token : Token} (htoken : token ∈ tree.tokens)
    (h : Within tree trees) : token ∈ tokensOfAll trees := by
  obtain ⟨before, behind, htokens⟩ := exists_append_of_within h
  rw [htokens]
  exact List.mem_append_left _ (List.mem_append_right _ htoken)

theorem mem_of_firstLabelled [BEq κ] [LawfulBEq κ] {label : κ} {children : List (ParseTree κ)}
    (h : firstLabelled label trees = some children) : node label children ∈ trees := by
  induction trees with
  | nil => cases h
  | cons tree rest ih =>
    cases tree with
    | leaf token => exact List.mem_cons_of_mem _ (ih h)
    | node found inner =>
      rw [firstLabelled] at h
      split at h
      · next hsame =>
        cases h
        cases eq_of_beq hsame
        exact List.mem_cons_self
      · exact List.mem_cons_of_mem _ (ih h)

theorem allLabelled_append [BEq κ] (label : κ) (front back : List (ParseTree κ)) :
    allLabelled label (front ++ back) = allLabelled label front ++ allLabelled label back := by
  induction front with
  | nil => rfl
  | cons tree front ih =>
    cases tree with
    | leaf => exact ih
    | node found children =>
      rw [List.cons_append, allLabelled, allLabelled, ih]
      split <;> rfl

end ParseTree

namespace Pattern

open ParseTree

variable {ρ κ : Type} {body : ρ → Pattern ρ κ}

/-- How a pattern comes to build some trees. -/
inductive Derives (body : ρ → Pattern ρ κ) : Pattern ρ κ → List (ParseTree κ) → Prop where
  | token {mustTouch : Bool} {expected : Expected} {token : Token}
      (haccepts : expected.accepts token.lexeme = true)
      (htouching : mustTouch = true → token.touching = true) :
      Derives body (.token mustTouch expected) [.leaf token]
  | empty : Derives body .empty []
  | seq {first second : Pattern ρ κ} {trees more : List (ParseTree κ)}
      (hfirst : Derives body first trees) (hsecond : Derives body second more) :
      Derives body (.seq first second) (trees ++ more)
  | first {first second : Pattern ρ κ} {trees : List (ParseTree κ)}
      (hfirst : Derives body first trees) : Derives body (.choice first second) trees
  | second {first second : Pattern ρ κ} {trees : List (ParseTree κ)}
      (hsecond : Derives body second trees) : Derives body (.choice first second) trees
  | never {repeated : Pattern ρ κ} : Derives body (.many repeated) []
  | again {repeated : Pattern ρ κ} {trees more : List (ParseTree κ)}
      (honce : Derives body repeated trees) (hmore : Derives body (.many repeated) more) :
      Derives body (.many repeated) (trees ++ more)
  | unless {refused : Pattern ρ κ} : Derives body (.unless refused) []
  | rule {name : ρ} {trees : List (ParseTree κ)} (hbody : Derives body (body name) trees) :
      Derives body (.rule name) trees
  | node {label : κ} {inner : Pattern ρ κ} {trees : List (ParseTree κ)}
      (hinner : Derives body inner trees) : Derives body (.node label inner) [.node label trees]

/-- **A reading derives the trees that it builds, and loses no token.** -/
theorem derives_of_read {steps : Nat} {pattern : Pattern ρ κ} {tokens rest : List Token}
    {trees : List (ParseTree κ)} (h : read body steps pattern tokens = .matched trees rest) :
    Derives body pattern trees ∧ tokens = tokensOfAll trees ++ rest := by
  -- On the steps, not on the pattern, since a rule leads to a pattern that is no part of it.
  induction steps generalizing pattern tokens trees rest with
  | zero => cases h
  | succ steps ih =>
    cases pattern with
    | token mustTouch expected =>
      cases tokens with
      | nil => cases h
      | cons next tokens =>
        rw [read] at h
        split at h
        · next hexpected =>
          cases h
          simp only [Bool.and_eq_true, Bool.or_eq_true, Bool.not_eq_true'] at hexpected
          refine ⟨.token hexpected.1 ?_, by simp⟩
          intro hmust
          exact hexpected.2.resolve_left (by simp [hmust])
        · cases h
    | empty =>
      cases h
      exact ⟨.empty, by simp⟩
    | seq first second =>
      rw [read_seq, Reading.andThen_eq_matched_iff] at h
      obtain ⟨front, left, back, hfirst, hsecond, rfl⟩ := h
      obtain ⟨hderives₁, htokens₁⟩ := ih hfirst
      obtain ⟨hderives₂, htokens₂⟩ := ih hsecond
      exact ⟨.seq hderives₁ hderives₂, by rw [htokens₁, htokens₂]; simp⟩
    | choice first second =>
      rw [read_choice, Reading.orElse_eq_matched_iff] at h
      rcases h with hfirst | ⟨-, hsecond⟩
      · exact ⟨.first (ih hfirst).1, (ih hfirst).2⟩
      · exact ⟨.second (ih hsecond).1, (ih hsecond).2⟩
    | many repeated =>
      rw [read_many, Reading.orElse_eq_matched_iff, Reading.andThen_eq_matched_iff] at h
      rcases h with ⟨front, left, back, honce, hmore, rfl⟩ | ⟨-, hnone⟩
      · obtain ⟨hderives₁, htokens₁⟩ := ih honce
        split at hmore
        · obtain ⟨hderives₂, htokens₂⟩ := ih hmore
          exact ⟨.again hderives₁ hderives₂, by rw [htokens₁, htokens₂]; simp⟩
        · cases hmore
          exact ⟨.again hderives₁ .never, by simpa using htokens₁⟩
      · cases hnone
        exact ⟨.never, by simp⟩
    | «unless» refused =>
      rw [read_unless, Reading.negated_eq_matched_iff] at h
      obtain ⟨-, rfl, rfl⟩ := h
      exact ⟨.unless, by simp⟩
    | rule name =>
      rw [read_rule] at h
      exact ⟨.rule (ih h).1, (ih h).2⟩
    | node label inner =>
      rw [read_node, Reading.under_eq_matched_iff] at h
      obtain ⟨children, hinner, rfl⟩ := h
      obtain ⟨hderives, htokens⟩ := ih hinner
      exact ⟨.node hderives, by simpa using htokens⟩

theorem length_le_of_read {steps : Nat} {pattern : Pattern ρ κ} {tokens rest : List Token} {trees : List (ParseTree κ)}
    (h : read body steps pattern tokens = .matched trees rest) : rest.length ≤ tokens.length := by
  rw [(derives_of_read h).2, List.length_append]
  exact Nat.le_add_left _ _

/-- Whether every pattern that stands under a label inside a pattern satisfies a condition with its label. -/
def eachNode (condition : κ → Pattern ρ κ → Bool) : Pattern ρ κ → Bool
  | .token .. => true
  | .empty => true
  | .seq first second => first.eachNode condition && second.eachNode condition
  | .choice first second => first.eachNode condition && second.eachNode condition
  | .many repeated => repeated.eachNode condition
  | .unless _ => true
  | .rule _ => true
  | .node label inner => condition label inner && inner.eachNode condition

/-- **A node is derived from a pattern that stands under its label.** -/
theorem Derives.of_within {condition : κ → Pattern ρ κ → Bool} {pattern : Pattern ρ κ}
    {trees : List (ParseTree κ)} (h : Derives body pattern trees)
    (hbody : ∀ name, (body name).eachNode condition = true)
    (hpattern : pattern.eachNode condition = true) {label : κ} {children : List (ParseTree κ)}
    (hwithin : Within (.node label children) trees) :
    ∃ inner, condition label inner = true ∧ Derives body inner children := by
  induction h with
  | token haccepts htouching => cases eq_of_within_leaf hwithin
  | empty => exact absurd hwithin not_within_nil
  | seq hfirst hsecond ih₁ ih₂ =>
    rw [eachNode, Bool.and_eq_true] at hpattern
    rcases within_append.1 hwithin with hwithin | hwithin
    · exact ih₁ hpattern.1 hwithin
    · exact ih₂ hpattern.2 hwithin
  | first hfirst ih =>
    rw [eachNode, Bool.and_eq_true] at hpattern
    exact ih hpattern.1 hwithin
  | second hsecond ih =>
    rw [eachNode, Bool.and_eq_true] at hpattern
    exact ih hpattern.2 hwithin
  | never => exact absurd hwithin not_within_nil
  | again honce hmore ih₁ ih₂ =>
    rcases within_append.1 hwithin with hwithin | hwithin
    · exact ih₁ hpattern hwithin
    · exact ih₂ hpattern hwithin
  | «unless» => exact absurd hwithin not_within_nil
  | rule hrule ih => exact ih (hbody _) hwithin
  -- The node itself shows its pattern; what is below it is found in the derivation of its children.
  | node hinner ih =>
    rw [eachNode, Bool.and_eq_true] at hpattern
    rcases within_node.1 hwithin with heq | hwithin
    · cases heq
      exact ⟨_, hpattern.1, hinner⟩
    · exact ih hpattern.2 hwithin

/-! ### Derivations of small patterns -/

theorem derives_token {mustTouch : Bool} {expected : Expected} {trees : List (ParseTree κ)}
    (h : Derives body (.token mustTouch expected) trees) :
    ∃ token, trees = [.leaf token] ∧ expected.accepts token.lexeme = true := by
  cases h with
  | token haccepts _ => exact ⟨_, rfl, haccepts⟩

theorem derives_word {spelling : String} {trees : List (ParseTree κ)}
    (h : Derives body (word spelling) trees) :
    ∃ token, trees = [.leaf token] ∧ token.lexeme = .word spelling := by
  obtain ⟨token, htrees, haccepts⟩ := derives_token h
  refine ⟨token, htrees, ?_⟩
  cases hlexeme : token.lexeme with
  | word found =>
    rw [hlexeme] at haccepts
    have hfound : found = spelling := by simpa [Expected.accepts] using haccepts
    rw [hfound]
  | _ =>
    rw [hlexeme] at haccepts
    cases haccepts

theorem derives_name {except : List String} {trees : List (ParseTree κ)}
    (h : Derives body (name except) trees) :
    ∃ token spelling, trees = [.leaf token] ∧ token.lexeme = .word spelling := by
  obtain ⟨token, htrees, haccepts⟩ := derives_token h
  cases hlexeme : token.lexeme with
  | word found => exact ⟨token, found, htrees, hlexeme⟩
  | _ =>
    rw [hlexeme] at haccepts
    cases haccepts

theorem derives_symbol {spelling : String} {trees : List (ParseTree κ)}
    (h : Derives body (symbol spelling) trees) :
    ∃ token, trees = [.leaf token] ∧ token.lexeme = .symbol spelling := by
  obtain ⟨token, htrees, haccepts⟩ := derives_token h
  exact ⟨token, htrees, (beq_iff_eq.1 haccepts).symm⟩

theorem derives_seq {first second : Pattern ρ κ} {trees : List (ParseTree κ)}
    (h : Derives body (.seq first second) trees) :
    ∃ front back, trees = front ++ back ∧ Derives body first front ∧ Derives body second back := by
  cases h with
  | seq hfirst hsecond => exact ⟨_, _, rfl, hfirst, hsecond⟩

theorem derives_rule {name : ρ} {trees : List (ParseTree κ)} (h : Derives body (.rule name) trees) :
    Derives body (body name) trees := by
  cases h with
  | rule hbody => exact hbody

theorem derives_node {label : κ} {inner : Pattern ρ κ} {trees : List (ParseTree κ)}
    (h : Derives body (.node label inner) trees) :
    ∃ children, trees = [.node label children] ∧ Derives body inner children := by
  cases h with
  | node hinner => exact ⟨_, rfl, hinner⟩

theorem derives_optional {pattern : Pattern ρ κ} {trees : List (ParseTree κ)}
    (h : Derives body (optional pattern) trees) : trees = [] ∨ Derives body pattern trees := by
  cases h with
  | first hfirst => exact Or.inr hfirst
  | second hsecond =>
    cases hsecond
    exact Or.inl rfl

/-- What holds of no trees, and of some trees with a round of a repetition in front of them, holds of the trees of the
repetition. -/
@[elab_as_elim]
theorem Derives.many_induction {P : List (ParseTree κ) → Prop} {repeated : Pattern ρ κ} {trees : List (ParseTree κ)}
    (h : Derives body (.many repeated) trees) (nil : P [])
    (round : ∀ once more, Derives body repeated once → P more → P (once ++ more)) : P trees := by
  generalize hpattern : Pattern.many repeated = pattern at h
  induction h with
  | never => exact nil
  | again honce _ _ ih =>
    cases hpattern
    exact round _ _ honce (ih rfl)
  | _ => cases hpattern

/-- What holds of every tree that one round of a repetition builds holds of all trees of the repetition. -/
theorem forall_of_derives_many {P : ParseTree κ → Prop} {repeated : Pattern ρ κ}
    {trees : List (ParseTree κ)}
    (hround : ∀ trees, Derives body repeated trees → ∀ tree ∈ trees, P tree)
    (h : Derives body (.many repeated) trees) : ∀ tree ∈ trees, P tree := by
  refine h.many_induction ?_ ?_
  · intro tree hmem
    cases hmem
  · intro once more honce ih tree hmem
    rcases List.mem_append.1 hmem with hmem | hmem
    · exact hround once honce tree hmem
    · exact ih tree hmem

end Pattern

/-- The trees of a whole list of tokens are derived from the first rule and have just these tokens. -/
theorem Grammar.derives_of_parse? {ρ κ : Type} {grammar : Grammar ρ κ} {tokens : List Token}
    {trees : List (ParseTree κ)} (h : grammar.parse? tokens = some trees) :
    Pattern.Derives grammar.body (.rule grammar.start) trees ∧
      ParseTree.tokensOfAll trees = tokens := by
  unfold parse? at h
  dsimp only at h
  split at h
  · next found hread =>
    cases h
    obtain ⟨hderives, htokens⟩ := Pattern.derives_of_read hread
    exact ⟨hderives, by simpa using htokens.symm⟩
  · cases h

end JavaAtlas.Syntax
