import JavaAtlas.Proofs.Syntax.Content

/-!
# What reading comes to

The readings of a pattern differ in their allowance of steps only, and it changes nothing but whether they come to an
end. So an answer can be put together from the answers of smaller patterns with no count of steps: a sequence reads what
its parts read one after the other, a choice reads what its second pattern reads if the first one refuses.
-/

namespace JavaAtlas.Syntax.Pattern

open ParseTree

variable {ρ κ : Type} {body : ρ → Pattern ρ κ} {p q : Pattern ρ κ}
  {trees more : List (ParseTree κ)} {tree : ParseTree κ} {tokens rest : List Token}

/-- Reading some tokens by a pattern comes to this, unless the allowance runs out. -/
def Answers (body : ρ → Pattern ρ κ) (p : Pattern ρ κ) (tokens : List Token) (reading : Reading κ) : Prop :=
  ∀ steps, read body steps p tokens = .exhausted ∨ read body steps p tokens = reading

def Refuses (body : ρ → Pattern ρ κ) (p : Pattern ρ κ) (tokens : List Token) : Prop :=
  Answers body p tokens .refused

/-- A pattern reads some trees where their tokens are followed by others. -/
def Reads (body : ρ → Pattern ρ κ) (p : Pattern ρ κ) (trees : List (ParseTree κ)) (rest : List Token) : Prop :=
  Answers body p (tokensOfAll trees ++ rest) (.matched trees rest)

namespace Answers

variable {reading : Reading κ}

/-- It is enough to look at a reading that makes one step at least. -/
theorem intro (h : ∀ steps, read body (steps + 1) p tokens = .exhausted ∨ read body (steps + 1) p tokens = reading) :
    Answers body p tokens reading := by
  intro steps
  cases steps with
  | zero => exact Or.inl rfl
  | succ steps => exact h steps

theorem seq (next : List Token → Reading κ) (hfirst : Answers body p tokens reading)
    (hsecond : ∀ trees rest, reading = .matched trees rest → Answers body q rest (next rest)) :
    Answers body (.seq p q) tokens (reading.andThen next) := by
  refine intro fun steps => ?_
  rw [read_seq]
  rcases hfirst steps with hends | hfound
  · exact Or.inl (by rw [hends, Reading.exhausted_andThen])
  rw [hfound]
  cases reading with
  | exhausted | refused => exact Or.inr rfl
  | matched trees rest =>
    rcases hsecond trees rest rfl steps with hends | hmore
    · exact Or.inl (by rw [Reading.andThen, hends])
    · exact Or.inr (by rw [Reading.andThen, Reading.andThen, hmore])

theorem choice (other : Reading κ) (hfirst : Answers body p tokens reading)
    (hsecond : reading = .refused → Answers body q tokens other) :
    Answers body (.choice p q) tokens (reading.orElse other) := by
  refine intro fun steps => ?_
  rw [read_choice]
  rcases hfirst steps with hends | hfound
  · exact Or.inl (by rw [hends, Reading.exhausted_orElse])
  rw [hfound]
  cases reading with
  | exhausted | matched => exact Or.inr rfl
  | refused => exact hsecond rfl steps

theorem node {label : κ} (h : Answers body p tokens reading) :
    Answers body (.node label p) tokens (reading.under label) := by
  refine intro fun steps => ?_
  rw [read_node]
  rcases h steps with hends | hfound
  · exact Or.inl (by rw [hends, Reading.exhausted_under])
  · exact Or.inr (by rw [hfound])

end Answers

namespace Reads

theorem token {mustTouch : Bool} {expected : Expected} {token : Token}
    (haccepts : expected.accepts token.lexeme = true) (htouching : (!mustTouch || token.touching) = true) :
    Reads body (.token mustTouch expected) [.leaf token] rest := by
  refine Answers.intro fun steps => Or.inr ?_
  rw [tokensOfAll_cons, tokens_leaf, tokensOfAll_nil, List.append_nil, List.singleton_append, read, haccepts, htouching]
  rfl

theorem empty : Reads body .empty [] rest :=
  Answers.intro fun _ => Or.inr rfl

theorem seq (hfirst : Reads body p trees (tokensOfAll more ++ rest)) (hsecond : Reads body q more rest) :
    Reads body (.seq p q) (trees ++ more) rest := by
  rw [Reads, tokensOfAll_append, List.append_assoc]
  refine Answers.seq (fun _ => .matched more rest) hfirst ?_
  rintro _ _ ⟨⟩
  exact hsecond

/-- A sequence whose first pattern reads a single tree. -/
theorem cons (hfirst : Reads body p [tree] (tokensOfAll more ++ rest)) (hsecond : Reads body q more rest) :
    Reads body (.seq p q) (tree :: more) rest :=
  seq hfirst hsecond

/-- A sequence whose first pattern passes over nothing. -/
theorem pass (hfirst : Reads body p [] (tokensOfAll trees ++ rest)) (hsecond : Reads body q trees rest) :
    Reads body (.seq p q) trees rest :=
  seq hfirst hsecond

/-- A sequence whose last pattern passes over nothing. -/
theorem last (hfirst : Reads body p trees rest) (hsecond : Reads body q [] rest) :
    Reads body (.seq p q) trees rest := by
  have hboth : Reads body (.seq p q) (trees ++ []) rest := seq hfirst hsecond
  rwa [List.append_nil] at hboth

theorem first (hfirst : Reads body p trees rest) : Reads body (.choice p q) trees rest :=
  Answers.choice .refused hfirst nofun

theorem second (hfirst : Refuses body p (tokensOfAll trees ++ rest)) (hsecond : Reads body q trees rest) :
    Reads body (.choice p q) trees rest :=
  Answers.choice _ hfirst fun _ => hsecond

theorem many_nil (h : Refuses body p rest) : Reads body (.many p) [] rest := by
  refine Answers.intro fun steps => ?_
  rw [tokensOfAll_nil, List.nil_append, read_many]
  rcases h steps with hends | hrefuses
  · exact Or.inl (by rw [hends, Reading.exhausted_andThen, Reading.exhausted_orElse])
  · exact Or.inr (by rw [hrefuses, Reading.refused_andThen, Reading.refused_orElse])

section

variable {taking : ρ → Bool} (htaking : ∀ name, taking name = true → (body name).takes taking = true)
  (hp : p.takes taking = true)

include htaking hp

/-- A round of a repetition is followed by the others if its pattern always takes a token. -/
theorem many_append (hround : Reads body p trees (tokensOfAll more ++ rest)) (hmore : Reads body (.many p) more rest) :
    Reads body (.many p) (trees ++ more) rest := by
  refine Answers.intro fun steps => ?_
  rw [tokensOfAll_append, List.append_assoc, read_many]
  rcases hround steps with hends | hround
  · exact Or.inl (by rw [hends, Reading.exhausted_andThen, Reading.exhausted_orElse])
  rw [hround, Reading.andThen, if_pos (length_lt_of_takes htaking hp hround)]
  rcases hmore steps with hends | hmore
  · exact Or.inl (by rw [hends, Reading.exhausted_orElse])
  · exact Or.inr (by rw [hmore, Reading.matched_orElse])

/-- A repetition reads the trees of many items. What follows an item is the next one or what follows them all, so
reading an item may count on anything that holds of both. -/
theorem many_flatMap {α : Type} {items : List α} {treesOf : α → List (ParseTree κ)} {P : List Token → Prop}
    (hrest : P rest) (hstop : Refuses body p rest)
    (hround : ∀ item ∈ items, ∀ after, P after → Reads body p (treesOf item) after)
    (hnext : ∀ item ∈ items, ∀ after, P (tokensOfAll (treesOf item) ++ after)) :
    Reads body (.many p) (items.flatMap treesOf) rest ∧ P (tokensOfAll (items.flatMap treesOf) ++ rest) := by
  induction items with
  | nil => exact ⟨many_nil hstop, by simpa using hrest⟩
  | cons item items ih =>
    obtain ⟨hmany, hmore⟩ := ih (fun other hmem => hround other (List.mem_cons_of_mem _ hmem))
      (fun other hmem => hnext other (List.mem_cons_of_mem _ hmem))
    rw [List.flatMap_cons, tokensOfAll_append, List.append_assoc]
    exact ⟨many_append htaking hp (hround item List.mem_cons_self _ hmore) hmany, hnext item List.mem_cons_self _⟩

end

theorem rule {name : ρ} (h : Reads body (body name) trees rest) : Reads body (.rule name) trees rest :=
  Answers.intro fun steps => h steps

theorem node {label : κ} (h : Reads body p trees rest) : Reads body (.node label p) [.node label trees] rest := by
  rw [Reads, tokensOfAll_cons, tokens_node, tokensOfAll_nil, List.append_nil]
  exact Answers.node h

end Reads

namespace Refuses

theorem seq_first (h : Refuses body p tokens) : Refuses body (.seq p q) tokens :=
  Answers.seq (fun _ => .refused) h nofun

theorem seq_second (hfirst : Reads body p trees rest) (hsecond : Refuses body q rest) :
    Refuses body (.seq p q) (tokensOfAll trees ++ rest) := by
  refine Answers.seq (fun _ => .refused) hfirst ?_
  rintro _ _ ⟨⟩
  exact hsecond

theorem seq_pass (hfirst : Reads body p [] tokens) (hsecond : Refuses body q tokens) : Refuses body (.seq p q) tokens :=
  seq_second hfirst hsecond

theorem seq_cons (hfirst : Reads body p [tree] (tokensOfAll more ++ rest))
    (hsecond : Refuses body q (tokensOfAll more ++ rest)) :
    Refuses body (.seq p q) (tokensOfAll (tree :: more) ++ rest) := by
  rw [← List.singleton_append, tokensOfAll_append, List.append_assoc]
  exact seq_second hfirst hsecond

theorem choice (hfirst : Refuses body p tokens) (hsecond : Refuses body q tokens) :
    Refuses body (.choice p q) tokens :=
  Answers.choice _ hfirst fun _ => hsecond

theorem rule {name : ρ} (h : Refuses body (body name) tokens) : Refuses body (.rule name) tokens :=
  Answers.intro fun steps => h steps

theorem node {label : κ} (h : Refuses body p tokens) : Refuses body (.node label p) tokens :=
  Answers.node h

/-- What always takes a token refuses where there is none. -/
theorem nil {taking : ρ → Bool} (htaking : ∀ name, taking name = true → (body name).takes taking = true)
    (hp : p.takes taking = true) : Refuses body p [] := by
  intro steps
  cases hread : read body steps p [] with
  | exhausted => exact Or.inl rfl
  | refused => exact Or.inr rfl
  | matched trees rest =>
    obtain ⟨hderives, htokens⟩ := derives_of_read hread
    exact absurd (List.append_eq_nil_iff.1 htokens.symm).1 (hderives.tokens_ne_nil htaking hp)

end Refuses

end JavaAtlas.Syntax.Pattern
