import JavaAtlas.Syntax.Pattern

/-!
# How readings are put together

What a pattern reads comes out of what its parts read in four ways: going on behind a match, taking another reading for
a refusal, turning a match around, and gathering the trees of a match under a label. They are operations on readings
here, and each construct of patterns has an equation in them. So what holds of all readings is one lemma for each
operation, and an induction on the steps that puts them together.
-/

namespace JavaAtlas.Syntax

variable {ρ κ : Type}

namespace Reading

/-- Goes on with the tokens that a match leaves, and keeps the trees of both. -/
def andThen (reading : Reading κ) (next : List Token → Reading κ) : Reading κ :=
  match reading with
  | .matched trees rest =>
    match next rest with
    | .matched more rest => .matched (trees ++ more) rest
    | other => other
  | other => other

/-- Takes another reading for a refusal. -/
def orElse (reading other : Reading κ) : Reading κ :=
  match reading with
  | .refused => other
  | found => found

/-- Passes over nothing in front of some tokens for a refusal, and refuses for a match. -/
def negated (reading : Reading κ) (tokens : List Token) : Reading κ :=
  match reading with
  | .matched _ _ => .refused
  | .refused => .matched [] tokens
  | .exhausted => .exhausted

/-- Gathers the trees of a match under a label. -/
def under (reading : Reading κ) (label : κ) : Reading κ :=
  match reading with
  | .matched trees rest => .matched [.node label trees] rest
  | other => other

variable {reading other : Reading κ} {next : List Token → Reading κ} {trees : List (ParseTree κ)}
  {tokens rest : List Token} {label : κ}

theorem exhausted_andThen : (exhausted : Reading κ).andThen next = .exhausted :=
  rfl

theorem refused_andThen : (refused : Reading κ).andThen next = .refused :=
  rfl

theorem matched_nil_andThen : (matched [] tokens).andThen next = next tokens := by
  unfold andThen
  dsimp only
  cases next tokens <;> rfl

theorem exhausted_orElse : (exhausted : Reading κ).orElse other = .exhausted :=
  rfl

theorem refused_orElse : (refused : Reading κ).orElse other = other :=
  rfl

theorem matched_orElse : (matched trees rest).orElse other = .matched trees rest :=
  rfl

theorem exhausted_under : (exhausted : Reading κ).under label = .exhausted :=
  rfl

/-! ### Where a reading matches -/

theorem andThen_eq_matched_iff : reading.andThen next = .matched trees rest ↔
    ∃ front left back, reading = .matched front left ∧ next left = .matched back rest ∧ trees = front ++ back := by
  constructor
  · intro h
    cases reading with
    | exhausted => cases h
    | refused => cases h
    | matched front left =>
      rw [andThen] at h
      cases hnext : next left with
      | exhausted => rw [hnext] at h; cases h
      | refused => rw [hnext] at h; cases h
      | matched back after =>
        rw [hnext] at h
        cases h
        exact ⟨front, left, back, rfl, hnext, rfl⟩
  · rintro ⟨front, left, back, rfl, hnext, rfl⟩
    simp only [andThen, hnext]

theorem orElse_eq_matched_iff : reading.orElse other = .matched trees rest ↔
    reading = .matched trees rest ∨ reading = .refused ∧ other = .matched trees rest := by
  cases reading <;> simp [orElse]

theorem negated_eq_matched_iff : reading.negated tokens = .matched trees rest ↔
    reading = .refused ∧ trees = [] ∧ rest = tokens := by
  cases reading <;> simp [negated, eq_comm]

theorem under_eq_matched_iff : reading.under label = .matched trees rest ↔
    ∃ children, reading = .matched children rest ∧ trees = [.node label children] := by
  constructor
  · intro h
    cases reading with
    | exhausted => cases h
    | refused => cases h
    | matched children left =>
      cases h
      exact ⟨children, rfl, rfl⟩
  · rintro ⟨children, rfl, rfl⟩
    rfl

/-! ### Where a reading has no answer -/

theorem andThen_ne_exhausted (h : reading ≠ .exhausted)
    (hnext : ∀ trees rest, reading = .matched trees rest → next rest ≠ .exhausted) :
    reading.andThen next ≠ .exhausted := by
  cases reading with
  | exhausted => exact absurd rfl h
  | refused => simp [andThen]
  | matched trees rest =>
    have hrest := hnext trees rest rfl
    rw [andThen]
    cases hread : next rest with
    | exhausted => exact absurd hread hrest
    | refused => simp
    | matched => simp

theorem orElse_ne_exhausted (h : reading ≠ .exhausted) (hother : other ≠ .exhausted) :
    reading.orElse other ≠ .exhausted := by
  cases reading with
  | exhausted => exact absurd rfl h
  | refused => exact hother
  | matched => simp [orElse]

theorem negated_eq_exhausted_iff : reading.negated tokens = .exhausted ↔ reading = .exhausted := by
  cases reading <;> simp [negated]

theorem under_eq_exhausted_iff : reading.under label = .exhausted ↔ reading = .exhausted := by
  cases reading <;> simp [under]

end Reading

namespace Pattern

variable {body : ρ → Pattern ρ κ} {steps : Nat} {p q : Pattern ρ κ} {tokens : List Token}

/-! ### What a pattern reads -/

theorem read_seq : read body (steps + 1) (.seq p q) tokens = (read body steps p tokens).andThen (read body steps q) :=
  rfl

theorem read_choice :
    read body (steps + 1) (.choice p q) tokens = (read body steps p tokens).orElse (read body steps q tokens) :=
  rfl

theorem read_unless : read body (steps + 1) (.unless p) tokens = (read body steps p tokens).negated tokens :=
  rfl

theorem read_node {label : κ} : read body (steps + 1) (.node label p) tokens = (read body steps p tokens).under label :=
  rfl

theorem read_rule {name : ρ} : read body (steps + 1) (.rule name) tokens = read body steps (body name) tokens :=
  rfl

/-- A repetition takes what it can, and so never refuses. -/
theorem read_many_ne_refused : read body steps (.many p) tokens ≠ .refused := by
  induction steps generalizing tokens with
  | zero => simp [read]
  | succ steps ih =>
    rw [read]
    split
    · next trees rest _ =>
      split
      · cases hmore : read body steps (.many p) rest with
        | refused => exact absurd hmore ih
        | exhausted => simp
        | matched => simp
      · simp
    · simp
    · simp

/-- A repetition is a round and the others behind it, or nothing. A round that takes no token is the last. -/
theorem read_many : read body (steps + 1) (.many p) tokens =
    ((read body steps p tokens).andThen fun rest =>
      if rest.length < tokens.length then read body steps (.many p) rest else .matched [] rest).orElse
        (.matched [] tokens) := by
  rw [read]
  cases read body steps p tokens with
  | exhausted => rfl
  | refused => rfl
  | matched trees rest =>
    dsimp only [Reading.andThen]
    split
    · cases hmore : read body steps (.many p) rest with
      | refused => exact absurd hmore read_many_ne_refused
      | exhausted => rfl
      | matched more rest => rfl
    · simp only [Reading.orElse, List.append_nil]

end Pattern

end JavaAtlas.Syntax
