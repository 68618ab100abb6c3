import JavaAtlas.Proofs.Syntax.Answers

/-!
# What is foreseen from the next tokens

Most alternatives of a choice are refused at the first token or at the second. Whether that is so can be computed from
the pattern and from what is known of these tokens: each is a certain lexeme, or a word that no rule speaks of.
`foresee` is reading on such knowledge, and says nothing where the knowledge runs out; `skip` drops from a pattern the
alternatives that it sees refused, and the parts that it sees passed over.
-/

namespace JavaAtlas.Syntax

open ParseTree

/-- What is known of a token: its lexeme, or that it is a word outside some vocabulary. -/
inductive Kind where
  | exactly (lexeme : Lexeme)
  | plain
deriving DecidableEq, Repr

namespace Kind

/-- Whether a lexeme is of a kind, for a vocabulary. -/
def Fits (vocabulary : List String) : Kind → Lexeme → Prop
  | .exactly wanted, lexeme => lexeme = wanted
  | .plain, lexeme => ∃ spelling, lexeme = .word spelling ∧ spelling ∉ vocabulary

/-- Whether a token of a kind is what is asked for, where this can be told. -/
def accepted? (vocabulary : List String) : Kind → Expected → Option Bool
  | .exactly lexeme, expected => some (expected.accepts lexeme)
  | .plain, .word spellings => if spellings.all vocabulary.contains then some false else none
  | .plain, .name except => if except.all vocabulary.contains then some true else none
  | .plain, .starting _ => none
  | .plain, .exactly (.word _) => none
  | .plain, .exactly _ => some false

variable {vocabulary : List String} {kind : Kind} {lexeme : Lexeme} {expected : Expected} {answer : Bool}

theorem accepts_eq (hfits : kind.Fits vocabulary lexeme) (h : kind.accepted? vocabulary expected = some answer) :
    expected.accepts lexeme = answer := by
  cases kind with
  | exactly wanted =>
    cases hfits
    exact Option.some.inj h
  | plain =>
    obtain ⟨spelling, rfl, houtside⟩ := hfits
    have hnone {words : List String} (hwords : words.all vocabulary.contains = true) :
        words.contains spelling = false := by
      rw [Bool.eq_false_iff]
      intro hmem
      exact houtside (List.contains_iff_mem.1 (List.all_eq_true.1 hwords spelling (List.contains_iff_mem.1 hmem)))
    cases expected with
    | word spellings =>
      rw [accepted?] at h
      split at h
      · next hwords =>
        cases h
        exact hnone hwords
      · cases h
    | name except =>
      rw [accepted?] at h
      split at h
      · next hwords =>
        cases h
        rw [Expected.accepts, hnone hwords, Bool.not_false]
      · cases h
    | starting stem => cases h
    | exactly wanted =>
      cases wanted with
      | word => cases h
      | _ =>
        cases h
        rfl

end Kind

/-- The first of some tokens are of the given kinds. -/
def Begins (vocabulary : List String) : List Kind → List Token → Prop
  | [], _ => True
  | _ :: _, [] => False
  | kind :: kinds, token :: tokens => kind.Fits vocabulary token.lexeme ∧ Begins vocabulary kinds tokens

/-- How reading ends as far as it is foreseen: a match takes no token, or it leaves tokens of the given kinds. -/
inductive Outlook where
  | unknown
  | refused
  | passed
  | took (left : List Kind)
deriving DecidableEq, Repr

namespace Outlook

/-- Goes on from the same tokens behind what takes none, and from the tokens left behind what takes some. -/
def andThen (outlook here : Outlook) (behind : List Kind → Outlook) : Outlook :=
  match outlook with
  | .passed => here
  | .took left =>
    match behind left with
    | .passed => .took left
    | other => other
  | other => other

/-- Takes another outlook for a refusal. -/
def orElse (outlook other : Outlook) : Outlook :=
  match outlook with
  | .refused => other
  | found => found

/-- A repetition passes over nothing where its pattern is refused, and is not followed any further. -/
def repeated : Outlook → Outlook
  | .refused => .passed
  | _ => .unknown

def negated : Outlook → Outlook
  | .refused => .passed
  | .unknown => .unknown
  | _ => .refused

/-- A node takes a place among the trees, even where it takes no token. -/
def under : Outlook → Outlook
  | .passed => .unknown
  | other => other

end Outlook

namespace Pattern

section

variable {ρ κ : Type} (body : ρ → Pattern ρ κ) (vocabulary : List String)

/-- Reads what is known of the next tokens by a pattern, to a given depth. -/
def foresee : Nat → List Kind → Pattern ρ κ → Outlook
  | 0, _, _ => .unknown
  | depth + 1, kinds, pattern =>
    match pattern with
    | .token mustTouch expected =>
      match kinds with
      | [] => .unknown
      | kind :: left =>
        match kind.accepted? vocabulary expected with
        | some true => if mustTouch then .unknown else .took left
        | some false => .refused
        | none => .unknown
    | .empty => .passed
    | .seq first second =>
      match foresee depth kinds first with
      | .passed => foresee depth kinds second
      | .took left =>
        match foresee depth left second with
        | .passed => .took left
        | other => other
      | other => other
    | .choice first second =>
      match foresee depth kinds first with
      | .refused => foresee depth kinds second
      | other => other
    | .many repeated =>
      match foresee depth kinds repeated with
      | .refused => .passed
      | _ => .unknown
    | .unless refused =>
      match foresee depth kinds refused with
      | .refused => .passed
      | .unknown => .unknown
      | _ => .refused
    | .rule name => foresee depth kinds (body name)
    | .node _ inner =>
      match foresee depth kinds inner with
      | .passed => .unknown
      | other => other

/-- A pattern without the alternatives that are refused where tokens of the given kinds stand, and without what is
passed over there. -/
def skip (depth : Nat) (kinds : List Kind) : Pattern ρ κ → Pattern ρ κ
  | .choice first second =>
    if foresee body vocabulary depth kinds first = .refused then skip depth kinds second else .choice first second
  | .seq first second =>
    if foresee body vocabulary depth kinds first = .passed then skip depth kinds second else .seq first second
  | .node label inner => .node label (skip depth kinds inner)
  | other => other

end

/-- The alternative that a pattern tries first. -/
def foremost {ρ κ : Type} : Pattern ρ κ → Pattern ρ κ
  | .choice first _ => first
  | other => other

variable {ρ κ : Type} {body : ρ → Pattern ρ κ} {vocabulary : List String} {depth steps : Nat} {kinds : List Kind}
  {p : Pattern ρ κ} {tokens : List Token}

/-- A reading is as foreseen, unless the allowance runs out. -/
inductive Foreseen (vocabulary : List String) (tokens : List Token) : Outlook → Reading κ → Prop where
  | unknown (reading : Reading κ) : Foreseen vocabulary tokens .unknown reading
  | exhausted (outlook : Outlook) : Foreseen vocabulary tokens outlook .exhausted
  | refused : Foreseen vocabulary tokens .refused .refused
  | passed : Foreseen vocabulary tokens .passed (.matched [] tokens)
  | took {left : List Kind} {trees : List (ParseTree κ)} {rest : List Token} (hrest : Begins vocabulary left rest) :
      Foreseen vocabulary tokens (.took left) (.matched trees rest)

/-! ### What is foreseen of readings that are put together -/

theorem foresee_seq {p q : Pattern ρ κ} : foresee body vocabulary (depth + 1) kinds (.seq p q) =
    (foresee body vocabulary depth kinds p).andThen (foresee body vocabulary depth kinds q)
      (foresee body vocabulary depth · q) :=
  rfl

theorem foresee_choice {p q : Pattern ρ κ} : foresee body vocabulary (depth + 1) kinds (.choice p q) =
    (foresee body vocabulary depth kinds p).orElse (foresee body vocabulary depth kinds q) :=
  rfl

theorem foresee_many :
    foresee body vocabulary (depth + 1) kinds (.many p) = (foresee body vocabulary depth kinds p).repeated :=
  rfl

theorem foresee_unless :
    foresee body vocabulary (depth + 1) kinds (.unless p) = (foresee body vocabulary depth kinds p).negated :=
  rfl

theorem foresee_node {label : κ} :
    foresee body vocabulary (depth + 1) kinds (.node label p) = (foresee body vocabulary depth kinds p).under :=
  rfl

namespace Foreseen

variable {outlook other : Outlook} {reading reading' : Reading κ}

theorem eq_of_refused (h : Foreseen vocabulary tokens .refused reading) : reading = .exhausted ∨ reading = .refused := by
  cases h with
  | exhausted => exact Or.inl rfl
  | refused => exact Or.inr rfl

theorem eq_of_passed (h : Foreseen vocabulary tokens .passed reading) :
    reading = .exhausted ∨ reading = .matched [] tokens := by
  cases h with
  | exhausted => exact Or.inl rfl
  | passed => exact Or.inr rfl

theorem andThen {here : Outlook} {behind : List Kind → Outlook} {next : List Token → Reading κ}
    (h : Foreseen vocabulary tokens outlook reading) (hhere : Foreseen vocabulary tokens here (next tokens))
    (hbehind : ∀ left rest, Begins vocabulary left rest → Foreseen vocabulary rest (behind left) (next rest)) :
    Foreseen vocabulary tokens (outlook.andThen here behind) (reading.andThen next) := by
  cases h with
  | unknown => exact .unknown _
  | exhausted => exact .exhausted _
  | refused => exact .refused
  | passed =>
    rw [Reading.matched_nil_andThen]
    exact hhere
  | @took left trees rest hleft =>
    have hmore := hbehind left rest hleft
    unfold Outlook.andThen Reading.andThen
    dsimp only
    generalize behind left = outlook at hmore ⊢
    generalize next rest = reading at hmore ⊢
    cases hmore with
    | unknown => exact .unknown _
    | exhausted => exact .exhausted _
    | refused => exact .refused
    | passed => exact .took hleft
    | took hafter => exact .took hafter

theorem orElse (h : Foreseen vocabulary tokens outlook reading) (hother : Foreseen vocabulary tokens other reading') :
    Foreseen vocabulary tokens (outlook.orElse other) (reading.orElse reading') := by
  cases h with
  | unknown => exact .unknown _
  | exhausted => exact .exhausted _
  | refused => exact hother
  | passed => exact .passed
  | took hafter => exact .took hafter

theorem repeated {next : List Token → Reading κ} (h : Foreseen vocabulary tokens outlook reading) :
    Foreseen vocabulary tokens outlook.repeated ((reading.andThen next).orElse (.matched [] tokens)) := by
  cases h with
  | exhausted => exact .exhausted _
  | refused => exact .passed
  | _ => exact .unknown _

theorem negated (h : Foreseen vocabulary tokens outlook reading) :
    Foreseen vocabulary tokens outlook.negated (reading.negated tokens) := by
  cases h with
  | unknown => exact .unknown _
  | exhausted => exact .exhausted _
  | refused => exact .passed
  | passed => exact .refused
  | took => exact .refused

theorem under {label : κ} (h : Foreseen vocabulary tokens outlook reading) :
    Foreseen vocabulary tokens outlook.under (reading.under label) := by
  cases h with
  | unknown => exact .unknown _
  | exhausted => exact .exhausted _
  | refused => exact .refused
  | passed => exact .unknown _
  | took hafter => exact .took hafter

end Foreseen

/-- **What is foreseen comes true.** -/
theorem foreseen_read (body : ρ → Pattern ρ κ) (depth steps : Nat) (p : Pattern ρ κ)
    (h : Begins vocabulary kinds tokens) :
    Foreseen vocabulary tokens (foresee body vocabulary depth kinds p) (read body steps p tokens) := by
  induction depth generalizing steps kinds p tokens with
  | zero => exact .unknown _
  | succ depth ih =>
    cases steps with
    | zero => exact .exhausted _
    | succ steps =>
      cases p with
      | token mustTouch expected =>
        cases kinds with
        | nil => exact .unknown _
        | cons kind left =>
          cases tokens with
          | nil => exact h.elim
          | cons token tokens =>
            rw [foresee, read]
            cases haccepted : kind.accepted? vocabulary expected with
            | none => exact .unknown _
            | some answer =>
              rw [Kind.accepts_eq h.1 haccepted]
              cases answer with
              | false => exact .refused
              | true =>
                cases mustTouch with
                | true => exact .unknown _
                | false => exact .took h.2
      | empty => exact .passed
      | seq first second =>
        rw [foresee_seq, read_seq]
        exact (ih steps first h).andThen (ih steps second h) fun left rest hleft => ih steps second hleft
      | choice first second =>
        rw [foresee_choice, read_choice]
        exact (ih steps first h).orElse (ih steps second h)
      | many repeated =>
        rw [foresee_many, read_many]
        exact (ih steps repeated h).repeated
      | «unless» refused =>
        rw [foresee_unless, read_unless]
        exact (ih steps refused h).negated
      | rule name => exact ih steps (body name) h
      | node label inner =>
        rw [foresee_node, read_node]
        exact (ih steps inner h).under

/-- What is left of a pattern reads as the whole pattern does. -/
theorem exists_read_skip (body : ρ → Pattern ρ κ) (depth steps : Nat) (p : Pattern ρ κ)
    (h : Begins vocabulary kinds tokens) :
    read body steps p tokens = .exhausted ∨
      ∃ fewer, read body fewer (skip body vocabulary depth kinds p) tokens = read body steps p tokens := by
  induction p generalizing steps with
  | choice first second _ ih =>
    rw [skip]
    split
    · next hrefused =>
      cases steps with
      | zero => exact Or.inl rfl
      | succ steps =>
        have hfirst := foreseen_read body depth steps first h
        rw [hrefused] at hfirst
        rw [read_choice]
        rcases hfirst.eq_of_refused with hexhausted | hrefuses
        · exact Or.inl (by rw [hexhausted, Reading.exhausted_orElse])
        · rw [hrefuses, Reading.refused_orElse]
          exact ih steps
    · exact Or.inr ⟨steps, rfl⟩
  | seq first second _ ih =>
    rw [skip]
    split
    · next hpassed =>
      cases steps with
      | zero => exact Or.inl rfl
      | succ steps =>
        have hfirst := foreseen_read body depth steps first h
        rw [hpassed] at hfirst
        rw [read_seq]
        rcases hfirst.eq_of_passed with hexhausted | hpasses
        · exact Or.inl (by rw [hexhausted, Reading.exhausted_andThen])
        · rw [hpasses, Reading.matched_nil_andThen]
          exact ih steps
    · exact Or.inr ⟨steps, rfl⟩
  | node label inner ih =>
    cases steps with
    | zero => exact Or.inl rfl
    | succ steps =>
      rcases ih steps with hexhausted | ⟨fewer, heq⟩
      · exact Or.inl (by rw [read_node, hexhausted, Reading.exhausted_under])
      · exact Or.inr ⟨fewer + 1, by rw [skip, read_node, read_node, heq]⟩
  | _ => exact Or.inr ⟨steps, rfl⟩

/-! ### Answers where some tokens may stand -/

/-- The first of some tokens are of kinds out of a list of possible ones. -/
def Starts (vocabulary : List String) (openings : List (List Kind)) (tokens : List Token) : Prop :=
  ∃ kinds ∈ openings, Begins vocabulary kinds tokens

variable {openings : List (List Kind)} {rest : List Token} {q : Pattern ρ κ}

theorem Starts.mono {more : List (List Kind)} (h : Starts vocabulary openings tokens)
    (hsub : ∀ kinds ∈ openings, kinds ∈ more) : Starts vocabulary more tokens := by
  obtain ⟨kinds, hmem, hbegins⟩ := h
  exact ⟨kinds, hsub kinds hmem, hbegins⟩

theorem Refuses.of_foresee (h : Starts vocabulary openings tokens)
    (hforesee : ∀ kinds ∈ openings, foresee body vocabulary depth kinds p = .refused) : Refuses body p tokens := by
  obtain ⟨kinds, hmem, hbegins⟩ := h
  intro steps
  have hread := foreseen_read body depth steps p hbegins
  rw [hforesee kinds hmem] at hread
  exact hread.eq_of_refused

theorem Reads.of_foresee (h : Starts vocabulary openings rest)
    (hforesee : ∀ kinds ∈ openings, foresee body vocabulary depth kinds p = .passed) : Reads body p [] rest := by
  obtain ⟨kinds, hmem, hbegins⟩ := h
  intro steps
  have hread := foreseen_read body depth steps p hbegins
  rw [hforesee kinds hmem] at hread
  rw [tokensOfAll_nil, List.nil_append]
  exact hread.eq_of_passed

theorem Answers.of_skip {reading : Reading κ} (h : Starts vocabulary openings tokens)
    (hskip : ∀ kinds ∈ openings, skip body vocabulary depth kinds p = q) (hq : Answers body q tokens reading) :
    Answers body p tokens reading := by
  obtain ⟨kinds, hmem, hbegins⟩ := h
  intro steps
  rcases exists_read_skip body depth steps p hbegins with hexhausted | ⟨fewer, heq⟩
  · exact Or.inl hexhausted
  · rw [hskip kinds hmem] at heq
    rw [← heq]
    exact hq fewer

/-- The first alternative that is not refused may be taken. -/
theorem Reads.of_foremost {trees : List (ParseTree κ)} (h : Starts vocabulary openings (tokensOfAll trees ++ rest))
    (hforemost : ∀ kinds ∈ openings, (skip body vocabulary depth kinds p).foremost = q) (hq : Reads body q trees rest) :
    Reads body p trees rest := by
  obtain ⟨kinds, hmem, hbegins⟩ := h
  have hstarts : Starts vocabulary [kinds] (tokensOfAll trees ++ rest) := ⟨kinds, List.mem_singleton_self _, hbegins⟩
  have hsame : ∀ found ∈ [kinds], skip body vocabulary depth found p = skip body vocabulary depth kinds p := by simp
  refine Answers.of_skip hstarts hsame ?_
  rw [← hforemost kinds hmem] at hq
  cases hskip : skip body vocabulary depth kinds p with
  | choice =>
    rw [hskip] at hq
    exact Reads.first hq
  | _ =>
    rw [hskip] at hq
    exact hq

end Pattern

end JavaAtlas.Syntax
