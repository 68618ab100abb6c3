import JavaAtlas.Proofs.Syntax.Content

/-!
# Nested brackets

A state that changes with each token, or is lost at a token that may not come then. How a pattern changes such a state
is read off the pattern, given the rules that leave it as it is; so the tokens of a derived tree can be passed without
looking into the tree. For Java the state is what is open at a place: the round brackets of every rule are closed again
within it, and outside of round brackets the rules that make up a type close their type arguments again.
-/

namespace JavaAtlas.Syntax

open ParseTree

/-! ### Walks over tokens -/

section Walk

variable {σ τ : Type} {step : σ → Lexeme → Option σ}

def walk (step : σ → Lexeme → Option σ) : σ → List Token → Option σ
  | state, [] => some state
  | state, token :: rest => (step state token.lexeme).bind fun next => walk step next rest

theorem walk_append (state : σ) (front back : List Token) :
    walk step state (front ++ back) = (walk step state front).bind fun next => walk step next back := by
  induction front generalizing state with
  | nil => rfl
  | cons token front ih =>
    rw [List.cons_append, walk, walk, Option.bind_assoc]
    exact congrArg _ (funext fun next => ih next)

/-- What is asked for is a word, unless it is one lexeme. -/
theorem exists_word_of_accepts {expected : Expected} {lexeme : Lexeme} (hexpected : ∀ wanted, expected ≠ .exactly wanted)
    (h : expected.accepts lexeme = true) : ∃ spelling, lexeme = .word spelling := by
  cases lexeme with
  | word spelling => exact ⟨spelling, rfl⟩
  | _ =>
    cases expected with
    | exactly wanted => exact absurd rfl (hexpected wanted)
    | _ => cases h

namespace Pattern

variable [DecidableEq σ] [DecidableEq τ] {ρ κ : Type} {body : ρ → Pattern ρ κ} {pattern : Pattern ρ κ}
  {keeps : ρ → σ → Bool} {state next : σ}

/-- The state behind what a pattern takes, given which rules keep which states. None if it is lost, or if it is not the
same in every case. -/
def after (step : σ → Lexeme → Option σ) (keeps : ρ → σ → Bool) : Pattern ρ κ → σ → Option σ
  | .token _ (.exactly lexeme), state => step state lexeme
  | .token _ _, state => some state
  | .empty, state => some state
  | .seq first second, state => (first.after step keeps state).bind fun next => second.after step keeps next
  | .choice first second, state =>
    if first.after step keeps state = second.after step keeps state then first.after step keeps state else none
  | .many repeated, state => if repeated.after step keeps state = some state then some state else none
  | .unless _, state => some state
  | .rule name, state => if keeps name state then some state else none
  | .node _ inner, state => inner.after step keeps state

/-- **The tokens of derived trees change a state as the pattern says**, if words do not change it and each rule keeps
the states that it is said to keep. -/
theorem Derives.walk_eq {trees : List (ParseTree κ)} (h : Derives body pattern trees)
    (hword : ∀ state spelling, step state (.word spelling) = some state)
    (hkeeps : ∀ name state, keeps name state = true → (body name).after step keeps state = some state)
    (hafter : pattern.after step keeps state = some next) : walk step state (tokensOfAll trees) = some next := by
  induction h generalizing state next with
  | @token mustTouch expected token haccepts htouching =>
    have hstep : step state token.lexeme = some next := by
      cases expected with
      | exactly wanted => exact beq_iff_eq.1 haccepts ▸ hafter
      | _ =>
        obtain ⟨spelling, hlexeme⟩ := exists_word_of_accepts (by simp) haccepts
        cases hafter
        rw [hlexeme, hword]
    simp [walk, hstep]
  | empty => exact hafter
  | seq hfirst hsecond ih₁ ih₂ =>
    rw [after, Option.bind_eq_some_iff] at hafter
    obtain ⟨middle, hfront, hback⟩ := hafter
    rw [tokensOfAll_append, walk_append, ih₁ hfront]
    exact ih₂ hback
  | first hfirst ih =>
    rw [after] at hafter
    split at hafter
    · exact ih hafter
    · cases hafter
  | second hsecond ih =>
    rw [after] at hafter
    split at hafter
    · next hsame => exact ih (hsame ▸ hafter)
    · cases hafter
  | never =>
    rw [after] at hafter
    split at hafter
    · exact hafter
    · cases hafter
  | again honce hmore ih₁ ih₂ =>
    have hround := hafter
    rw [after] at hround
    split at hround
    · next hkept =>
      rw [tokensOfAll_append, walk_append, ih₁ hkept]
      exact ih₂ hafter
    · cases hround
  | «unless» => exact hafter
  | rule hbody ih =>
    rw [after] at hafter
    split at hafter
    · next hkept =>
      cases hafter
      exact ih (hkeeps _ _ hkept)
    · cases hafter
  | node hinner ih =>
    rw [tokensOfAll_cons, tokensOfAll_nil, List.append_nil, tokens_node]
    exact ih hafter

/-- What a pattern does to a state it does to the image of the state under a map that goes along with the steps. -/
theorem after_map {step' : τ → Lexeme → Option τ} (keeps' : ρ → τ → Bool) (f : σ → τ)
    (hstep : ∀ state lexeme next, step state lexeme = some next → step' (f state) lexeme = some (f next))
    (hkeeps : ∀ name state, keeps name state = true → keeps' name (f state) = true)
    (hafter : pattern.after step keeps state = some next) : pattern.after step' keeps' (f state) = some (f next) := by
  induction pattern generalizing state next with
  | token mustTouch expected =>
    cases expected with
    | exactly lexeme => exact hstep _ _ _ hafter
    | _ =>
      cases hafter
      rfl
  | empty =>
    cases hafter
    rfl
  | seq first second ih₁ ih₂ =>
    rw [after, Option.bind_eq_some_iff] at hafter ⊢
    obtain ⟨middle, hfront, hback⟩ := hafter
    exact ⟨f middle, ih₁ hfront, ih₂ hback⟩
  | choice first second ih₁ ih₂ =>
    rw [after] at hafter ⊢
    split at hafter
    · next hsame =>
      rw [ih₁ hafter, ih₂ (hsame ▸ hafter), if_pos rfl]
    · cases hafter
  | many repeated ih =>
    rw [after] at hafter ⊢
    split at hafter
    · next hkept =>
      cases hafter
      rw [ih hkept, if_pos rfl]
    · cases hafter
  | «unless» refused =>
    cases hafter
    rfl
  | rule name =>
    rw [after] at hafter ⊢
    split at hafter
    · next hkept =>
      cases hafter
      rw [if_pos (hkeeps _ _ hkept)]
    · cases hafter
  | node label inner ih => exact ih hafter

end Pattern

end Walk

/-! ### Depth -/

/-- The number of open round brackets behind a lexeme. -/
def bracketStep (brackets : Nat) (lexeme : Lexeme) : Option Nat :=
  if lexeme = .symbol "(" then some (brackets + 1)
  else if lexeme = .symbol ")" then if brackets = 0 then none else some (brackets - 1)
  else some brackets

/-- What is open at a place in a type: round brackets, and outside of these type arguments. -/
structure Depth where
  brackets : Nat
  arguments : Nat
deriving DecidableEq

namespace Depth

def outer : Depth := ⟨0, 0⟩

def step (depth : Depth) (lexeme : Lexeme) : Option Depth :=
  if depth.brackets ≠ 0 ∨ lexeme = .symbol "(" ∨ lexeme = .symbol ")" then
    (bracketStep depth.brackets lexeme).map fun brackets => ⟨brackets, depth.arguments⟩
  else if lexeme = .symbol "<" then some ⟨0, depth.arguments + 1⟩
  else if lexeme = .symbol ">" then if depth.arguments = 0 then none else some ⟨0, depth.arguments - 1⟩
  else some depth

end Depth

theorem bracketStep_add {brackets next : Nat} {lexeme : Lexeme} (more : Nat)
    (h : bracketStep brackets lexeme = some next) : bracketStep (brackets + more) lexeme = some (next + more) := by
  grind [bracketStep]

namespace Depth

variable {depth next : Depth} {lexeme : Lexeme}

/-- With a bracket around, only brackets count. -/
theorem step_inside {brackets next : Nat} (arguments : Nat) (h : bracketStep brackets lexeme = some next) :
    step ⟨brackets + 1, arguments⟩ lexeme = some ⟨next + 1, arguments⟩ := by
  rw [step, if_pos (Or.inl (Nat.succ_ne_zero _)), bracketStep_add 1 h, Option.map_some]

/-- Type arguments that are open around stay open. -/
theorem step_behind (more : Nat) (h : depth.step lexeme = some next) :
    step ⟨depth.brackets, depth.arguments + more⟩ lexeme = some ⟨next.brackets, next.arguments + more⟩ := by
  unfold step at h ⊢
  split at h
  · next hbrackets =>
    obtain ⟨count, hcount, rfl⟩ := Option.map_eq_some_iff.1 h
    rw [if_pos hbrackets, hcount, Option.map_some]
  · next hbrackets =>
    rw [if_neg hbrackets]
    grind

theorem step_word (depth : Depth) (spelling : String) : depth.step (.word spelling) = some depth := by
  simp [step, bracketStep]

end Depth

/-! ### Rules -/

namespace Construct

/-- The rules of which types are made up, with annotations. -/
def makesTypes : Construct → Bool
  | typeArguments | typeUse | plainType | simpleType | dimensions | annotationUse | qualifiedName => true
  | _ => false

/-- Inside brackets every rule keeps the depth, outside of them the rules that make up types. -/
def keepsDepth (construct : Construct) (depth : Depth) : Bool :=
  depth.brackets != 0 || construct.makesTypes

theorem after_body_zero : ∀ construct, (body construct).after bracketStep (fun _ _ => true) 0 = some 0 :=
  forall_of_every (by decide +kernel)

/-- The round brackets that a rule opens it closes. -/
theorem after_body_bracketStep (construct : Construct) (brackets : Nat) :
    (body construct).after bracketStep (fun _ _ => true) brackets = some brackets := by
  have hshifted := Pattern.after_map (fun _ _ => true) (· + brackets)
    (fun _ _ _ => bracketStep_add brackets) (fun _ _ _ => rfl) (after_body_zero construct)
  simpa using hshifted

theorem after_body_makesTypes : ∀ construct, makesTypes construct = true →
    (body construct).after Depth.step keepsDepth .outer = some .outer :=
  forall_of_every (by decide +kernel)

theorem after_body_step (construct : Construct) (depth : Depth) (h : keepsDepth construct depth = true) :
    (body construct).after Depth.step keepsDepth depth = some depth := by
  obtain ⟨brackets, arguments⟩ := depth
  cases brackets with
  | zero =>
    have hmakes : makesTypes construct = true := by simpa [keepsDepth] using h
    have hbehind := Pattern.after_map keepsDepth
      (fun depth : Depth => ⟨depth.brackets, depth.arguments + arguments⟩)
      (fun _ _ _ => Depth.step_behind arguments) (fun _ _ hkeeps => hkeeps) (after_body_makesTypes construct hmakes)
    simpa [Depth.outer] using hbehind
  | succ brackets =>
    exact Pattern.after_map keepsDepth (fun count : Nat => (⟨count + 1, arguments⟩ : Depth))
      (fun _ _ _ => Depth.step_inside arguments) (fun _ _ _ => by simp [keepsDepth])
      (after_body_bracketStep construct brackets)

end Construct

/-! ### Tokens at the outer level -/

/-- The tokens in front of which and behind which nothing is open. -/
def outerTokens : Depth → List Token → List Token
  | _, [] => []
  | depth, token :: rest =>
    match depth.step token.lexeme with
    | none => []
    | some next =>
      if depth = .outer ∧ next = .outer then token :: outerTokens next rest else outerTokens next rest

variable {depth next : Depth} {token : Token} {rest : List Token}

theorem outerTokens_cons_outer (h : Depth.step .outer token.lexeme = some .outer) :
    outerTokens .outer (token :: rest) = token :: outerTokens .outer rest := by
  simp [outerTokens, h]

/-- A token that opens or closes something is passed over. -/
theorem outerTokens_cons (hstep : depth.step token.lexeme = some next) (h : depth ≠ .outer ∨ next ≠ .outer) :
    outerTokens depth (token :: rest) = outerTokens next rest := by
  rw [outerTokens, hstep]
  exact if_neg fun houter => h.elim (· houter.1) (· houter.2)

/-- What stands inside is passed over. -/
theorem outerTokens_append {σ : Type} {step : σ → Lexeme → Option σ} (f : σ → Depth)
    (hstep : ∀ state lexeme next, step state lexeme = some next → (f state).step lexeme = some (f next))
    (hinside : ∀ state, f state ≠ .outer) {state next : σ} {tokens : List Token}
    (hwalk : walk step state tokens = some next) :
    outerTokens (f state) (tokens ++ rest) = outerTokens (f next) rest := by
  induction tokens generalizing state with
  | nil =>
    cases hwalk
    rfl
  | cons token tokens ih =>
    rw [walk, Option.bind_eq_some_iff] at hwalk
    obtain ⟨middle, hmiddle, hmore⟩ := hwalk
    rw [List.cons_append, outerTokens_cons (hstep _ _ _ hmiddle) (Or.inl (hinside state)), ih hmore]

namespace Pattern

open Construct

variable {pattern : JavaPattern} {trees : List (ParseTree Part)}

/-- What stands between two symbols that open and close something is passed over, if it keeps what is open. -/
theorem outerTokens_between (depth : Depth) {opening closing : String}
    (hopen : Depth.step .outer (.symbol opening) = some depth) (hclose : depth.step (.symbol closing) = some .outer)
    (hdepth : depth ≠ .outer)
    (hcontent : ∀ content, Derives body pattern content → ∀ rest,
      outerTokens depth (tokensOfAll content ++ rest) = outerTokens depth rest)
    (h : Derives body (all [symbol opening, pattern, symbol closing]) trees) :
    outerTokens .outer (tokensOfAll trees ++ rest) = outerTokens .outer rest := by
  obtain ⟨front, back, rfl, hfront, hback⟩ := derives_seq h
  obtain ⟨content, back, rfl, hderives, hback⟩ := derives_seq hback
  obtain ⟨first, rfl, hfirst⟩ := derives_symbol hfront
  obtain ⟨last, rfl, hlast⟩ := derives_symbol hback
  rw [← hfirst] at hopen
  rw [← hlast] at hclose
  simp only [tokensOfAll_append, tokensOfAll_cons, tokensOfAll_nil, tokens_leaf, List.append_assoc,
    List.nil_append, List.cons_append]
  rw [outerTokens_cons hopen (Or.inr hdepth), hcontent content hderives, outerTokens_cons hclose (Or.inl hdepth)]

theorem outerTokens_bracketed (hpattern : pattern.after bracketStep (fun _ _ => true) 0 = some 0)
    (h : Derives body (bracketed pattern) trees) :
    outerTokens .outer (tokensOfAll trees ++ rest) = outerTokens .outer rest := by
  refine outerTokens_between ⟨1, 0⟩ rfl rfl (by decide) ?_ h
  intro content hderives rest
  have hwalk : walk bracketStep 0 (tokensOfAll content) = some 0 :=
    hderives.walk_eq (by simp [bracketStep]) (fun construct brackets _ => after_body_bracketStep construct brackets)
      hpattern
  exact outerTokens_append (fun brackets : Nat => (⟨brackets + 1, 0⟩ : Depth)) (fun _ _ _ => Depth.step_inside 0)
    (by simp [Depth.outer]) hwalk

theorem outerTokens_typeArguments (h : Derives body (.rule .typeArguments) trees) :
    outerTokens .outer (tokensOfAll trees ++ rest) = outerTokens .outer rest := by
  obtain ⟨children, rfl, hchildren⟩ := derives_node (derives_rule h)
  rw [tokensOfAll_cons, tokensOfAll_nil, tokens_node, List.append_nil]
  refine outerTokens_between ⟨0, 1⟩ rfl rfl (by decide) ?_ hchildren
  intro content hderives rest
  have hwalk : walk Depth.step .outer (tokensOfAll content) = some .outer :=
    hderives.walk_eq Depth.step_word after_body_step (by decide +kernel)
  exact outerTokens_append (fun depth : Depth => ⟨depth.brackets, depth.arguments + 1⟩)
    (fun _ _ _ => Depth.step_behind 1) (by simp [Depth.outer]) hwalk

end Pattern

end JavaAtlas.Syntax
