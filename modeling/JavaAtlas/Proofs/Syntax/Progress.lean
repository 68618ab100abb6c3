import Mathlib.Algebra.GroupWithZero.Nat
import JavaAtlas.Proofs.Syntax.Answers
import JavaAtlas.Proofs.Syntax.Front

/-!
# Reading comes to an end

Between two tokens that are taken, reading goes from rule to rule. Where every rule calls only lower ones before it takes
a token, for some height of the rules, it passes through each of them once at most, and the steps are bounded by the
sizes of the patterns. So the allowance of a grammar never runs out, and the answer of its first rule is what parsing
comes to.
-/

namespace JavaAtlas.Syntax

open ParseTree

section

variable {ρ κ : Type} {taking : ρ → Bool} {height : ρ → Nat}

namespace Pattern

/-- Whether a pattern calls only rules below some height before it takes a token. -/
def opensBelow (taking : ρ → Bool) (height : ρ → Nat) (bound : Nat) : Pattern ρ κ → Bool
  | .token .. => true
  | .empty => true
  | .seq first second =>
    first.opensBelow taking height bound && (first.takes taking || second.opensBelow taking height bound)
  | .choice first second => first.opensBelow taking height bound && second.opensBelow taking height bound
  | .many repeated => repeated.opensBelow taking height bound
  | .unless refused => refused.opensBelow taking height bound
  | .rule name => height name < bound
  | .node _ inner => inner.opensBelow taking height bound

theorem opensBelow_of_forall {bound : Nat} (h : ∀ name, height name < bound) (p : Pattern ρ κ) :
    p.opensBelow taking height bound = true := by
  induction p with
  | token | empty => rfl
  | seq first second ih₁ ih₂ => simp [opensBelow, ih₁, ih₂]
  | choice first second ih₁ ih₂ => simp [opensBelow, ih₁, ih₂]
  | many repeated ih => simpa [opensBelow] using ih
  | «unless» refused ih => simpa [opensBelow] using ih
  | rule name => simpa [opensBelow] using h name
  | node label inner ih => simpa [opensBelow] using ih

theorem size_pos (p : Pattern ρ κ) : 0 < p.size := by
  cases p with
  | token | empty | rule => exact Nat.one_pos
  | _ => exact Nat.succ_pos _

/-- The sizes of those of some rules that are below some height, together. -/
def weightBelow (body : ρ → Pattern ρ κ) (height : ρ → Nat) (bound : Nat) (rules : List ρ) : Nat :=
  (rules.map fun rule => if height rule < bound then (body rule).size else 0).sum

variable (body : ρ → Pattern ρ κ) (height : ρ → Nat) (rules : List ρ)

theorem weightBelow_mono {bound top : Nat} (h : bound ≤ top) :
    weightBelow body height bound rules ≤ weightBelow body height top rules := by
  unfold weightBelow
  induction rules with
  | nil => exact Nat.le_refl _
  | cons rule rules ih =>
    rw [List.map_cons, List.sum_cons, List.map_cons, List.sum_cons]
    refine Nat.add_le_add ?_ ih
    split
    · exact Nat.le_of_eq (if_pos (by omega)).symm
    · exact Nat.zero_le _

/-- What may be called below a rule leaves room for the rule itself. -/
theorem weightBelow_add_size_le {name : ρ} {bound : Nat} (hmem : name ∈ rules) (hname : height name < bound) :
    weightBelow body height (height name) rules + (body name).size ≤ weightBelow body height bound rules := by
  obtain ⟨front, back, rfl⟩ := List.append_of_mem hmem
  have hfront := weightBelow_mono body height front (Nat.le_of_lt hname)
  have hback := weightBelow_mono body height back (Nat.le_of_lt hname)
  unfold weightBelow at hfront hback ⊢
  simp only [List.map_append, List.sum_append, List.map_cons, List.sum_cons, if_pos hname, if_neg (Nat.lt_irrefl _)]
  omega

end Pattern

namespace Grammar

variable {grammar : Grammar ρ κ} {top : Nat}

open Pattern (weightBelow weightBelow_add_size_le)

theorem weightBelow_lt_stepsPerToken (grammar : Grammar ρ κ) (height : ρ → Nat) (bound : Nat) :
    weightBelow grammar.body height bound grammar.rules < grammar.stepsPerToken := by
  unfold weightBelow stepsPerToken
  induction grammar.rules with
  | nil => exact Nat.one_pos
  | cons rule rules ih =>
    rw [List.map_cons, List.sum_cons, List.map_cons, List.foldr_cons]
    refine Nat.add_lt_add_of_le_of_lt ?_ ih
    split
    · exact Nat.le_refl _
    · exact Nat.zero_le _

/-- The steps that are enough for a pattern that calls only rules below some height before it takes a token. -/
def stepsFor (grammar : Grammar ρ κ) (height : ρ → Nat) (bound : Nat) (p : Pattern ρ κ) (tokens : List Token) : Nat :=
  p.size + weightBelow grammar.body height bound grammar.rules + tokens.length * grammar.stepsPerToken

section

variable (grammar : Grammar ρ κ) (height : ρ → Nat) (top bound : Nat) {p q : Pattern ρ κ} {tokens rest : List Token}

theorem stepsFor_lt_of_size_lt (hsize : q.size < p.size) (hlength : rest.length ≤ tokens.length) :
    grammar.stepsFor height bound q rest < grammar.stepsFor height bound p tokens := by
  have hshare := Nat.mul_le_mul_right grammar.stepsPerToken hlength
  unfold stepsFor
  omega

/-- Behind a token that was taken fewer steps are needed, although any rule may be called again. -/
theorem stepsFor_lt_of_length_lt (hsize : q.size ≤ p.size) (hlength : rest.length < tokens.length) :
    grammar.stepsFor height top q rest < grammar.stepsFor height bound p tokens := by
  have hshare := Nat.mul_le_mul_right grammar.stepsPerToken (Nat.succ_le_of_lt hlength)
  have hweight := grammar.weightBelow_lt_stepsPerToken height top
  rw [Nat.succ_mul] at hshare
  unfold stepsFor
  omega

theorem stepsFor_body_lt (tokens : List Token) {name : ρ} (hmem : name ∈ grammar.rules) (hname : height name < bound) :
    grammar.stepsFor height (height name) (grammar.body name) tokens <
      grammar.stepsFor height bound (.rule name) tokens := by
  have hweight := weightBelow_add_size_le grammar.body height grammar.rules hmem hname
  unfold stepsFor
  rw [Pattern.size]
  omega

end

/-- **The allowance is enough**: one share of it for every token, and the rules that can be passed before the next. -/
theorem read_ne_exhausted (grammar : Grammar ρ κ) (hrules : ∀ name, name ∈ grammar.rules)
    (htop : ∀ name, height name < top)
    (htaking : ∀ name, taking name = true → (grammar.body name).takes taking = true)
    (hheight : ∀ name, (grammar.body name).opensBelow taking height (height name) = true) {steps bound : Nat}
    {p : Pattern ρ κ} {tokens : List Token} (hp : p.opensBelow taking height bound = true)
    (hsteps : grammar.stepsFor height bound p tokens ≤ steps) : p.read grammar.body steps tokens ≠ .exhausted := by
  induction steps generalizing p tokens bound with
  | zero =>
    have hpos := p.size_pos
    unfold stepsFor at hsteps
    omega
  | succ steps ih =>
    have hbehind {q : Pattern ρ κ} {rest : List Token} (hsize : q.size ≤ p.size)
        (hlength : rest.length < tokens.length) : q.read grammar.body steps rest ≠ .exhausted := by
      have hless := grammar.stepsFor_lt_of_length_lt height top bound hsize hlength
      exact ih (q.opensBelow_of_forall htop) (by omega)
    have hinside {q : Pattern ρ κ} {rest : List Token} (hq : q.opensBelow taking height bound = true)
        (hsize : q.size < p.size) (hlength : rest.length ≤ tokens.length) :
        q.read grammar.body steps rest ≠ .exhausted := by
      have hless := grammar.stepsFor_lt_of_size_lt height bound hsize hlength
      exact ih hq (by omega)
    cases p with
    | token mustTouch expected =>
      cases tokens with
      | nil => simp [Pattern.read]
      | cons next rest =>
        rw [Pattern.read]
        split <;> simp
    | empty => simp [Pattern.read]
    | seq first second =>
      rw [Pattern.opensBelow, Bool.and_eq_true, Bool.or_eq_true] at hp
      rw [Pattern.read_seq]
      refine Reading.andThen_ne_exhausted (hinside hp.1 (by rw [Pattern.size]; omega) (Nat.le_refl _)) ?_
      intro trees rest hread
      by_cases hshorter : rest.length < tokens.length
      · exact hbehind (by rw [Pattern.size]; omega) hshorter
      · have htakes : ¬first.takes taking = true := fun htakes =>
          hshorter (Pattern.length_lt_of_takes htaking htakes hread)
        exact hinside (hp.2.resolve_left htakes) (by rw [Pattern.size]; omega) (Pattern.length_le_of_read hread)
    | choice first second =>
      rw [Pattern.opensBelow, Bool.and_eq_true] at hp
      rw [Pattern.read_choice]
      exact Reading.orElse_ne_exhausted (hinside hp.1 (by rw [Pattern.size]; omega) (Nat.le_refl _))
        (hinside hp.2 (by rw [Pattern.size]; omega) (Nat.le_refl _))
    | many repeated =>
      rw [Pattern.opensBelow] at hp
      rw [Pattern.read_many]
      have honce := hinside hp (Nat.lt_succ_self _) (Nat.le_refl _)
      refine Reading.orElse_ne_exhausted (Reading.andThen_ne_exhausted honce ?_) (by simp)
      intro trees rest _
      split
      · next hshorter => exact hbehind (Nat.le_refl _) hshorter
      · simp
    | «unless» refused =>
      rw [Pattern.opensBelow] at hp
      rw [Pattern.read_unless, ne_eq, Reading.negated_eq_exhausted_iff]
      exact hinside hp (Nat.lt_succ_self _) (Nat.le_refl _)
    | rule name =>
      have hless := grammar.stepsFor_body_lt height bound tokens (hrules name) (of_decide_eq_true hp)
      rw [Pattern.read_rule]
      exact ih (hheight name) (by omega)
    | node label inner =>
      rw [Pattern.opensBelow] at hp
      rw [Pattern.read_node, ne_eq, Reading.under_eq_exhausted_iff]
      exact hinside hp (Nat.lt_succ_self _) (Nat.le_refl _)

/-- What the first rule reads of a whole text is what parsing it comes to, where the allowance is enough. -/
theorem parse?_of_reads {trees : List (ParseTree κ)}
    (hends : Pattern.read grammar.body (((tokensOfAll trees).length + 1) * grammar.stepsPerToken) (.rule grammar.start)
      (tokensOfAll trees) ≠ .exhausted)
    (h : Pattern.Reads grammar.body (.rule grammar.start) trees []) :
    grammar.parse? (tokensOfAll trees) = some trees := by
  rw [Pattern.Reads, List.append_nil] at h
  unfold parse?
  dsimp only
  rw [(h _).resolve_left hends]

end Grammar

end

namespace Construct

/-- How far a rule may lead before a token is taken: each rule calls only lower ones there. -/
def height : Construct → Nat
  | sourceFile => 7
  | topLevel => 6
  | statement | elementValue | initialValue | forHeader => 5
  | expression _ => 4
  | classMember | constructorCall | operand _ => 3
  | field | method | parameter | declarators _ | resource | chain _ => 2
  | packageHeader | moduleHeader | modifiers _ | typeUse | plainType | dimensions | constructor | memberLinks
  | operation _ | lambda | links _ | placeLinks _ | typeHead => 1
  | _ => 0

theorem height_lt : ∀ construct, height construct < 8 :=
  forall_of_every (by decide)

theorem opensBelow_body : ∀ construct, (body construct).opensBelow taking height (height construct) = true :=
  forall_of_every (by decide)

end Construct

open Construct

/-- **Parsing is total**: reading by the grammar of Java always comes to an answer. -/
theorem javaGrammar_read_ne_exhausted (tokens : List Token) :
    Pattern.read body ((tokens.length + 1) * javaGrammar.stepsPerToken) (.rule .sourceFile) tokens ≠ .exhausted := by
  refine javaGrammar.read_ne_exhausted mem_every height_lt takes_body opensBelow_body
    (Pattern.opensBelow_of_forall height_lt _) ?_
  have hweight := javaGrammar.weightBelow_lt_stepsPerToken height 8
  rw [Grammar.stepsFor, Pattern.size, Nat.succ_mul]
  omega

theorem javaGrammar_parse?_of_reads {trees : List (ParseTree Part)}
    (h : Pattern.Reads body (.rule .sourceFile) trees []) : javaGrammar.parse? (tokensOfAll trees) = some trees :=
  Grammar.parse?_of_reads (javaGrammar_read_ne_exhausted _) h

end JavaAtlas.Syntax
