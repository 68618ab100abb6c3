import JavaAtlas.Proofs.Syntax.Java

/-!
# What a pattern takes and builds

Three things that are read off a pattern: whether it takes a token whenever it matches, whether there is always a tree
of some sort among those that it builds, and whether there is never more than one. What the rules take and build is
found in a table, which has to agree with the pattern of each. For Java the tables are small: no node is empty, fields,
methods, parameters and creations name a type, and a declaration declares one thing.
-/

namespace JavaAtlas.Syntax

open ParseTree

/-- The label over a tree; a token has none. -/
def ParseTree.label? {κ : Type} : ParseTree κ → Option κ
  | .leaf _ => none
  | .node label _ => some label

namespace Pattern

variable {ρ κ : Type} {body : ρ → Pattern ρ κ} {pattern : Pattern ρ κ} {trees : List (ParseTree κ)}

/-- Whether a pattern takes a token whenever it matches, given the rules of which this is known. -/
def takes (taking : ρ → Bool) : Pattern ρ κ → Bool
  | .token .. => true
  | .empty => false
  | .seq first second => first.takes taking || second.takes taking
  | .choice first second => first.takes taking && second.takes taking
  | .many _ => false
  | .unless _ => false
  | .rule name => taking name
  | .node _ inner => inner.takes taking

/-- Whether there is always a tree whose label is wanted, given the rules of which this is known. -/
def surely (sure : ρ → Bool) (wanted : Option κ → Bool) : Pattern ρ κ → Bool
  | .token .. => wanted none
  | .empty => false
  | .seq first second => first.surely sure wanted || second.surely sure wanted
  | .choice first second => first.surely sure wanted && second.surely sure wanted
  | .many _ => false
  | .unless _ => false
  | .rule name => sure name
  | .node label _ => wanted (some label)

/-- The most trees whose label is counted, given this number for the rules; two stands for any number. -/
def most (bound : ρ → Nat) (counted : Option κ → Bool) : Pattern ρ κ → Nat
  | .token .. => (counted none).toNat
  | .empty => 0
  | .seq first second => first.most bound counted + second.most bound counted
  | .choice first second => max (first.most bound counted) (second.most bound counted)
  | .many repeated => if repeated.most bound counted = 0 then 0 else 2
  | .unless _ => 0
  | .rule name => bound name
  | .node label _ => (counted (some label)).toNat

theorem Derives.tokens_ne_nil {taking : ρ → Bool} (h : Derives body pattern trees)
    (htaking : ∀ name, taking name = true → (body name).takes taking = true)
    (hpattern : pattern.takes taking = true) : tokensOfAll trees ≠ [] := by
  induction h with
  | token haccepts htouching => simp
  | empty => cases hpattern
  | seq hfirst hsecond ih₁ ih₂ =>
    rw [takes, Bool.or_eq_true] at hpattern
    rw [tokensOfAll_append]
    rcases hpattern with hpattern | hpattern
    · exact List.append_ne_nil_of_left_ne_nil (ih₁ hpattern) _
    · exact List.append_ne_nil_of_right_ne_nil _ (ih₂ hpattern)
  | first hfirst ih =>
    rw [takes, Bool.and_eq_true] at hpattern
    exact ih hpattern.1
  | second hsecond ih =>
    rw [takes, Bool.and_eq_true] at hpattern
    exact ih hpattern.2
  | never => cases hpattern
  | again => cases hpattern
  | «unless» => cases hpattern
  | rule hbody ih => exact ih (htaking _ hpattern)
  | node hinner ih =>
    rw [tokensOfAll_cons, tokensOfAll_nil, List.append_nil, tokens_node]
    exact ih hpattern

theorem length_lt_of_takes {taking : ρ → Bool} {steps : Nat} {tokens rest : List Token}
    (htaking : ∀ name, taking name = true → (body name).takes taking = true) (hpattern : pattern.takes taking = true)
    (h : read body steps pattern tokens = .matched trees rest) : rest.length < tokens.length := by
  obtain ⟨hderives, htokens⟩ := derives_of_read h
  have htaken := List.length_pos_iff.2 (hderives.tokens_ne_nil htaking hpattern)
  rw [htokens, List.length_append]
  omega

theorem Derives.exists_of_surely {sure : ρ → Bool} {wanted : Option κ → Bool} (h : Derives body pattern trees)
    (hsure : ∀ name, sure name = true → (body name).surely sure wanted = true)
    (hpattern : pattern.surely sure wanted = true) : ∃ tree ∈ trees, wanted tree.label? = true := by
  induction h with
  | token haccepts htouching => exact ⟨_, List.mem_singleton_self _, hpattern⟩
  | empty => cases hpattern
  | seq hfirst hsecond ih₁ ih₂ =>
    rw [surely, Bool.or_eq_true] at hpattern
    rcases hpattern with hpattern | hpattern
    · obtain ⟨tree, hmem, hwanted⟩ := ih₁ hpattern
      exact ⟨tree, List.mem_append_left _ hmem, hwanted⟩
    · obtain ⟨tree, hmem, hwanted⟩ := ih₂ hpattern
      exact ⟨tree, List.mem_append_right _ hmem, hwanted⟩
  | first hfirst ih =>
    rw [surely, Bool.and_eq_true] at hpattern
    exact ih hpattern.1
  | second hsecond ih =>
    rw [surely, Bool.and_eq_true] at hpattern
    exact ih hpattern.2
  | never => cases hpattern
  | again => cases hpattern
  | «unless» => cases hpattern
  | rule hbody ih => exact ih (hsure _ hpattern)
  | node hinner ih => exact ⟨_, List.mem_singleton_self _, hpattern⟩

theorem Derives.countP_le_most {bound : ρ → Nat} {counted : Option κ → Bool} (h : Derives body pattern trees)
    (hbound : ∀ name, bound name ≤ 1 → (body name).most bound counted ≤ bound name)
    (hpattern : pattern.most bound counted ≤ 1) :
    trees.countP (fun tree => counted tree.label?) ≤ pattern.most bound counted := by
  induction h with
  | token haccepts htouching =>
    rw [List.countP_singleton, most, label?]
    cases counted _ <;> decide
  | empty => exact Nat.le_refl _
  | seq hfirst hsecond ih₁ ih₂ =>
    rw [most] at hpattern
    have hfront := ih₁ (by omega)
    have hback := ih₂ (by omega)
    rw [List.countP_append, most]
    omega
  | first hfirst ih =>
    rw [most] at hpattern
    have hcount := ih (by omega)
    rw [most]
    omega
  | second hsecond ih =>
    rw [most] at hpattern
    have hcount := ih (by omega)
    rw [most]
    omega
  | never => exact Nat.zero_le _
  | again honce hmore ih₁ ih₂ =>
    -- At most one in all means none in each round.
    have hnone := hpattern
    rw [most] at hnone
    split at hnone
    · next hzero =>
      have hround := ih₁ (by omega)
      have hrest := ih₂ hpattern
      rw [List.countP_append]
      omega
    · omega
  | «unless» => exact Nat.zero_le _
  | rule hbody ih =>
    have hrule := hbound _ hpattern
    exact Nat.le_trans (ih (Nat.le_trans hrule hpattern)) hrule
  | node hinner ih =>
    rw [List.countP_singleton, most, label?]
    cases counted _ <;> decide

end Pattern

/-! ### The nodes of Java trees -/

namespace Construct

/-- The rules that always take a token. -/
def taking : Construct → Bool
  | sourceFile | links _ | placeLinks _ => false
  | _ => true

/-- The rules that always build a type. -/
def buildsTypeUse : Construct → Bool
  | typeUse | plainType => true
  | _ => false

/-- The number of trees that the rules of a declaration build. -/
def declares : Construct → Nat
  | typeDeclaration | field | method | constructor => 1
  | _ => 2

def isTypeUse (label? : Option Part) : Bool :=
  label? == some .typeUse

def isBesideModifiers (label? : Option Part) : Bool :=
  label? != some .modifiers

/-- What the pattern under a label names and declares. -/
def hasForm : Part → JavaPattern → Bool
  | .field, inner | .method, inner | .parameter, inner | .creation, inner | .innerCreation, inner =>
    inner.surely buildsTypeUse isTypeUse
  | .declaration, inner => inner.most declares isBesideModifiers ≤ 1
  | _, _ => true

def hasContent (label : Part) (inner : JavaPattern) : Bool :=
  inner.takes taking && hasForm label inner

theorem mem_every (construct : Construct) : construct ∈ every := by
  cases construct with
  | expression arrows => cases arrows <;> decide
  | operation arrows => cases arrows <;> decide
  | operand arrows => cases arrows <;> decide
  | chain arrows => cases arrows <;> decide
  | links arrows => cases arrows <;> decide
  | placeLinks arrows => cases arrows <;> decide
  | modifiers beforeTypes => cases beforeTypes <;> decide
  | declarators beforeTypes => cases beforeTypes <;> decide
  | _ => decide

/-- What can be told of every rule in turn holds of all rules. -/
theorem forall_of_every {P : Construct → Prop} [DecidablePred P] (h : every.all (fun name => decide (P name)) = true)
    (construct : Construct) : P construct :=
  of_decide_eq_true (List.all_eq_true.1 h construct (mem_every construct))

theorem hasContent_body : ∀ construct, (body construct).eachNode hasContent = true :=
  forall_of_every (by decide +kernel)

theorem takes_body : ∀ construct, taking construct = true → (body construct).takes taking = true :=
  forall_of_every (by decide +kernel)

theorem buildsTypeUse_body :
    ∀ construct, buildsTypeUse construct = true → (body construct).surely buildsTypeUse isTypeUse = true :=
  forall_of_every (by decide +kernel)

theorem declares_body :
    ∀ construct, declares construct ≤ 1 → (body construct).most declares isBesideModifiers ≤ declares construct :=
  forall_of_every (by decide +kernel)

end Construct

open Construct Pattern

variable {tokens : List Token} {trees children : List (ParseTree Part)} {tree : ParseTree Part} {label : Part}

theorem exists_content_of_within (h : javaGrammar.parse? tokens = some trees)
    (hwithin : Within (.node label children) trees) :
    ∃ inner, inner.takes taking = true ∧ hasForm label inner = true ∧ Derives body inner children := by
  obtain ⟨inner, hcontent, hderives⟩ := (javaGrammar.derives_of_parse? h).1.of_within hasContent_body rfl hwithin
  rw [hasContent, Bool.and_eq_true] at hcontent
  exact ⟨inner, hcontent.1, hcontent.2, hderives⟩

theorem tokens_ne_nil_of_within (h : javaGrammar.parse? tokens = some trees) (hwithin : Within tree trees) :
    tree.tokens ≠ [] := by
  cases tree with
  | leaf token => simp
  | node label children =>
    obtain ⟨inner, htakes, -, hderives⟩ := exists_content_of_within h hwithin
    rw [tokens_node]
    exact hderives.tokens_ne_nil takes_body htakes

/-- The parts of speech that name a type. -/
def typedParts : List Part :=
  [.field, .method, .parameter, .creation, .innerCreation]

theorem exists_typeUse_of_within (h : javaGrammar.parse? tokens = some trees)
    (hwithin : Within (.node label children) trees) (hlabel : label ∈ typedParts) :
    ∃ tree ∈ children, tree.label? = some .typeUse := by
  obtain ⟨inner, -, hform, hderives⟩ := exists_content_of_within h hwithin
  have hsurely : inner.surely buildsTypeUse isTypeUse = true := by
    simp only [typedParts, List.mem_cons, List.not_mem_nil, or_false] at hlabel
    rcases hlabel with rfl | rfl | rfl | rfl | rfl
    all_goals exact hform
  obtain ⟨tree, hmem, htype⟩ := hderives.exists_of_surely buildsTypeUse_body hsurely
  exact ⟨tree, hmem, by simpa [isTypeUse] using htype⟩

/-- A declaration declares at most one thing behind its modifiers. -/
theorem countP_declared_le_one (h : javaGrammar.parse? tokens = some trees)
    (hwithin : Within (.node .declaration children) trees) :
    children.countP (fun tree => isBesideModifiers tree.label?) ≤ 1 := by
  obtain ⟨inner, -, hform, hderives⟩ := exists_content_of_within h hwithin
  have hmost : inner.most declares isBesideModifiers ≤ 1 := by simpa [hasForm] using hform
  exact Nat.le_trans (hderives.countP_le_most declares_body hmost) hmost

end JavaAtlas.Syntax
