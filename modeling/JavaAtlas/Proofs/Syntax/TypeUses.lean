import JavaAtlas.Proofs.Syntax.Content

/-!
# The trees of types

What is marked as a type in a tree of a Java source is annotations, then a single tree that says what the type names,
then dimensions if it is an array. That holds wherever a type stands, since the label stands over four patterns only.
-/

namespace JavaAtlas.Syntax

open ParseTree

/-- What a type names: a class or an interface, a primitive type, or no type. -/
inductive IsSimple : ParseTree Part → Prop where
  | named (segments : List (ParseTree Part)) : IsSimple (.node .named segments)
  | primitive (word : List (ParseTree Part)) : IsSimple (.node .primitive word)
  | void (word : List (ParseTree Part)) : IsSimple (.node .void word)

/-- The trees that spell a type: annotations, what the type names, and dimensions if it is an array. -/
inductive IsTypeUse : List (ParseTree Part) → Prop where
  | simple {tree : ParseTree Part} (hsimple : IsSimple tree) : IsTypeUse [tree]
  | array {tree : ParseTree Part} {dimensions : List (ParseTree Part)} (hsimple : IsSimple tree) :
      IsTypeUse [tree, .node .dimensions dimensions]
  | annotated {sign rest : List (ParseTree Part)} (h : IsTypeUse rest) :
      IsTypeUse (.node .annotationUse sign :: rest)

namespace Pattern

open Construct

variable {trees : List (ParseTree Part)}

theorem isSimple_of_derives {except : List String} (h : Derives body (simpleTypeBody except) trees) :
    ∃ tree, trees = [tree] ∧ IsSimple tree := by
  cases h with
  | first h =>
    obtain ⟨children, rfl, -⟩ := derives_node h
    exact ⟨_, rfl, .primitive children⟩
  | second h =>
    cases h with
    | first h =>
      obtain ⟨children, rfl, -⟩ := derives_node h
      exact ⟨_, rfl, .void children⟩
    | second h =>
      obtain ⟨children, rfl, -⟩ := derives_node h
      exact ⟨_, rfl, .named children⟩

theorem isTypeUse_dimensioned {pattern : JavaPattern}
    (hpattern : ∀ trees, Derives body pattern trees → ∃ tree, trees = [tree] ∧ IsSimple tree)
    (h : Derives body (all [pattern, optional (.rule .dimensions)]) trees) : IsTypeUse trees := by
  obtain ⟨front, back, rfl, hfront, hback⟩ := derives_seq h
  obtain ⟨tree, rfl, hsimple⟩ := hpattern front hfront
  rcases derives_optional hback with rfl | hback
  · exact .simple hsimple
  · obtain ⟨dimensions, rfl, -⟩ := derives_node (derives_rule hback)
    exact .array hsimple

theorem isTypeUse_annotations {rest : List (ParseTree Part)} (h : Derives body annotations trees)
    (hrest : IsTypeUse rest) : IsTypeUse (trees ++ rest) := by
  refine h.many_induction hrest ?_
  intro once more honce ih
  obtain ⟨sign, rfl, -⟩ := derives_node (derives_rule honce)
  exact .annotated ih

end Pattern

namespace Construct

open Pattern

/-- The patterns that may stand under the label of a type. -/
def typePatterns : List JavaPattern :=
  [.rule .simpleType, all [.rule .simpleType, optional (.rule .dimensions)],
    all [annotations, .rule .simpleType, optional (.rule .dimensions)],
    all [simpleTypeBody ["class"], optional (.rule .dimensions)]]

def spellsType : Part → JavaPattern → Bool
  | .typeUse, inner => typePatterns.any fun pattern => inner = pattern
  | _, _ => true

theorem spellsType_body : ∀ construct, (body construct).eachNode spellsType = true :=
  forall_of_every (by decide +kernel)

end Construct

/-- **What is marked as a type is spelled like one**, at whatever depth. -/
theorem isTypeUse_of_within {tokens : List Token} {trees children : List (ParseTree Part)}
    (h : javaGrammar.parse? tokens = some trees) (hwithin : Within (.node .typeUse children) trees) :
    IsTypeUse children := by
  obtain ⟨inner, hinner, hderives⟩ := (javaGrammar.derives_of_parse? h).1.of_within Construct.spellsType_body rfl hwithin
  have hsimple (trees : List (ParseTree Part)) (h : Pattern.Derives Construct.body (.rule .simpleType) trees) :
      ∃ tree, trees = [tree] ∧ IsSimple tree :=
    Pattern.isSimple_of_derives (Pattern.derives_rule h)
  simp only [Construct.spellsType, Construct.typePatterns, List.any_cons, List.any_nil, Bool.or_eq_true,
    decide_eq_true_eq, Bool.or_false] at hinner
  rcases hinner with rfl | rfl | rfl | rfl
  · obtain ⟨tree, rfl, htree⟩ := hsimple children hderives
    exact .simple htree
  · exact Pattern.isTypeUse_dimensioned hsimple hderives
  · obtain ⟨front, back, rfl, hfront, hback⟩ := Pattern.derives_seq hderives
    exact Pattern.isTypeUse_annotations hfront (Pattern.isTypeUse_dimensioned hsimple hback)
  · exact Pattern.isTypeUse_dimensioned (fun _ => Pattern.isSimple_of_derives) hderives

end JavaAtlas.Syntax
