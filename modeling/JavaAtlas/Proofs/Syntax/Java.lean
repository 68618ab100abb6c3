import JavaAtlas.Syntax.Java
import JavaAtlas.Proofs.Syntax.Derivation

/-!
# Nodes of Java trees

The children of the nodes whose texts are read off a tree of a Java source: a name is a single word, a dotted
name is words and points, and a package header is the word `package`, a dotted name and a semicolon, behind
annotations. That holds at any depth, since these labels stand over such patterns everywhere in the grammar.
-/

namespace JavaAtlas.Syntax

open Pattern ParseTree

deriving instance DecidableEq for Pattern

namespace Construct

def isSingleName : JavaPattern → Bool
  | .token false (.name _) => true
  | _ => false

/-- Whether a pattern may stand under a label, as far as names and package headers are concerned. -/
def standsUnder : Part → JavaPattern → Bool
  | .name, inner => isSingleName inner
  | .qualifiedName, inner => .node .qualifiedName inner = body .qualifiedName
  | .packageHeader, inner => .node .packageHeader inner = body .packageHeader
  | _, _ => true

theorem eachNode_body (construct : Construct) : (body construct).eachNode standsUnder = true := by
  cases construct with
  | expression arrows => cases arrows <;> rfl
  | operation arrows => cases arrows <;> rfl
  | operand arrows => cases arrows <;> rfl
  | chain arrows => cases arrows <;> rfl
  | links arrows => cases arrows <;> rfl
  | placeLinks arrows => cases arrows <;> rfl
  | modifiers beforeTypes => cases beforeTypes <;> rfl
  | _ => rfl

end Construct

open Construct

variable {tokens : List Token} {trees children : List (ParseTree Part)}

theorem exists_derives_of_within {label : Part} (h : javaGrammar.parse? tokens = some trees)
    (hwithin : Within (.node label children) trees) :
    ∃ inner, standsUnder label inner = true ∧ Derives body inner children :=
  (javaGrammar.derives_of_parse? h).1.of_within eachNode_body rfl hwithin

theorem name_children (h : javaGrammar.parse? tokens = some trees)
    (hwithin : Within (.node .name children) trees) :
    ∃ token spelling, children = [.leaf token] ∧ token.lexeme = .word spelling := by
  obtain ⟨inner, hinner, hderives⟩ := exists_derives_of_within h hwithin
  rw [standsUnder] at hinner
  unfold isSingleName at hinner
  split at hinner
  · exact derives_name hderives
  · cases hinner

theorem qualifiedName_children (h : javaGrammar.parse? tokens = some trees)
    (hwithin : Within (.node .qualifiedName children) trees) :
    ∃ token spelling rest, children = .leaf token :: rest ∧ token.lexeme = .word spelling ∧
      ∀ tree ∈ rest, ∃ token, tree = .leaf token ∧
        (token.lexeme = .symbol "." ∨ ∃ spelling, token.lexeme = .word spelling) := by
  obtain ⟨inner, hinner, hderives⟩ := exists_derives_of_within h hwithin
  have hbody : inner = all [name [], .many (all [symbol ".", name []])] := by
    simpa [standsUnder, body] using hinner
  rw [hbody] at hderives
  obtain ⟨front, back, rfl, hfront, hback⟩ := derives_seq hderives
  obtain ⟨token, spelling, rfl, hlexeme⟩ := derives_name hfront
  refine ⟨token, spelling, back, rfl, hlexeme, forall_of_derives_many ?_ hback⟩
  intro round hround tree hmem
  obtain ⟨point, segment, rfl, hpoint, hsegment⟩ := derives_seq hround
  obtain ⟨mark, rfl, hmark⟩ := derives_symbol hpoint
  obtain ⟨part, spelling, rfl, hpart⟩ := derives_name hsegment
  rcases List.mem_append.1 hmem with hmem | hmem
  · exact ⟨mark, List.mem_singleton.1 hmem, Or.inl hmark⟩
  · exact ⟨part, List.mem_singleton.1 hmem, Or.inr ⟨spelling, hpart⟩⟩

theorem packageHeader_children (h : javaGrammar.parse? tokens = some trees)
    (hwithin : Within (.node .packageHeader children) trees) :
    ∃ annotations keyword names semicolon,
      children = annotations ++ [.leaf keyword, .node .qualifiedName names, .leaf semicolon] ∧
      (∀ tree ∈ annotations, ∃ below, tree = .node .annotationUse below) ∧
      keyword.lexeme = .word "package" ∧ semicolon.lexeme = .symbol ";" := by
  obtain ⟨inner, hinner, hderives⟩ := exists_derives_of_within h hwithin
  have hbody : inner = all [.many annotationBeforeType, word "package", .rule .qualifiedName, symbol ";"] := by
    simpa [standsUnder, body] using hinner
  rw [hbody] at hderives
  obtain ⟨front, back, rfl, hannotations, hderives⟩ := derives_seq hderives
  obtain ⟨front₁, back₁, rfl, hkeyword, hderives⟩ := derives_seq hderives
  obtain ⟨front₂, back₂, rfl, hname, hsemicolon⟩ := derives_seq hderives
  obtain ⟨keyword, rfl, hpackage⟩ := derives_word hkeyword
  obtain ⟨names, rfl, -⟩ := derives_node (derives_rule hname)
  obtain ⟨semicolon, rfl, hend⟩ := derives_symbol hsemicolon
  refine ⟨front, keyword, names, semicolon, rfl, ?_, hpackage, hend⟩
  refine forall_of_derives_many ?_ hannotations
  intro once honce tree hmem
  obtain ⟨none, annotation, rfl, hnone, hannotation⟩ := derives_seq honce
  cases hnone
  obtain ⟨below, rfl, -⟩ := derives_node (derives_rule hannotation)
  exact ⟨below, List.mem_singleton.1 hmem⟩

end JavaAtlas.Syntax
