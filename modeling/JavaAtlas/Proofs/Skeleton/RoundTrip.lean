import JavaAtlas.Proofs.Skeleton.Lowering
import JavaAtlas.Proofs.Skeleton.Reading
import JavaAtlas.Proofs.Skeleton.Scanning
import JavaAtlas.Proofs.SourceUnit.Names

/-!
# Parsing undoes printing

Printing a skeleton and parsing the text gives the unit that the skeleton stands for. The three stages are shown apart:
scanning the text gives the tokens of its trees, the grammar reads these trees off the tokens, and they are lowered to
the unit.
-/

namespace JavaAtlas.Skeleton

open JavaAtlas.Syntax JavaAtlas.SourceUnit ParseTree

/-- **Every skeleton is read back**: its text is well formed, and the unit that is parsed from it has the declarations
of the skeleton, each with its nesting and on the line it was printed on. -/
theorem parse?_text (skeleton : Skeleton) : SourceUnit.parse? skeleton.text = some skeleton.unit := by
  have hparse : javaGrammar.parse? (tokensOfAll skeleton.trees) = some skeleton.trees :=
    javaGrammar_parse?_of_reads skeleton.reads_trees
  exact parse?_eq_some_iff.2 ⟨_, _, skeleton.scan_text, hparse, skeleton.ofTrees_trees⟩

/-- A class with one type to extend and a field of two variables is printed on three lines. -/
example :
    let number : TypeForm := ⟨.primitive "int" (by decide), 0⟩
    let shape : Dotted := ⟨⟨"geometry", by decide, by decide⟩, [⟨"Shape", by decide, by decide⟩]⟩
    let fields : Members true := .field number ⟨"x", by decide, by decide⟩ [⟨"y", by decide, by decide⟩] .none
    Skeleton.text ⟨none, [], [⟨.classType ⟨"Point", by decide, by decide⟩ (some shape) [], fields⟩]⟩ =
      "class Point extends geometry.Shape \x7b\nint x, y;\n\x7d\n" := by
  decide

end JavaAtlas.Skeleton
