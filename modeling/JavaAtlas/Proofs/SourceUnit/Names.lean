import JavaAtlas.Proofs.SourceUnit.DeclaredTypes
import JavaAtlas.Proofs.SourceUnit.Origin
import JavaAtlas.Proofs.Syntax.Java
import JavaAtlas.Proofs.Syntax.Scan
import JavaAtlas.Proofs.Text.Characters

/-!
# Names in parsed units

What the names in a unit look like once it has been read from a source: the names of types are identifiers, and
the name of its package has no blank in it. So the name under which a unit is reported has none either.
-/

namespace JavaAtlas

namespace SourceUnit

open JavaAtlas.Syntax JavaAtlas.Text ParseTree

variable {source : String} {unit : SourceUnit} {tokens : List Token} {trees children : List JavaTree}

theorem parse?_eq_some_iff :
    parse? source = some unit ↔ ∃ tokens trees, scan source.toList = some tokens ∧
      javaGrammar.parse? tokens = some trees ∧ ofTrees trees = unit := by
  simp only [parse?, Option.bind_eq_bind, Option.bind_eq_some_iff, Option.pure_def, Option.some.injEq]
  constructor
  · rintro ⟨tokens, htokens, trees, htrees, hunit⟩
    exact ⟨tokens, trees, htokens, htrees, hunit⟩
  · rintro ⟨tokens, trees, htokens, htrees, hunit⟩
    exact ⟨tokens, htokens, trees, htrees, hunit⟩

theorem exists_identifier_of_within (hscan : scan source.toList = some tokens)
    (hparse : javaGrammar.parse? tokens = some trees) (hwithin : Within (.node .name children) trees) :
    ∃ token, children = [.leaf token] ∧ isIdentifier token.spelled = true := by
  obtain ⟨token, spelling, rfl, hlexeme⟩ := name_children hparse hwithin
  have hmem : token ∈ tokens := by
    rw [← (javaGrammar.derives_of_parse? hparse).2]
    refine mem_tokensOfAll_of_within ?_ hwithin
    simp
  exact ⟨token, rfl, isIdentifier_of_mem_scan hscan hmem hlexeme⟩

/-- The name marked among the children of a node is an identifier, or there is none. -/
theorem isIdentifier_nameIn {label : Part} (hscan : scan source.toList = some tokens)
    (hparse : javaGrammar.parse? tokens = some trees) (hwithin : Within (.node label children) trees) :
    nameIn children = "" ∨ isIdentifier (nameIn children).toList = true := by
  unfold nameIn
  split
  · next leaves hleaves =>
    right
    have hname : Within (.node .name leaves) trees :=
      Within.trans (.here (mem_of_firstLabelled hleaves)) hwithin
    obtain ⟨token, rfl, hspelled⟩ := exists_identifier_of_within hscan hparse hname
    simpa [sourceOf, Token.slice, Token.source] using hspelled
  · exact Or.inl rfl

theorem isBlank_of_mem_qualifiedNameIn :
    ∀ c ∈ (qualifiedNameIn children).toList, isBlank c = false := by
  intro c hc
  unfold qualifiedNameIn at hc
  split at hc
  · rw [String.toList_ofList] at hc
    exact isBlank_of_mem_unspaced hc
  · simp at hc

/-- **The types of a parsed unit bear identifiers as names**, or none at all. -/
theorem isIdentifier_typeNames (hparse : parse? source = some unit) :
    ∀ name ∈ unit.typeNames, name = "" ∨ isIdentifier name.toList = true := by
  obtain ⟨tokens, trees, hscan, htrees, rfl⟩ := parse?_eq_some_iff.1 hparse
  intro name hname
  obtain ⟨node, hnode, hheader⟩ := List.mem_filterMap.1 hname
  obtain ⟨label, children, hbecomes⟩ := exists_becomes (mem_walk.1 hnode)
  have hwithin := hbecomes.within
  cases hbecomes with
  | package | imported | created | chained => cases hheader
  | declared _ _ hhead =>
    unfold declaredHead at hhead
    split at hhead
    · cases hhead
      cases hheader
      exact isIdentifier_nameIn hscan htrees hwithin
    all_goals
      cases hhead
    all_goals
      cases hheader

theorem isBlank_of_mem_package? (hparse : parse? source = some unit) :
    ∀ name ∈ unit.package?, ∀ c ∈ name.toList, isBlank c = false := by
  obtain ⟨tokens, trees, hscan, htrees, rfl⟩ := parse?_eq_some_iff.1 hparse
  intro name hname
  obtain ⟨node, hnode, hfound⟩ := List.exists_of_findSome?_eq_some hname
  obtain ⟨label, children, hbecomes⟩ := exists_becomes ⟨node, hnode, .self node⟩
  cases hbecomes with
  | package =>
    cases hfound
    exact isBlank_of_mem_qualifiedNameIn
  | imported | declared | created | chained => cases hfound

theorem mem_typeNames_of_mainType? {name : String} (h : unit.mainType? = some name) :
    name ∈ unit.typeNames := by
  obtain ⟨⟨header, members⟩, hfind, rfl⟩ := Option.map_eq_some_iff.1 h
  obtain ⟨node, hnode, hheader⟩ := List.mem_filterMap.1 (List.mem_of_find?_eq_some hfind)
  split at hheader
  · next found below =>
    have hholds : unit.Holds (.branch (.type found) below) := ⟨_, hnode, .self _⟩
    split at hheader
    · cases hheader
    · cases hheader
      exact mem_typeNames hholds
  · cases hheader

/-- **The name under which a parsed unit is reported has no blank in it.** -/
theorem isBlank_of_mem_className (hparse : parse? source = some unit) :
    ∀ c ∈ unit.className.toList, isBlank c = false := by
  have hmain : ∀ c ∈ (unit.mainType?.getD "UnknownClass").toList, isBlank c = false := by
    cases hmain : unit.mainType? with
    | none =>
      have hall : ("UnknownClass".toList.all fun c => !isBlank c) = true := by decide
      intro c hc
      simpa using List.all_eq_true.1 hall c hc
    | some name =>
      rcases isIdentifier_typeNames hparse name (mem_typeNames_of_mainType? hmain) with rfl | hname
      · simp
      · exact isBlank_of_isIdentifier hname
  unfold className qualify
  split
  · next package hpackage =>
    intro c hc
    simp only [String.toList_append, List.mem_append] at hc
    rcases hc with (hc | hc) | hc
    · exact isBlank_of_mem_package? hparse package hpackage c hc
    · have hpoint : c = '.' := by simpa using hc
      exact hpoint ▸ by decide
    · exact hmain c hc
  · exact hmain

end SourceUnit

end JavaAtlas
