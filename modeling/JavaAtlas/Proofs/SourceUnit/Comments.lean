import JavaAtlas.Proofs.SourceUnit.Alike
import JavaAtlas.Proofs.SourceUnit.Names
import JavaAtlas.Proofs.Syntax.Comments

/-!
# Comments and names

A source can be read without its comments if it can be read at all, and then it declares the same types, with the
same names and types of the same erased names. The names in headers are taken from the text, so a comment that stands
inside a dotted name is in it. These names are the same exactly if no such comment has left its slash there.
-/

namespace JavaAtlas

namespace SourceUnit

open JavaAtlas.Syntax JavaAtlas.Text ParseTree

/-- A source with one blank for each comment; behind a line comment the line feed stays. -/
def withoutComments (source : String) : String :=
  String.ofList (uncommented source.toList)

/-- The name in a header has no comment in it, and is the old one if that had none. -/
def BareHeader (name other : String) : Prop :=
  '/' ∉ other.toList ∧ ('/' ∉ name.toList → other = name)

/-- What is asked of a unit without comments: nothing of lines and written texts, and bare names in the headers. -/
def bareLikeness : Likeness where
  line _ _ := True
  text _ _ := True
  header := BareHeader

variable {source : String} {unit bare : SourceUnit} {tokens others : List Token} {trees : List JavaTree}

/-! ### Tokens -/

theorem indistinct_uncomments : Indistinct Uncomments := by
  intro token other h
  refine ⟨h.lexeme, ?_⟩
  rw [Token.touching, Token.touching, h.gap]
  cases token.gap with
  | nil => rfl
  | cons c rest =>
    rw [List.isEmpty_cons, List.isEmpty_eq_false_iff]
    exact blanked_cons_ne_nil c rest

theorem slash_not_mem_of_isGapBlank {gap : List Char} (h : ∀ c ∈ gap, isGapBlank c = true) : '/' ∉ gap := by
  intro hmem
  cases h '/' hmem

theorem source_uncomments (h : List.Forall₂ Uncomments tokens others)
    (hspelled : ∀ token ∈ tokens, '/' ∉ token.spelled) :
    '/' ∉ Token.source others ∧ ('/' ∉ Token.source tokens → Token.source others = Token.source tokens) := by
  induction h with
  | nil => simp [Token.source]
  | cons hhead htail ih =>
    obtain ⟨hplain, hrest⟩ := List.forall_mem_cons.1 hspelled
    obtain ⟨hnone, hsame⟩ := ih hrest
    have hgap := slash_not_mem_of_isGapBlank hhead.blank
    simp only [Token.source, List.flatMap_cons, List.mem_append, not_or, hhead.spelled] at hnone hsame ⊢
    refine ⟨⟨⟨hgap, hplain⟩, hnone⟩, ?_⟩
    rintro ⟨⟨hslash, -⟩, hmore⟩
    rw [hsame hmore, hhead.gap, blanked_eq_self hslash]

/-- In a stretch of source, comments show by their slashes where the tokens have none. -/
theorem slice_uncomments (h : List.Forall₂ Uncomments tokens others)
    (hspelled : ∀ token ∈ tokens, '/' ∉ token.spelled) :
    '/' ∉ Token.slice others ∧ ('/' ∉ Token.slice tokens → Token.slice others = Token.slice tokens) := by
  cases h with
  | nil => simp [Token.slice]
  | cons hhead htail =>
    obtain ⟨hplain, hrest⟩ := List.forall_mem_cons.1 hspelled
    obtain ⟨hnone, hsame⟩ := source_uncomments htail hrest
    simp only [Token.slice, List.mem_append, not_or, hhead.spelled]
    refine ⟨⟨hplain, hnone⟩, ?_⟩
    rintro ⟨-, hmore⟩
    rw [hsame hmore]

/-- No slash is part of a dotted name. -/
theorem slash_not_mem_spelled (hscan : scan source.toList = some tokens) {token : Token} (hmem : token ∈ tokens)
    (hlexeme : token.lexeme = .symbol "." ∨ ∃ spelling, token.lexeme = .word spelling) : '/' ∉ token.spelled := by
  rcases hlexeme with hpoint | ⟨spelling, hword⟩
  · obtain ⟨rest, -, hcut⟩ := cut_scan hscan
    obtain ⟨after, hspells⟩ := hcut.spells token hmem
    rw [hpoint] at hspells
    rw [spells_symbol hspells]
    decide
  · intro hslash
    have hidentifier := isIdentifier_of_mem_scan hscan hmem hword
    exact absurd (isIdentifierPart_of_isIdentifier hidentifier '/' hslash) (by decide +kernel)

/-! ### Trees and units -/

theorem bareHeader_qualifiedName {children below : List JavaTree} (hscan : scan source.toList = some tokens)
    (hparse : javaGrammar.parse? tokens = some trees) (hwithin : Within (.node .qualifiedName children) trees)
    (h : List.Forall₂ Uncomments (tokensOfAll children) (tokensOfAll below)) :
    BareHeader (String.ofList (unspaced (sourceOf children))) (String.ofList (unspaced (sourceOf below))) := by
  have hspelled : ∀ token ∈ tokensOfAll children, '/' ∉ token.spelled := by
    intro token htoken
    have hmem : token ∈ tokens := by
      rw [← (javaGrammar.derives_of_parse? hparse).2]
      apply mem_tokensOfAll_of_within _ hwithin
      rw [tokens_node]
      exact htoken
    apply slash_not_mem_spelled hscan hmem
    obtain ⟨first, spelling, rest, rfl, hword, hrest⟩ := qualifiedName_children hparse hwithin
    obtain ⟨tree, htree, htoken⟩ := mem_tokensOfAll.1 htoken
    rcases List.mem_cons.1 htree with rfl | htree
    · rw [tokens_leaf, List.mem_singleton] at htoken
      exact htoken ▸ Or.inr ⟨spelling, hword⟩
    · obtain ⟨leaf, rfl, hlexeme⟩ := hrest tree htree
      rw [tokens_leaf, List.mem_singleton] at htoken
      exact htoken ▸ hlexeme
  obtain ⟨hnone, hsame⟩ := slice_uncomments h hspelled
  rw [BareHeader, String.toList_ofList, String.toList_ofList]
  have hslash (text : List Char) : '/' ∈ unspaced text ↔ '/' ∈ text := by
    rw [unspaced, List.mem_filter]
    exact and_iff_left (by decide)
  rw [hslash, hslash]
  refine ⟨hnone, ?_⟩
  intro hplain
  rw [sourceOf, hsame hplain, sourceOf]

theorem readsAlike_of_within {children below : List JavaTree} {label : Part}
    (hscan : scan source.toList = some tokens) (hparse : javaGrammar.parse? tokens = some trees)
    (hwithin : Within (.node label children) trees)
    (h : List.Forall₂ (ParseTree.Alike Uncomments fun _ _ _ => True) children below) :
    ReadsAlike bareLikeness label children below := by
  constructor
  · rintro rfl
    obtain ⟨token, spelling, rfl, hlexeme⟩ := name_children hparse hwithin
    cases h with
    | cons hhead htail =>
      cases htail
      cases hhead with
      | leaf htoken => simp [sourceOf, Token.slice, Token.source, htoken.spelled]
  · rintro rfl
    exact bareHeader_qualifiedName hscan hparse hwithin (forall₂_tokensOfAll h)
  · exact fun _ _ => trivial

theorem respects_uncomments : Respects Uncomments bareLikeness where
  lexeme _ _ h := h.lexeme
  line _ := trivial
  nameless := ⟨by simp, fun _ => rfl⟩
  textless := trivial

theorem exists_parse?_withoutComments (h : parse? source = some unit) :
    ∃ bare, parse? (withoutComments source) = some bare ∧ unit.Alike bareLikeness bare := by
  obtain ⟨tokens, trees, hscan, hparse, rfl⟩ := parse?_eq_some_iff.1 h
  obtain ⟨others, hothers, hsame⟩ := scan_uncommented hscan
  have hread := javaGrammar.parse?_alike indistinct_uncomments hsame
  rw [hparse] at hread
  cases hfound : javaGrammar.parse? others with
  | none =>
    rw [hfound] at hread
    cases hread
  | some found =>
    rw [hfound] at hread
    cases hread with
    | some htrees =>
      refine ⟨ofTrees found, ?_, ?_⟩
      · apply parse?_eq_some_iff.2
        rw [withoutComments, String.toList_ofList]
        exact ⟨others, found, hothers, hfound, rfl⟩
      · apply ofTrees_alike respects_uncomments
        apply ParseTree.Alike.refine htrees
        intro label children below hwithin hchildren _
        exact readsAlike_of_within hscan hparse hwithin hchildren

/-! ### Names in headers -/

theorem BareHeader.eq_iff {name other : String} (h : BareHeader name other) :
    other = name ↔ '/' ∉ name.toList := by
  constructor
  · rintro rfl
    exact h.1
  · exact h.2

/-- No header of a unit has a slash in its name. -/
def PlainHeaders (unit : SourceUnit) : Prop :=
  (∀ name ∈ unit.package?, '/' ∉ name.toList) ∧ ∀ item ∈ unit.imports, '/' ∉ item.name.toList

theorem package?_eq_iff (h : unit.Alike bareLikeness bare) :
    bare.package? = unit.package? ↔ ∀ name ∈ unit.package?, '/' ∉ name.toList := by
  have hpackage := h.package?
  generalize unit.package? = ours at hpackage ⊢
  generalize bare.package? = theirs at hpackage ⊢
  cases hpackage with
  | none => simp
  | some hheader =>
    simp only [Option.some.injEq, Option.mem_some, forall_eq']
    exact hheader.eq_iff

theorem importNames_eq_iff (h : unit.Alike bareLikeness bare) :
    bare.imports.map (·.name) = unit.imports.map (·.name) ↔ ∀ item ∈ unit.imports, '/' ∉ item.name.toList := by
  have himports := h.imports
  generalize unit.imports = ours at himports ⊢
  generalize bare.imports = theirs at himports ⊢
  induction himports with
  | nil => simp
  | cons hhead htail ih =>
    rw [List.map_cons, List.map_cons, List.cons.injEq, List.forall_mem_cons]
    exact and_congr hhead.name.eq_iff ih

theorem importKinds_eq (h : unit.Alike bareLikeness bare) :
    (bare.imports.map fun item => (item.isStatic, item.isWildcard)) =
      unit.imports.map fun item => (item.isStatic, item.isWildcard) := by
  have himports := h.imports
  generalize unit.imports = ours at himports ⊢
  generalize bare.imports = theirs at himports ⊢
  induction himports with
  | nil => rfl
  | cons hhead htail ih => rw [List.map_cons, List.map_cons, ih, hhead.isStatic, hhead.isWildcard]

/-- **Without its comments a source declares the same**: node for node the same types, members and creations, with the
same erased name for every reference, the same paths of declared types, and imports of the same kinds. The names of its
package and its imports are the same exactly if no comment stands inside them, which leaves a slash there. -/
theorem parse?_withoutComments (h : parse? source = some unit) :
    ∃ bare, parse? (withoutComments source) = some bare ∧ unit.Alike bareLikeness bare ∧
      bare.declaredTypes = unit.declaredTypes ∧
      (bare.imports.map fun item => (item.isStatic, item.isWildcard)) =
        (unit.imports.map fun item => (item.isStatic, item.isWildcard)) ∧
      (bare.package? = unit.package? ∧ bare.imports.map (·.name) = unit.imports.map (·.name) ↔
        PlainHeaders unit) := by
  obtain ⟨bare, hbare, hsame⟩ := exists_parse?_withoutComments h
  refine ⟨bare, hbare, hsame, hsame.declaredTypes_eq, importKinds_eq hsame, ?_⟩
  exact and_congr (package?_eq_iff hsame) (importNames_eq_iff hsame)

/-- Comments between all parts but those of the names in headers. -/
def commentedSource : String :=
  "/* c */ package /* p.r */ p . q; // d\nimport /* s */ r.S /**/ ;\nclass A /* B */ extends p /* y */ . B \x7b\x7d"

theorem commentedSource_headers :
    ∃ unit bare, parse? commentedSource = some unit ∧ parse? (withoutComments commentedSource) = some bare ∧
      unit.Alike bareLikeness bare ∧ bare.package? = some "p.q" ∧ bare.imports.map (·.name) = ["r.S"] := by
  have hheaders : ((parse? commentedSource).map fun unit => (unit.package?, unit.imports.map (·.name))) =
      some (some "p.q", ["r.S"]) := by
    decide +kernel
  obtain ⟨unit, hparse, hunit⟩ := Option.map_eq_some_iff.1 hheaders
  obtain ⟨hpackage, himports⟩ := Prod.mk.inj hunit
  obtain ⟨bare, hbare, hsame, -, -, hnames⟩ := parse?_withoutComments hparse
  have hplain : PlainHeaders unit := by
    have hall : ∀ name ∈ unit.imports.map (·.name), '/' ∉ name.toList := by
      rw [himports]
      decide
    refine ⟨?_, fun item hitem => hall _ (List.mem_map_of_mem hitem)⟩
    rw [hpackage]
    decide
  obtain ⟨hpackage', himports'⟩ := hnames.2 hplain
  exact ⟨unit, bare, hparse, hbare, hsame, hpackage'.trans hpackage, himports'.trans himports⟩

/-- A comment inside the name of a package stays in it. -/
theorem comment_inside_package_name :
    ¬ ∀ (source : String) (unit : SourceUnit), parse? source = some unit →
      ∃ bare, parse? (withoutComments source) = some bare ∧ bare.package? = unit.package? := by
  intro h
  have hunit : ((parse? "package p./* c */q; class A \x7b\x7d").bind (·.package?)) = some "p./*c*/q" := by
    decide +kernel
  have hbare : ((parse? (withoutComments "package p./* c */q; class A \x7b\x7d")).bind (·.package?)) =
      some "p.q" := by
    decide +kernel
  obtain ⟨unit, hparse, hpackage⟩ := Option.bind_eq_some_iff.1 hunit
  obtain ⟨bare, hother, hsame⟩ := h _ unit hparse
  rw [hother, Option.bind_some, hsame, hpackage] at hbare
  exact absurd hbare (by decide)

end SourceUnit

end JavaAtlas
