import Mathlib.Data.List.TakeWhile
import JavaAtlas.Event
import JavaAtlas.Proofs.Extraction.Candidates
import JavaAtlas.Proofs.Header
import JavaAtlas.Proofs.SourceUnit.Headers
import JavaAtlas.Proofs.SourceUnit.Names
import JavaAtlas.SourceIndex

/-!
# Where headers and units agree

The package of a source is told twice, by a look at its lines and by the unit that it spells. The text of the
first package declaration of the unit decides whether the two agree: its keyword has to open a line, the rest of it
has to stand on that line in plain, and no line before may name a package. A comment in front of the keyword, a
declaration that goes over several lines, or a line inside a comment that reads like a declaration is enough for
them to differ.
-/

namespace JavaAtlas

namespace SourceUnit

open JavaAtlas.Syntax JavaAtlas.Text ParseTree

/-- A package declaration in the text of a source: what stands before its keyword, and what stands between
the keyword and the semicolon. -/
structure Declaration where
  before : List Char
  body : List Char
deriving DecidableEq, Repr

/-- The declaration of a package header, in a source with a given mark at its start. -/
def declarationAt (mark : List Char) (site : Site) : Option Declaration :=
  match site.children.reverse with
  | .leaf semicolon :: name :: .leaf keyword :: annotations =>
    some {
      before := mark ++ Token.source (site.before ++ tokensOfAll annotations.reverse) ++ keyword.gap
      body := Token.source name.tokens ++ semicolon.gap }
  | _ => none

/-- The first package declaration at the top of the unit that a source spells. -/
def declaration? (source : String) : Option Declaration := do
  let tokens ← scan source.toList
  let trees ← javaGrammar.parse? tokens
  let site ← (sitesOfAll [] trees).head?
  declarationAt (mark source.toList) site

namespace Declaration

/-- The line on which the keyword stands has only blanks before it. -/
def OpensLine (declaration : Declaration) : Prop :=
  ∀ c ∈ Header.lastLine declaration.before, isBlank c = true

/-- There are only characters of a name between keyword and semicolon, and no line ends there. -/
def IsPlain (declaration : Declaration) : Prop :=
  ∀ c ∈ declaration.body, Header.isNameChar c = true ∧ c ≠ '\n'

/-- A declaration stands in a source and declares a package: its text is found there, it opens like a gap and
has no semicolon before the first comment in it, and it spells the name if there is no comment in it. -/
structure Declares (source : String) (package : Option String) (declaration : Declaration) : Prop where
  found : ∃ after, source.toList =
    declaration.before ++ (Header.keyword ++ (declaration.body ++ ';' :: after))
  long : 2 ≤ declaration.body.length
  opens : ∀ c ∈ declaration.body.head?, isBlank c = true ∨ c = '/'
  unended : ';' ∉ declaration.body.takeWhile (· != '/')
  spells : '/' ∉ declaration.body → package = some (String.ofList (unspaced declaration.body))

end Declaration

/-! ### From trees to text -/

variable {source : String} {unit : SourceUnit} {declaration : Declaration}
  {annotations : List JavaTree} {names : List JavaTree} {keyword semicolon : Token} {site : Site}

theorem declarationAt_eq (mark : List Char)
    (h : site.children = annotations ++ [.leaf keyword, .node .qualifiedName names, .leaf semicolon]) :
    declarationAt mark site = some {
      before := mark ++ Token.source (site.before ++ tokensOfAll annotations) ++ keyword.gap
      body := Token.source (tokensOfAll names) ++ semicolon.gap } := by
  simp [declarationAt, h]

/-- The name of a header is read off the dotted name behind its annotations. -/
theorem name_eq
    (h : site.children = annotations ++ [.leaf keyword, .node .qualifiedName names, .leaf semicolon])
    (hannotations : ∀ tree ∈ annotations, ∃ below, tree = .node .annotationUse below) :
    site.name = String.ofList (unspaced (sourceOf names)) := by
  have hfirst : firstLabelled .qualifiedName site.children = some names := by
    rw [h]
    clear h
    induction annotations with
    | nil => rfl
    | cons tree rest ih =>
      obtain ⟨below, rfl⟩ := hannotations tree List.mem_cons_self
      exact ih fun other hother => hannotations other (List.mem_cons_of_mem _ hother)
  rw [Site.name, qualifiedNameIn, hfirst]

/-! ### The body of a declaration

It is cut into gaps, words and points, and none of them has a semicolon before the first comment in it. -/

theorem semicolon_not_mem_append {front back : List Char} (hfront : ';' ∉ front.takeWhile (· != '/'))
    (hback : ';' ∉ back.takeWhile (· != '/')) : ';' ∉ (front ++ back).takeWhile (· != '/') := by
  rw [List.takeWhile_append]
  split
  · next hwhole =>
    have hall : front.takeWhile (· != '/') = front :=
      (List.takeWhile_prefix _).eq_of_length hwhole
    rw [hall] at hfront
    intro hmem
    exact (List.mem_append.1 hmem).elim hfront hback
  · exact hfront

theorem semicolon_not_mem_of_blank {gap : List Char}
    (h : ∀ c ∈ gap.takeWhile (· != '/'), isBlank c = true) : ';' ∉ gap.takeWhile (· != '/') := by
  intro hmem
  exact absurd (h _ hmem) (by decide)

/-- Words and points have no semicolon in them, and neither have the gaps between them before a comment. -/
theorem semicolon_not_mem_source {text : List Char} {front back : List Token}
    (h : Cut text (front ++ back))
    (hfront : ∀ token ∈ front, token.lexeme = .symbol "." ∨ ∃ spelling, token.lexeme = .word spelling) :
    ';' ∉ (Token.source front).takeWhile (· != '/') := by
  induction front generalizing text with
  | nil => simp [Token.source]
  | cons token front ih =>
    have hgap := semicolon_not_mem_of_blank h.isBlank_of_mem_gap
    cases h with
    | token hsource _ hspells hrest =>
      have hspelled : ';' ∉ token.spelled.takeWhile (· != '/') := by
        refine fun hmem => absurd (List.takeWhile_subset _ hmem) ?_
        rcases hfront token List.mem_cons_self with hpoint | ⟨spelling, hword⟩
        · rw [hpoint] at hspells
          rw [spells_symbol hspells]
          decide
        · rw [hword] at hspells
          intro hmem
          have hpart := isIdentifierPart_of_isIdentifier (spells_word hspells).2.1 _ hmem
          exact absurd hpart (by decide +kernel)
      have hlater := ih hrest fun other hother => hfront other (List.mem_cons_of_mem _ hother)
      have hshape : Token.source (token :: front) = token.gap ++ (token.spelled ++ Token.source front) := by
        simp [Token.source]
      rw [hshape]
      exact semicolon_not_mem_append hgap (semicolon_not_mem_append hspelled hlater)

/-- A text before a comment that is blank has nothing left when its blanks are taken out. -/
theorem unspaced_eq_nil {gap : List Char} (h : ∀ c ∈ gap.takeWhile (· != '/'), isBlank c = true)
    (hslash : '/' ∉ gap) : unspaced gap = [] := by
  have hwhole : gap.takeWhile (· != '/') = gap := by
    rw [List.takeWhile_eq_self_iff]
    intro c hc
    rw [bne_iff_ne]
    exact fun hsame => hslash (hsame ▸ hc)
  rw [hwhole] at h
  rw [unspaced, List.filter_eq_nil_iff]
  intro c hc
  simp [h c hc]

/-! ### The declaration of a unit -/

/-- The tokens of a source around the package declaration of its unit, with the text of the declaration. -/
theorem exists_tokens_of_declaration? (hparse : parse? source = some unit)
    (hdeclaration : declaration? source = some declaration) :
    ∃ front keyword first spelling later semicolon after,
      scan source.toList = some (front ++ keyword :: ((first :: later) ++ semicolon :: after)) ∧
      keyword.lexeme = .word "package" ∧ first.lexeme = .word spelling ∧
      (∀ token ∈ later, token.lexeme = .symbol "." ∨ ∃ spelling, token.lexeme = .word spelling) ∧
      semicolon.lexeme = .symbol ";" ∧
      declaration = {
        before := mark source.toList ++ Token.source front ++ keyword.gap
        body := Token.source (first :: later) ++ semicolon.gap } ∧
      unit.package? = some (String.ofList (unspaced (Token.slice (first :: later)))) := by
  obtain ⟨tokens, trees, hscan, htrees, rfl⟩ := parse?_eq_some_iff.1 hparse
  simp only [declaration?, hscan, htrees, Option.bind_eq_bind, Option.bind_some] at hdeclaration
  obtain ⟨site, hsite, hat⟩ := Option.bind_eq_some_iff.1 hdeclaration
  obtain ⟨hwithin, after, htokens⟩ := (locates_ofTrees trees).stand site (List.mem_of_head? hsite)
  obtain ⟨annotations, keyword, names, semicolon, hchildren, hannotations, hkeyword, hsemicolon⟩ :=
    packageHeader_children htrees hwithin
  have hnames : Within (.node .qualifiedName names) site.children := by
    refine .here ?_
    rw [hchildren]
    simp
  obtain ⟨first, spelling, more, rfl, hfirst, hmore⟩ :=
    qualifiedName_children htrees (Within.trans hnames hwithin)
  have hlater : ∀ token ∈ tokensOfAll more,
      token.lexeme = .symbol "." ∨ ∃ spelling, token.lexeme = .word spelling := by
    intro token htoken
    obtain ⟨tree, htree, hleaf⟩ := mem_tokensOfAll.1 htoken
    obtain ⟨other, rfl, hlexeme⟩ := hmore tree htree
    rw [tokens_leaf, List.mem_singleton] at hleaf
    exact hleaf ▸ hlexeme
  have hjoined : tokensOfAll (.leaf first :: more) = first :: tokensOfAll more := by
    simp
  rw [declarationAt_eq _ hchildren, hjoined, Option.some.injEq] at hat
  rw [List.nil_append, (javaGrammar.derives_of_parse? htrees).2, hchildren] at htokens
  have horder : tokens = (site.before ++ tokensOfAll annotations) ++
      keyword :: ((first :: tokensOfAll more) ++ semicolon :: after) := by
    rw [← htokens]
    simp
  refine ⟨_, keyword, first, spelling, tokensOfAll more, semicolon, after, horder ▸ hscan, hkeyword, hfirst,
    hlater, hsemicolon, hat.symm, ?_⟩
  rw [package?_ofTrees, hsite, Option.map_some, name_eq hchildren hannotations, sourceOf, hjoined]

/-- **The text of the first declaration of a unit is found in its source.** -/
theorem declares_of_declaration? (hparse : parse? source = some unit)
    (hdeclaration : declaration? source = some declaration) :
    declaration.Declares source unit.package? := by
  obtain ⟨front, keyword, first, spelling, later, semicolon, after, hscan, hkeyword, hfirst, hlater, hsemicolon,
    rfl, hpackage⟩ := exists_tokens_of_declaration? hparse hdeclaration
  -- The text is cut before the keyword, after it, after the dotted name and after the semicolon.
  obtain ⟨text, hmark, hcut⟩ := cut_scan hscan
  obtain ⟨opened, rfl, hopened⟩ := hcut.exists_append
  obtain ⟨named, rfl, hstop, hnamed⟩ := hopened.exists_word hkeyword
  obtain ⟨ended, rfl, hended⟩ := hnamed.exists_append
  obtain ⟨rest, rfl, -⟩ := hended.exists_symbol hsemicolon
  obtain ⟨c, gap, hgap, hopens⟩ := Cut.exists_gap hnamed hfirst hstop
  have hbody : Token.source (first :: later) ++ semicolon.gap =
      first.gap ++ (Token.slice (first :: later) ++ semicolon.gap) := by
    simp [Token.source, Token.slice]
  refine ⟨⟨rest, ?_⟩, ?_, ?_, ?_, ?_⟩
  · have hword : "package".toList = Header.keyword := rfl
    have hsymbol : ";".toList = [';'] := rfl
    refine hmark.trans ?_
    simp [hword, hsymbol]
  · have hspelled : 0 < first.spelled.length := by
      obtain ⟨_, hspells⟩ := hcut.spells first (by simp)
      rw [hfirst] at hspells
      exact List.length_pos_iff.2 (ne_nil_of_isIdentifier (spells_word hspells).2.1)
    rw [hbody, hgap]
    simp only [Token.slice, List.cons_append, List.length_cons, List.length_append]
    omega
  · rw [hbody, hgap]
    intro d hd
    cases hd
    exact hopens
  · have hwords : ∀ token ∈ first :: later,
        token.lexeme = .symbol "." ∨ ∃ spelling, token.lexeme = .word spelling :=
      List.forall_mem_cons.2 ⟨Or.inr ⟨spelling, hfirst⟩, hlater⟩
    exact semicolon_not_mem_append (semicolon_not_mem_source hnamed hwords)
      (semicolon_not_mem_of_blank hended.isBlank_of_mem_gap)
  · intro hslash
    rw [hbody, List.mem_append, List.mem_append, not_or, not_or] at hslash
    have hopening := unspaced_eq_nil hnamed.isBlank_of_mem_gap hslash.1
    have hclosing := unspaced_eq_nil hended.isBlank_of_mem_gap hslash.2.2
    rw [hpackage, hbody]
    simp only [unspaced, List.filter_append] at hopening hclosing ⊢
    rw [hopening, hclosing, List.nil_append, List.append_nil]

theorem package?_of_declaration?_eq_none (hparse : parse? source = some unit)
    (hnone : declaration? source = none) : unit.package? = none := by
  obtain ⟨tokens, trees, hscan, htrees, rfl⟩ := parse?_eq_some_iff.1 hparse
  simp only [declaration?, hscan, htrees, Option.bind_eq_bind, Option.bind_some] at hnone
  rw [package?_ofTrees]
  cases hsite : (sitesOfAll [] trees).head? with
  | none => rfl
  | some site =>
    obtain ⟨hwithin, -⟩ := (locates_ofTrees trees).stand site (List.mem_of_head? hsite)
    obtain ⟨annotations, keyword, names, semicolon, hchildren, -⟩ := packageHeader_children htrees hwithin
    rw [hsite, Option.bind_some, declarationAt_eq _ hchildren] at hnone
    cases hnone

/-! ### Agreement -/

theorem Declaration.IsPlain.slash_not_mem (h : declaration.IsPlain) : '/' ∉ declaration.body := by
  intro hmem
  have hname := (h _ hmem).1
  rw [Header.not_isNameChar_slash] at hname
  cases hname

/-- A declaration is plain when what follows its keyword reads as the body of a statement on one line. -/
theorem Declaration.Declares.isPlain_iff {package : Option String} (h : declaration.Declares source package) :
    declaration.IsPlain ↔ Header.IsBody declaration.body ∧ '\n' ∉ declaration.body := by
  constructor
  · intro hplain
    refine ⟨⟨h.long, ?_, fun c hc => (hplain c hc).1⟩, fun hnewline => (hplain _ hnewline).2 rfl⟩
    intro c hc
    refine (h.opens c hc).resolve_right ?_
    intro hslash
    exact hplain.slash_not_mem (hslash ▸ List.mem_of_head? hc)
  · intro hbody c hc
    exact ⟨hbody.1.2.2 c hc, fun hnewline => hbody.2 (hnewline ▸ hc)⟩

/-- The lines that come before the first package declaration of a source, up to its keyword; all lines if it has
none. -/
def linesBefore (source : String) : List (List Char) :=
  match declaration? source with
  | some declaration => Header.lines declaration.before
  | none => Header.lines source.toList

/-- The first package declaration of a source, if it has one, opens a line and stands on it in plain, and no line
before it names a package. -/
structure Readable (source : String) : Prop where
  opens : ∀ declaration ∈ declaration? source, declaration.OpensLine
  plain : ∀ declaration ∈ declaration? source, declaration.IsPlain
  quiet : ∀ line ∈ linesBefore source, Header.namedOn line = none

instance (declaration : Declaration) : Decidable declaration.OpensLine :=
  List.decidableBAll (isBlank · = true) (Header.lastLine declaration.before)

instance (declaration : Declaration) : Decidable declaration.IsPlain :=
  List.decidableBAll (fun c => Header.isNameChar c = true ∧ c ≠ '\n') declaration.body

/-- **What is read off a source whose declaration opens a line**: what earlier lines name, else the package of the
unit, provided that the declaration is plain, else what later lines name. -/
theorem header_package?_of_opensLine (hparse : parse? source = some unit)
    (hdeclaration : declaration? source = some declaration) (hopens : declaration.OpensLine) :
    ∃ later, Header.package? source =
      (((linesBefore source).findSome? Header.namedOn).or
        (if declaration.IsPlain then unit.package? else none)).or
          (List.findSome? Header.namedOn later) := by
  have hdeclares := declares_of_declaration? hparse hdeclaration
  obtain ⟨after, hfound⟩ := hdeclares.found
  have hbefore : linesBefore source = Header.lines declaration.before := by
    rw [linesBefore, hdeclaration]
  have hline : Header.namedOn (Header.lastLine declaration.before ++
      (Header.keyword ++ Header.firstLine (declaration.body ++ ';' :: after))) =
        if declaration.IsPlain then unit.package? else none := by
    split
    · next hplain =>
      rw [hdeclares.spells hplain.slash_not_mem]
      exact (Header.namedOn_declaration hopens hdeclares.unended).2 ⟨hdeclares.isPlain_iff.1 hplain, rfl⟩
    · next hplain =>
      rw [Option.eq_none_iff_forall_ne_some]
      intro name hname
      exact hplain (hdeclares.isPlain_iff.2 ((Header.namedOn_declaration hopens hdeclares.unended).1 hname).1)
  have hearlier : Header.package? (String.ofList declaration.before) =
      (linesBefore source).findSome? Header.namedOn := by
    rw [Header.package?_eq, String.toList_ofList, hbefore]
  have hread := Header.package?_keyword hfound hopens
  rw [hline, hearlier] at hread
  exact ⟨_, hread⟩

/-- **A readable source tells its package twice alike**: by its lines and by its unit. So the index, the events and
the reports put it into the same package. -/
theorem header_package?_eq (hparse : parse? source = some unit) (hreadable : Readable source) :
    Header.package? source = unit.package? ∧
      (∀ path, Event.classNameOf path source =
        unit.package?.getD "default" ++ "." ++ (Path.fileStem? path).getD "") ∧
      (∀ tree path stem, Path.fileStem? path = some stem → FileTree.text? tree path = some source →
        SourceIndex.typeAt? tree path = some (qualify unit.package? stem)) ∧
      ∀ oracle, (Extraction.extract oracle unit).className =
        qualify unit.package? (unit.mainType?.getD "UnknownClass") := by
  have hsilent : (linesBefore source).findSome? Header.namedOn = none :=
    List.findSome?_eq_none_iff.2 hreadable.quiet
  have hsame : Header.package? source = unit.package? := by
    cases hdeclaration : declaration? source with
    | none =>
      rw [linesBefore, hdeclaration] at hsilent
      rw [package?_of_declaration?_eq_none hparse hdeclaration]
      exact hsilent
    | some declaration =>
      have hplain := hreadable.plain declaration hdeclaration
      obtain ⟨later, hread⟩ := header_package?_of_opensLine hparse hdeclaration
        (hreadable.opens declaration hdeclaration)
      have hnamed := (declares_of_declaration? hparse hdeclaration).spells hplain.slash_not_mem
      rw [hread, hsilent, if_pos hplain, hnamed, Option.none_or, Option.some_or]
  refine ⟨hsame, ?_, ?_, ?_⟩
  · intro path
    rw [Event.classNameOf, hsame]
  · intro tree path stem hstem htext
    simp [SourceIndex.typeAt?, hstem, htext, hsame]
  · intro oracle
    exact Extraction.className_foldl_accept _ _

/-- A comment on its own line, then a declaration with blanks inside and a second one behind it. -/
def spacedSource : String :=
  "// package o;\n@Deprecated\n package p . q ; package r;\nclass A \x7b\x7d"

theorem exists_spacedUnit :
    ∃ unit, parse? spacedSource = some unit ∧ unit.package? = some "p.q" := by
  have hpackage : (parse? spacedSource).bind (·.package?) = some "p.q" := by
    decide +kernel
  exact Option.bind_eq_some_iff.1 hpackage

theorem spacedSource_readable : Readable spacedSource := by
  have hfound : declaration? spacedSource = some {
      before := "// package o;\n@Deprecated\n ".toList
      body := " p . q ".toList } := by
    decide +kernel
  constructor
  · rw [hfound]
    intro declaration hdeclaration
    cases hdeclaration
    decide +kernel
  · rw [hfound]
    intro declaration hdeclaration
    cases hdeclaration
    decide +kernel
  · rw [linesBefore, hfound]
    decide +kernel

theorem spacedSource_package? :
    ∃ unit, parse? spacedSource = some unit ∧ Header.package? spacedSource = unit.package? ∧
      Event.classNameOf "A.java" spacedSource = "p.q.A" := by
  obtain ⟨unit, hparse, hpackage⟩ := exists_spacedUnit
  obtain ⟨hsame, hevent, -, -⟩ := header_package?_eq hparse spacedSource_readable
  refine ⟨unit, hparse, hsame, ?_⟩
  rw [hevent, hpackage]
  decide +kernel

/-- A comment before the keyword hides the declaration from the look at the lines. -/
theorem comment_hides_declaration :
    ¬ ∀ (source : String) (unit : SourceUnit), parse? source = some unit →
      Header.package? source = unit.package? := by
  intro h
  have hpackage : (parse? "/* c */ package p; class A \x7b\x7d").bind (·.package?) = some "p" := by
    decide +kernel
  obtain ⟨unit, hparse, hunit⟩ := Option.bind_eq_some_iff.1 hpackage
  have hlines : Header.package? "/* c */ package p; class A \x7b\x7d" = none := by
    decide +kernel
  rw [h _ unit hparse, hunit] at hlines
  cases hlines

end SourceUnit

end JavaAtlas
