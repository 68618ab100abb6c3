import JavaAtlas.Header
import JavaAtlas.Proofs.Extraction.Relined
import JavaAtlas.Proofs.Header
import JavaAtlas.Proofs.SourceUnit.LineOrder
import JavaAtlas.Proofs.Syntax.LeadingLines

/-!
# Sources moved down

Line feeds in front of a source move all that it declares down by as many lines, and change nothing else: not whether
it can be read, not its names and texts, not what its names mean, and not what is found by line. The first token has
another gap before it then, and the text of a tree starts behind the gap of its first token.
-/

namespace JavaAtlas

open JavaAtlas.Syntax JavaAtlas.Text

def withFeeds (count : Nat) (source : String) : String :=
  String.ofList (List.replicate count '\n' ++ source.toList)

def movedLine (count : Nat) (line : Line) : Line :=
  line + UInt32.ofNat count

theorem toNat_movedLine {count : Nat} {line : Line} (h : line.toNat + count < 2 ^ 32) :
    (movedLine count line).toNat = line.toNat + count := by
  rw [movedLine, UInt32.toNat_add, UInt32.toNat_ofNat_of_lt' (by show count < 2 ^ 32; omega), Nat.mod_eq_of_lt h]

theorem compare_movedLine {count : Nat} {first second : Line} (hfirst : first.toNat + count < 2 ^ 32)
    (hsecond : second.toNat + count < 2 ^ 32) :
    compare (movedLine count first) (movedLine count second) = compare first second := by
  have hless : movedLine count first < movedLine count second ↔ first < second := by
    rw [UInt32.lt_iff_toNat_lt, UInt32.lt_iff_toNat_lt, toNat_movedLine hfirst, toNat_movedLine hsecond]
    omega
  have hsame : movedLine count first = movedLine count second ↔ first = second := UInt32.add_left_inj _
  simp only [compare, compareOfLessAndEq, hless, hsame]

namespace SourceUnit

open ParseTree

variable {count : Nat} {tokens others : List Token} {trees children below : List JavaTree} {source : String}

/-! ### Tokens -/

/-- A token and itself some lines further down, behind any gap. -/
structure IsMoved (count : Nat) (token other : Token) : Prop where
  lexeme : other.lexeme = token.lexeme
  spelled : other.spelled = token.spelled
  line : other.line = token.line + count
  counted : 1 ≤ token.line ∧ token.line + count < 2 ^ 32

/-- A token and itself some lines further down, behind the same gap. -/
structure IsMovedBehind (count : Nat) (token other : Token) : Prop extends IsMoved count token other where
  gap : other.gap = token.gap

theorem indistinct_isMovedBehind : Indistinct (IsMovedBehind count) := by
  intro token other h
  refine ⟨h.lexeme, ?_⟩
  rw [Token.touching, Token.touching, h.gap]

theorem source_movedBehind (h : List.Forall₂ (IsMovedBehind count) tokens others) :
    Token.source others = Token.source tokens := by
  induction h with
  | nil => rfl
  | cons hhead htail ih =>
    rw [Token.source, Token.source] at ih ⊢
    rw [List.flatMap_cons, List.flatMap_cons, hhead.gap, hhead.spelled, ih]

theorem slice_moved (h : FrontAlike (IsMoved count) (IsMovedBehind count) tokens others) :
    Token.slice others = Token.slice tokens := by
  cases h with
  | nil => rfl
  | cons hfirst hrest => rw [Token.slice, Token.slice, hfirst.spelled, source_movedBehind hrest]

theorem frontAlike_movedTokens
    (h : ∀ token ∈ tokens, 1 ≤ token.line ∧ token.line + count < 2 ^ 32) :
    FrontAlike (IsMoved count) (IsMovedBehind count) tokens (movedTokens count tokens) := by
  cases tokens with
  | nil => exact .nil
  | cons first rest =>
    obtain ⟨hfirst, hrest⟩ := List.forall_mem_cons.1 h
    refine .cons ⟨rfl, rfl, rfl, hfirst⟩ ?_
    rw [List.forall₂_map_right_iff, List.forall₂_same]
    exact fun token htoken => { lexeme := rfl, spelled := rfl, line := rfl, counted := hrest token htoken, gap := rfl }

/-! ### Trees and units -/

/-- What becomes of the lines that are recorded; zero stands for no line and stays. -/
def recordedLine (count : Nat) (line : Line) : Line :=
  if line = 0 then 0 else movedLine count line

theorem lineOf_moved (h : List.Forall₂ (IsMoved count) (tokensOfAll children) (tokensOfAll below)) :
    lineOf below = recordedLine count (lineOf children) := by
  unfold lineOf firstLine
  generalize tokensOfAll children = ours at h ⊢
  generalize tokensOfAll below = theirs at h ⊢
  cases h with
  | nil => rfl
  | @cons token other _ _ hhead htail =>
    obtain ⟨hlower, hupper⟩ := hhead.counted
    have hline : UInt32.ofNat token.line ≠ 0 := by
      intro hzero
      have hnat := congrArg UInt32.toNat hzero
      rw [toNat_ofNat (by omega)] at hnat
      simp at hnat
      omega
    dsimp only
    rw [recordedLine, if_neg hline, movedLine, hhead.line, UInt32.ofNat_add]

theorem respects_isMoved : Respects (IsMoved count) (.relined (recordedLine count)) where
  lexeme _ _ h := h.lexeme
  line h := lineOf_moved (forall₂_tokensOfAll h)
  nameless := rfl
  textless := rfl

theorem readsAlike_moved {label : Part} {P : Part → List JavaTree → List JavaTree → Prop}
    (h : List.Forall₂ (ParseTree.Alike (IsMoved count) P) children below)
    (hfront : FrontNodes (IsMoved count) (IsMovedBehind count) label children below) :
    ReadsAlike (.relined (recordedLine count)) label children below where
  name _ := slice_moved hfront
  header _ := by
    rw [sourceOf, sourceOf, slice_moved hfront]
    rfl
  texts := by
    intro start length
    have hpart := frontAlike_part (fun _ _ => IsMovedBehind.toIsMoved) h hfront start length
    rw [writtenText, writtenText, sourceOf, sourceOf, slice_moved hpart]
    rfl

theorem scan_withFeeds (hmark : mark source.toList = []) (hlines : count + (1 + lineFeeds source.toList) < 2 ^ 32) :
    Option.Rel (FrontAlike (IsMoved count) (IsMovedBehind count)) (scan source.toList)
      (scan (withFeeds count source).toList) := by
  rw [withFeeds, String.toList_ofList, scan_feeds count hmark]
  cases hscan : scan source.toList with
  | none => exact .none
  | some tokens =>
    refine .some (frontAlike_movedTokens ?_)
    intro token htoken
    obtain ⟨hlower, hupper⟩ := (lines_scan hscan).2 token htoken
    omega

/-- The trees of two sources, whose tokens agree but for the gap before the first. -/
theorem trees?_frontAlike {S R : Token → Token → Prop} {other : String} (hR : Indistinct R)
    (hRS : ∀ token other, R token other → S token other)
    (hS : ∀ token other, S token other → other.lexeme = token.lexeme)
    (h : Option.Rel (FrontAlike S R) (scan source.toList) (scan other.toList)) :
    Option.Rel (List.Forall₂ (ParseTree.Alike S (FrontNodes S R))) (trees? source) (trees? other) := by
  unfold trees?
  generalize scan source.toList = ours at h ⊢
  generalize scan other.toList = theirs at h ⊢
  cases h with
  | none => exact .none
  | @some tokens others htokens =>
    have hread := javaGrammar.parse?_frontAlike hR hRS hS Construct.takes_body Construct.isLoose_body htokens
    rw [Option.bind_some, Option.bind_some]
    generalize hparse : javaGrammar.parse? tokens = ours at hread ⊢
    generalize hother : javaGrammar.parse? others = theirs at hread ⊢
    cases hread with
    | none => exact .none
    | some hsame =>
      refine .some (ParseTree.Alike.frontNodes hRS hsame ?_)
      rw [(javaGrammar.derives_of_parse? hparse).2, (javaGrammar.derives_of_parse? hother).2]
      exact htokens

theorem trees?_withFeeds (hmark : mark source.toList = []) (hlines : count + (1 + lineFeeds source.toList) < 2 ^ 32) :
    Option.Rel (TreesAlike (IsMoved count) (.relined (recordedLine count))) (trees? source)
      (trees? (withFeeds count source)) := by
  have hshape := trees?_frontAlike indistinct_isMovedBehind (fun _ _ => IsMovedBehind.toIsMoved)
    (fun _ _ h => h.lexeme) (scan_withFeeds hmark hlines)
  refine rel_of_rel hshape ?_
  intro trees others _ hsame
  refine ParseTree.Alike.refine hsame ?_
  exact fun label children below _ hchildren hfront => readsAlike_moved hchildren hfront

/-- **A source behind line feeds declares the same, as many lines further down.** -/
theorem parse?_withFeeds (hmark : mark source.toList = []) (hlines : count + (1 + lineFeeds source.toList) < 2 ^ 32) :
    parse? (withFeeds count source) = (parse? source).map (relined (movedLine count)) := by
  rw [parse?_eq_relined (parse?_alike respects_isMoved (trees?_withFeeds hmark hlines))]
  cases hparse : parse? source with
  | none => rfl
  | some unit =>
    obtain ⟨lines, hfollows, hall⟩ := follows_of_parse? hparse (by omega)
    rw [Option.map_some, Option.map_some]
    refine congrArg some (relined_congr ?_)
    intro node hnode line hline
    have hlower := (hall line (hfollows.within node hnode line hline).1).1
    rw [recordedLine, if_neg]
    rintro rfl
    exact absurd hlower (by decide)

end SourceUnit

/-! ### Headers by line -/

namespace Header

theorem lines_feeds (count : Nat) (text : List Char) :
    lines (List.replicate count '\n' ++ text) = List.replicate count [] ++ lines text := by
  induction count with
  | zero => rfl
  | succ count ih => rw [List.replicate_succ, List.cons_append, lines_newline, ih, List.replicate_succ, List.cons_append]

theorem package?_withFeeds (count : Nat) (source : String) : package? (withFeeds count source) = package? source := by
  rw [package?_eq, package?_eq, withFeeds, String.toList_ofList, lines_feeds, List.findSome?_append]
  have hempty : (List.replicate count []).findSome? namedOn = none := by
    rw [List.findSome?_eq_none_iff]
    intro line hline
    rw [List.eq_of_mem_replicate hline]
    rfl
  rw [hempty, Option.none_or]

theorem imports_withFeeds (count : Nat) (source : String) : imports (withFeeds count source) = imports source := by
  rw [imports, imports, withFeeds, String.toList_ofList, lines_feeds, List.flatMap_append]
  have hempty : (List.replicate count []).flatMap statements = [] := by
    rw [List.flatMap_eq_nil_iff]
    intro line hline
    rw [List.eq_of_mem_replicate hline]
    rfl
  rw [hempty, List.nil_append]

end Header

namespace SourceUnit

variable {count : Nat} {source : String} {unit other : SourceUnit}

theorem extract_withFeeds (hparse : parse? source = some unit) (hlines : count + (1 + lineFeeds source.toList) < 2 ^ 32)
    (oracle : Oracle) :
    (Extraction.extract oracle (unit.relined (movedLine count))).className = (Extraction.extract oracle unit).className ∧
      (Extraction.extract oracle (unit.relined (movedLine count))).dependencies.toList =
        (Extraction.extract oracle unit).dependencies.toList.map (Dependency.relined (movedLine count)) := by
  obtain ⟨lines, hfollows, hall⟩ := follows_of_parse? hparse (by omega)
  have hbound : ∀ dependency ∈ (Extraction.extract oracle unit).dependencies,
      dependency.line.toNat + count < 2 ^ 32 := by
    intro dependency hdependency
    obtain ⟨node, hnode, hline⟩ := Extraction.exists_line_of_mem_extract hdependency
    have hupper := (hall _ (hfollows.within node hnode _ hline).1).2
    omega
  refine Extraction.extract_relined oracle unit ?_
  exact fun first hfirst second hsecond => compare_movedLine (hbound first hfirst) (hbound second hsecond)

/-- **Line feeds in front of a source change its lines only**, if no byte order mark stands behind them: it can be read
as before, the unit is the same but for its lines, so is the report for every oracle, and the scans by line find the
same. -/
theorem withFeeds_moved (count : Nat) (source : String) (hmark : source.toList.head? ≠ some '\ufeff')
    (hlines : count + (1 + lineFeeds source.toList) < 2 ^ 32 - 1) :
    parse? (withFeeds count source) = (parse? source).map (relined (movedLine count)) ∧
      (∀ unit other, parse? source = some unit → parse? (withFeeds count source) = some other →
        (∀ node ∈ unit.walk, ∀ line ∈ node.lines, (movedLine count line).toNat = line.toNat + count) ∧
        ∀ oracle,
          (Extraction.extract oracle other).className = (Extraction.extract oracle unit).className ∧
          (Extraction.extract oracle other).dependencies.toList =
            (Extraction.extract oracle unit).dependencies.toList.map (Dependency.relined (movedLine count))) ∧
      Header.package? (withFeeds count source) = Header.package? source ∧
      Header.imports (withFeeds count source) = Header.imports source := by
  have hplain : mark source.toList = [] := by
    apply mark_eq_nil
    intro rest hsource
    rw [hsource] at hmark
    exact hmark rfl
  have hmoved :
      SourceUnit.parse? (withFeeds count source) = (SourceUnit.parse? source).map (relined (movedLine count)) :=
    parse?_withFeeds hplain (by omega)
  refine ⟨hmoved, ?_, Header.package?_withFeeds count source, Header.imports_withFeeds count source⟩
  intro unit other hparse hother
  rw [hmoved, hparse, Option.map_some, Option.some.injEq] at hother
  subst hother
  obtain ⟨lines, hfollows, hall⟩ := follows_of_parse? hparse (by omega)
  refine ⟨?_, extract_withFeeds hparse (by omega)⟩
  intro node hnode line hline
  have hupper := (hall line (hfollows.within node hnode line hline).1).2
  exact toNat_movedLine (by omega)

/-- A class that stands at the very start of its source. -/
def plainClass : String :=
  "class A extends B \x7b C c = new C(); \x7d"

theorem plainClass_moved :
    plainClass.toList.head? ≠ some '\ufeff' ∧ 3 + (1 + lineFeeds plainClass.toList) < 2 ^ 32 - 1 ∧
      (parse? plainClass).isSome = true ∧
      parse? (withFeeds 3 plainClass) = (parse? plainClass).map (relined (movedLine 3)) := by
  have hmark : plainClass.toList.head? ≠ some '\ufeff' := by decide
  have hlines : 3 + (1 + lineFeeds plainClass.toList) < 2 ^ 32 - 1 := by decide
  exact ⟨hmark, hlines, by decide +kernel, (withFeeds_moved 3 plainClass hmark hlines).1⟩

end SourceUnit

end JavaAtlas
