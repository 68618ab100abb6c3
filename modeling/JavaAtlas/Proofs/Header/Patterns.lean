import JavaAtlas.Proofs.Header.Canonical

/-!
# Headers and their line patterns

A line and a statement are matched without the blanks around them, a line by `^package\s+([\w.\s]+?)\s*;` and a statement
with its semicolon by `^import\s+(static\s+)?([\w.\s]+?)(\s*\.\s*\*)?\s*;$`. A pattern may match in more than one way,
since blanks are characters of a name too. For the name this makes no difference, and an import that can be matched as a
static one is. So the scan may look for the keyword and then at the characters up to the semicolon.
-/

namespace JavaAtlas.Header

open JavaAtlas.Text

/-! ### The patterns -/

/-- What `\s*` matches. -/
def IsGap (text : List Char) : Prop :=
  ∀ c ∈ text, isBlank c = true

/-- What `\s+` matches. -/
def IsBreak (text : List Char) : Prop :=
  text ≠ [] ∧ IsGap text

/-- What `[\w.\s]+` matches. -/
def IsNameText (text : List Char) : Prop :=
  text ≠ [] ∧ ∀ c ∈ text, isNameChar c = true

/-- How the pattern of packages matches at the head of a text, with its group. -/
inductive PackageMatch : List Char → List Char → Prop where
  | found {space name close : List Char} (hspace : IsBreak space) (hname : IsNameText name) (hclose : IsGap close)
      (behind : List Char) : PackageMatch (keyword ++ (space ++ (name ++ close)) ++ ';' :: behind) name

/-- What `(static\s+)?` matches, and whether it does so by its group. -/
inductive StaticGroup : List Char → Bool → Prop where
  | absent : StaticGroup [] false
  | present {space : List Char} (hspace : IsBreak space) : StaticGroup (staticWord ++ space) true

/-- What `(\s*\.\s*\*)?` matches, and whether it does so by its group. -/
inductive StarGroup : List Char → Bool → Prop where
  | absent : StarGroup [] false
  | present {before after : List Char} (hbefore : IsGap before) (hafter : IsGap after) :
      StarGroup (before ++ '.' :: (after ++ ['*'])) true

/-- How the pattern of imports matches a text, with what its groups tell. -/
inductive ImportMatch : List Char → Bool → List Char → Bool → Prop where
  | found {space mark name star close : List Char} {isStatic isWildcard : Bool} (hspace : IsBreak space)
      (hmark : StaticGroup mark isStatic) (hname : IsNameText name) (hstar : StarGroup star isWildcard)
      (hclose : IsGap close) :
      ImportMatch (importWord ++ (space ++ (mark ++ (name ++ (star ++ close)))) ++ [';']) isStatic name isWildcard

variable {text front back body part space name close line : List Char}

/-! ### Blanks and semicolons -/

theorem IsGap.isNameChar (h : IsGap text) : ∀ c ∈ text, isNameChar c = true :=
  fun c hc => isNameChar_of_isBlank (h c hc)

theorem IsGap.unspaced (h : IsGap text) : unspaced text = [] :=
  List.filter_eq_nil_iff.2 fun c hc => by simp [h c hc]

/-- Where a body stands, the blanks around the name may be told from it in any way. -/
theorem isBody_iff : IsBody body ↔ ∃ space name close, body = space ++ (name ++ close) ∧ IsBreak space ∧
    IsNameText name ∧ IsGap close := by
  constructor
  · rintro ⟨hlong, hopens, hname⟩
    cases body with
    | nil => simp at hlong
    | cons first rest =>
      rw [List.length_cons] at hlong
      rw [List.forall_mem_cons] at hname
      have hrest : rest ≠ [] := List.ne_nil_of_length_pos (by omega)
      refine ⟨[first], rest, [], by simp, ⟨by simp, ?_⟩, ⟨hrest, hname.2⟩, by simp [IsGap]⟩
      exact List.forall_mem_singleton.2 (hopens first rfl)
  · rintro ⟨space, name, close, rfl, ⟨hne, hspace⟩, ⟨hname, hchars⟩, hclose⟩
    obtain ⟨first, more, rfl⟩ := List.exists_cons_of_ne_nil hne
    refine ⟨?_, fun c hc => ?_, ?_⟩
    · have hlong := List.length_pos_iff.2 hname
      simp only [List.length_append, List.length_cons]
      omega
    · cases hc
      exact hspace first List.mem_cons_self
    · exact List.forall_mem_append.2 ⟨hspace.isNameChar, List.forall_mem_append.2 ⟨hchars, hclose.isNameChar⟩⟩

theorem unspaced_body (hspace : IsGap space) (hclose : IsGap close) :
    unspaced (space ++ (name ++ close)) = unspaced name := by
  rw [unspaced_append, unspaced_append, hspace.unspaced, hclose.unspaced, List.nil_append, List.append_nil]

theorem dropWhile_append_semicolon (front back : List Char) :
    (front ++ ';' :: back).dropWhile isBlank = front.dropWhile isBlank ++ ';' :: back := by
  have hsemicolon : (';' :: back).dropWhile isBlank = ';' :: back := List.dropWhile_cons_of_neg (by decide)
  rw [List.dropWhile_append, hsemicolon]
  split
  · next hempty => rw [List.isEmpty_iff.1 hempty, List.nil_append]
  · rfl

/-- What stands before a semicolon loses no blanks at its end. -/
theorem trim_append_semicolon (front back : List Char) :
    trim (front ++ ';' :: back) = front.dropWhile isBlank ++ ';' :: trimEnd back := by
  have hreverse : (front.dropWhile isBlank ++ ';' :: back).reverse =
      back.reverse ++ ';' :: (front.dropWhile isBlank).reverse := by
    simp
  rw [trim, dropWhile_append_semicolon, trimEnd, hreverse, dropWhile_append_semicolon]
  simp [trimEnd]

/-- The first semicolon is at one place only. -/
theorem eq_of_append_semicolon_eq {other rest : List Char} (hfront : ';' ∉ front) (hother : ';' ∉ other)
    (h : front ++ ';' :: back = other ++ ';' :: rest) : front = other := by
  have hcut {text : List Char} (htext : ';' ∉ text) (rest : List Char) :
      (text ++ ';' :: rest).takeWhile (· != ';') = text := by
    rw [List.takeWhile_append_of_pos, List.takeWhile_cons_of_neg (by decide), List.append_nil]
    intro c hc
    rw [bne_iff_ne]
    rintro rfl
    exact htext hc
  rw [← hcut hfront back, h, hcut hother]

/-! ### Packages -/

theorem semicolon_not_mem_keyword_append {word : List Char} (hword : ';' ∉ word) (hbody : IsBody body) :
    ';' ∉ word ++ body := by
  rw [List.mem_append, not_or]
  exact ⟨hword, hbody.not_mem not_isNameChar_semicolon⟩

/-- A statement with a semicolon behind it is matched if it is the keyword and a body. -/
theorem exists_packageMatch_iff {statement behind : List Char} {package : String} (hstatement : ';' ∉ statement) :
    (∃ name, PackageMatch (statement ++ ';' :: behind) name ∧ String.ofList (unspaced name) = package) ↔
      packageName? statement = some package := by
  have hread : packageName? statement = some package ↔
      ∃ body, (statement = keyword ++ body ∧ IsBody body) ∧ String.ofList (unspaced body) = package := by
    rw [packageName?, Option.map_eq_some_iff]
    exact exists_congr fun body => and_congr_left fun _ => afterKeyword?_eq_some_iff
  rw [hread]
  constructor
  · rintro ⟨name, hmatch, hpackage⟩
    generalize htext : statement ++ ';' :: behind = text at hmatch
    cases hmatch with
    | @found space name close hspace hname hclose =>
      have hbody := isBody_iff.2 ⟨space, name, close, rfl, hspace, hname, hclose⟩
      have hsame := eq_of_append_semicolon_eq hstatement
        (semicolon_not_mem_keyword_append (by decide) hbody) htext
      exact ⟨_, ⟨hsame, hbody⟩, by rw [unspaced_body hspace.2 hclose, hpackage]⟩
  · rintro ⟨body, ⟨rfl, hbody⟩, hpackage⟩
    obtain ⟨space, name, close, rfl, hspace, hname, hclose⟩ := isBody_iff.1 hbody
    exact ⟨name, .found hspace hname hclose behind, by rw [← unspaced_body hspace.2 hclose, hpackage]⟩

/-- **A line names a package exactly when the pattern matches it**, and it is the one that every match gives. -/
theorem namedOn_eq_some_iff {package : String} :
    namedOn line = some package ↔
      ∃ name, PackageMatch (trim line) name ∧ String.ofList (unspaced name) = package := by
  by_cases hsemicolon : ';' ∈ line
  · obtain ⟨front, back, rfl, hfront⟩ := List.eq_append_cons_of_mem hsemicolon
    have hstatement : ';' ∉ front.dropWhile isBlank := fun hmem => hfront ((List.dropWhile_sublist _).subset hmem)
    rw [namedOn, head?_statements hfront, trim_append_semicolon, exists_packageMatch_iff hstatement]
    rfl
  · rw [namedOn_eq_none hsemicolon]
    refine ⟨fun h => (by cases h), ?_⟩
    rintro ⟨name, hmatch, -⟩
    generalize htext : trim line = text at hmatch
    cases hmatch with
    | found =>
      refine absurd ?_ hsemicolon
      have hmem : ';' ∈ trim line := htext ▸ List.mem_append_right _ List.mem_cons_self
      rw [trim, trimEnd, List.mem_reverse] at hmem
      exact (List.dropWhile_sublist _).subset (List.mem_reverse.1 ((List.dropWhile_sublist _).subset hmem))

theorem namedOn_eq_none_iff : namedOn line = none ↔ ∀ name, ¬PackageMatch (trim line) name := by
  rw [Option.eq_none_iff_forall_ne_some]
  constructor
  · intro h name hmatch
    exact h _ (namedOn_eq_some_iff.2 ⟨name, hmatch, rfl⟩)
  · intro h package hpackage
    obtain ⟨name, hmatch, -⟩ := namedOn_eq_some_iff.1 hpackage
    exact h name hmatch

/-- **The package of a source is that of the first line that the pattern matches.** -/
theorem package?_eq_some_iff {source package : String} :
    package? source = some package ↔ ∃ before line after, lines source.toList = before ++ line :: after ∧
      (∃ name, PackageMatch (trim line) name ∧ String.ofList (unspaced name) = package) ∧
      ∀ earlier ∈ before, ∀ name, ¬PackageMatch (trim earlier) name := by
  simp only [package?_eq, List.findSome?_eq_some_iff, namedOn_eq_some_iff, namedOn_eq_none_iff]

/-! ### Imports -/

theorem StarGroup.eq_nil {star : List Char} {isWildcard : Bool} (h : StarGroup star isWildcard) (hstar : '*' ∉ star) :
    star = [] ∧ isWildcard = false := by
  cases h with
  | absent => exact ⟨rfl, rfl⟩
  | present => simp at hstar

/-- A body shows the word of static imports exactly when the pattern matches it with its first group. -/
theorem isStaticBody_iff (hbody : IsBody body) :
    isStaticBody body = true ↔ ∃ name isWildcard, ImportMatch (importWord ++ body ++ [';']) true name isWildcard := by
  have hread : isStaticBody body = true ↔ ∃ more, body.dropWhile isBlank = staticWord ++ more ∧ IsBody more := by
    rw [isStaticBody, Option.isSome_iff_exists]
    exact exists_congr fun more => afterKeyword?_eq_some_iff
  rw [hread]
  constructor
  · rintro ⟨more, hmore, hmoreBody⟩
    obtain ⟨space, name, close, rfl, hspace, hname, hclose⟩ := isBody_iff.1 hmoreBody
    have hopens : IsBreak (body.takeWhile isBlank) := by
      refine ⟨fun hnone => ?_, List.all_eq_true.1 List.all_takeWhile⟩
      obtain ⟨hlong, hblank, -⟩ := hbody
      cases body with
      | nil => simp at hlong
      | cons first rest => simp [hblank first rfl] at hnone
    have hsplit : body = body.takeWhile isBlank ++ ((staticWord ++ space) ++ (name ++ ([] ++ close))) := by
      conv_lhs => rw [← List.takeWhile_append_dropWhile (p := isBlank) (l := body), hmore]
      simp
    rw [hsplit]
    exact ⟨name, false, .found hopens (.present hspace) hname .absent hclose⟩
  · rintro ⟨name, isWildcard, hmatch⟩
    generalize htext : importWord ++ body ++ [';'] = text at hmatch
    cases hmatch with
    | @found space mark name star close _ _ hspace hmark hname hstar hclose =>
      obtain rfl := List.append_cancel_left (List.append_cancel_right htext)
      have hnostar := hbody.not_mem not_isNameChar_star
      obtain ⟨rfl, -⟩ := hstar.eq_nil fun hmem => hnostar (by simp [hmem])
      cases hmark with
      | @present mark hmark =>
        refine ⟨mark ++ (name ++ close), ?_, isBody_iff.2 ⟨mark, name, close, rfl, hmark, hname, hclose⟩⟩
        rw [List.dropWhile_append_of_pos hspace.2]
        rfl

/-- A statement with its semicolon is matched by neither group if it is the keyword and a body. -/
theorem exists_importMatch_iff {statement : List Char} {imported : String} :
    (∃ name, ImportMatch (statement ++ [';']) false name false ∧ String.ofList (unspaced name) = imported) ↔
      ∃ body, (statement = importWord ++ body ∧ IsBody body) ∧ String.ofList (unspaced body) = imported := by
  constructor
  · rintro ⟨name, hmatch, himported⟩
    generalize htext : statement ++ [';'] = text at hmatch
    cases hmatch with
    | @found space _ name _ close _ _ hspace hmark hname hstar hclose =>
      cases hmark
      cases hstar
      rw [List.nil_append, List.nil_append] at htext
      refine ⟨_, ⟨List.append_cancel_right htext, isBody_iff.2 ⟨space, name, close, rfl, hspace, hname, hclose⟩⟩, ?_⟩
      rw [unspaced_body hspace.2 hclose, himported]
  · rintro ⟨body, ⟨rfl, hbody⟩, himported⟩
    obtain ⟨space, name, close, rfl, hspace, hname, hclose⟩ := isBody_iff.1 hbody
    exact ⟨name, .found hspace .absent hname .absent hclose, by rw [← unspaced_body hspace.2 hclose, himported]⟩

/-- **A statement imports a type exactly when the pattern matches it without its groups**, and can match it in no way as
a static import. -/
theorem importedName?_eq_some_iff {imported : String} :
    importedName? (part.dropWhile isBlank) = some imported ↔
      (¬∃ name isWildcard, ImportMatch (trim (part ++ [';'])) true name isWildcard) ∧
        ∃ name, ImportMatch (trim (part ++ [';'])) false name false ∧ String.ofList (unspaced name) = imported := by
  have htrim : trim (part ++ [';']) = part.dropWhile isBlank ++ [';'] := trim_append_semicolon part []
  rw [htrim, exists_importMatch_iff]
  generalize part.dropWhile isBlank = statement
  constructor
  · intro h
    rw [importedName?_eq, Option.bind_eq_some_iff] at h
    obtain ⟨body, hrest, himported⟩ := h
    obtain ⟨rfl, hbody⟩ := afterKeyword?_eq_some_iff.1 hrest
    cases hstatic : isStaticBody body with
    | true =>
      rw [hstatic] at himported
      cases himported
    | false =>
      rw [hstatic] at himported
      rw [← isStaticBody_iff hbody, hstatic]
      exact ⟨Bool.false_ne_true, body, ⟨rfl, hbody⟩, Option.some.inj himported⟩
  · rintro ⟨hstatic, body, ⟨rfl, hbody⟩, rfl⟩
    rw [importedName?_body hbody, if_neg ((isStaticBody_iff hbody).not.2 hstatic)]

/-- What no semicolon ends is matched in no way. -/
theorem ImportMatch.semicolon_mem {isStatic isWildcard : Bool} (h : ImportMatch text isStatic name isWildcard) :
    ';' ∈ text := by
  cases h
  exact List.mem_append_right _ List.mem_cons_self

end JavaAtlas.Header
