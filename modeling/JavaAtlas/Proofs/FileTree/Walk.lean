import JavaAtlas.FileTree.Edit

/-!
# The walk below a directory

In a well-formed entry the names of a directory are different, so an entry stands in the list of a directory
exactly when it is found under its name. The walk below such an entry comes to each place at which something
stands, with what stands there, and in the order of the places, hence to none twice.
-/

namespace JavaAtlas

namespace Entry

theorem induction {P : Entry → Prop}
    (directory : ∀ entries, (∀ below ∈ entries, P below.2) → P (.directory entries))
    (file : ∀ text?, P (.file text?)) (link : ∀ target, P (.link target)) : ∀ entry, P entry
  | .directory entries => directory entries fun below _ => induction directory file link below.2
  | .file text? => file text?
  | .link target => link target
termination_by entry => sizeOf entry
decreasing_by
  have hsize := List.sizeOf_lt_of_mem ‹below ∈ entries›
  obtain ⟨name, entry⟩ := below
  simp only [Prod.mk.sizeOf_spec, Entry.directory.sizeOf_spec] at hsize ⊢
  omega

variable {name : String} {entry found : Entry} {entries : List (String × Entry)} {place rest : Place}

/-! ### Entries under their names -/

theorem wellFormedEach_iff :
    WellFormedEach entries ↔
      (∀ below ∈ entries, isName below.1 = true ∧ below.2.WellFormed) ∧
        entries.Pairwise fun first second => first.1 ≠ second.1 := by
  induction entries with
  | nil => simp [WellFormedEach]
  | cons first rest ih =>
    rw [WellFormedEach, ih, List.forall_mem_cons, List.pairwise_cons]
    constructor
    · rintro ⟨hname, hother, hfirst, hrest, hpairs⟩
      exact ⟨⟨⟨hname, hfirst⟩, hrest⟩, fun other hmem => (hother other hmem).symm, hpairs⟩
    · rintro ⟨⟨⟨hname, hfirst⟩, hrest⟩, hother, hpairs⟩
      exact ⟨hname, fun other hmem => (hother other hmem).symm, hfirst, hrest, hpairs⟩

theorem lookup_eq_some_iff_mem (h : WellFormedEach entries) :
    entries.lookup name = some entry ↔ (name, entry) ∈ entries := by
  induction entries with
  | nil => simp
  | cons first rest ih =>
    obtain ⟨other, below⟩ := first
    obtain ⟨-, hother, -, hrest⟩ := h
    rw [List.lookup_cons]
    by_cases hsame : name = other
    · subst hsame
      have hmissing : (name, entry) ∉ rest := fun hmem => hother _ hmem rfl
      simp [hmissing, eq_comm]
    · simpa [beq_false_of_ne hsame, hsame] using ih hrest

theorem isName_of_mem (h : WellFormedEach entries) (hmem : (name, entry) ∈ entries) :
    isName name = true :=
  ((wellFormedEach_iff.1 h).1 _ hmem).1

theorem wellFormed_of_mem (h : WellFormedEach entries) (hmem : (name, entry) ∈ entries) :
    entry.WellFormed :=
  ((wellFormedEach_iff.1 h).1 _ hmem).2

/-! ### Entries at their places -/

theorem child?_eq_some_iff :
    entry.child? name = some found ↔
      ∃ entries, entry = .directory entries ∧ entries.lookup name = some found := by
  cases entry with
  | directory entries => simp [child?]
  | file text? => simp [child?]
  | link target => simp [child?]

theorem at?_cons_eq_some_iff :
    entry.at? (name :: rest) = some found ↔
      ∃ entries below, entry = .directory entries ∧ entries.lookup name = some below ∧
        below.at? rest = some found := by
  simp only [at?, Option.bind_eq_some_iff, child?_eq_some_iff]
  constructor
  · rintro ⟨below, ⟨entries, hentry, hlookup⟩, hfound⟩
    exact ⟨entries, below, hentry, hlookup, hfound⟩
  · rintro ⟨entries, below, hentry, hlookup, hfound⟩
    exact ⟨below, ⟨entries, hentry, hlookup⟩, hfound⟩

theorem at?_append (entry : Entry) (place rest : Place) :
    entry.at? (place ++ rest) = (entry.at? place).bind fun below => below.at? rest := by
  induction place generalizing entry with
  | nil => rfl
  | cons name place ih =>
    rw [List.cons_append, at?, at?, Option.bind_assoc]
    exact Option.bind_congr fun below _ => ih below

theorem at?_concat {below : Entry} (hwell : WellFormedEach entries)
    (hplace : entry.at? place = some (.directory entries)) (hmem : (name, below) ∈ entries) :
    entry.at? (place ++ [name]) = some below := by
  rw [at?_append, hplace, Option.bind_some]
  exact at?_cons_eq_some_iff.2 ⟨entries, below, rfl, (lookup_eq_some_iff_mem hwell).2 hmem, rfl⟩

theorem mem_of_at?_concat {below : Entry} (hwell : WellFormedEach entries)
    (hplace : entry.at? place = some (.directory entries)) (hbelow : entry.at? (place ++ [name]) = some below) :
    (name, below) ∈ entries := by
  rw [at?_append, hplace, Option.bind_some] at hbelow
  obtain ⟨_, found, hentries, hlookup, hself⟩ := at?_cons_eq_some_iff.1 hbelow
  cases hentries
  cases hself
  exact (lookup_eq_some_iff_mem hwell).1 hlookup

theorem wellFormed_of_at? (h : entry.WellFormed) (hfound : entry.at? place = some found) :
    found.WellFormed := by
  induction place generalizing entry with
  | nil => exact Option.some.inj hfound ▸ h
  | cons name rest ih =>
    obtain ⟨entries, below, rfl, hlookup, hrest⟩ := at?_cons_eq_some_iff.1 hfound
    exact ih (wellFormed_of_lookup h hlookup) hrest

theorem isName_of_at? (h : entry.WellFormed) (hfound : entry.at? place = some found) :
    ∀ name ∈ place, isName name = true := by
  induction place generalizing entry with
  | nil => simp
  | cons name rest ih =>
    obtain ⟨entries, below, rfl, hlookup, hrest⟩ := at?_cons_eq_some_iff.1 hfound
    exact List.forall_mem_cons.2
      ⟨isName_of_lookup h hlookup, ih (wellFormed_of_lookup h hlookup) hrest⟩

theorem isLink_of_at? (hfound : entry.at? place = some found) (hlink : found.isLink = false) :
    entry.isLink = false := by
  cases place with
  | nil => exact Option.some.inj hfound ▸ hlink
  | cons name rest =>
    obtain ⟨entries, below, rfl, -, -⟩ := at?_cons_eq_some_iff.1 hfound
    rfl

/-! ### The walk -/

theorem walkEach_eq (entries : List (String × Entry)) :
    walkEach entries = entries.map fun below => (below.1, below.2.walk) := by
  induction entries with
  | nil => rfl
  | cons first rest ih => rw [walkEach, ih, List.map_cons]

/-- The walks below the entries of a directory come in the order of their names. -/
def sortedWalks (entries : List (String × Entry)) : List (String × List (Place × Entry)) :=
  (walkEach entries).mergeSort fun first second => first.1 ≤ second.1

theorem walk_directory :
    (directory entries).walk =
      ([], directory entries) :: (sortedWalks entries).flatMap fun under =>
        under.2.map fun below => (under.1 :: below.1, below.2) := by
  rw [walk, sortedWalks]

theorem mem_sortedWalks {walked : List (Place × Entry)} :
    (name, walked) ∈ sortedWalks entries ↔ ∃ below, (name, below) ∈ entries ∧ below.walk = walked := by
  simp only [sortedWalks, walkEach_eq, List.mem_mergeSort, List.mem_map, Prod.exists, Prod.mk.injEq]
  constructor
  · rintro ⟨other, below, hmem, rfl, hwalked⟩
    exact ⟨below, hmem, hwalked⟩
  · rintro ⟨below, hmem, hwalked⟩
    exact ⟨name, below, hmem, rfl, hwalked⟩

theorem mem_walk_directory :
    (place, found) ∈ (directory entries).walk ↔
      (place = [] ∧ found = directory entries) ∨
        ∃ name below rest, (name, below) ∈ entries ∧ (rest, found) ∈ below.walk ∧ place = name :: rest := by
  simp only [walk_directory, List.mem_cons, List.mem_flatMap, List.mem_map, Prod.exists, Prod.mk.injEq,
    mem_sortedWalks]
  constructor
  · rintro (hself | ⟨name, _, ⟨below, hmem, rfl⟩, rest, _, hrest, rfl, rfl⟩)
    · exact Or.inl hself
    · exact Or.inr ⟨name, below, rest, hmem, hrest, rfl⟩
  · rintro (hself | ⟨name, below, rest, hmem, hrest, rfl⟩)
    · exact Or.inl hself
    · exact Or.inr ⟨name, _, ⟨below, hmem, rfl⟩, rest, found, hrest, rfl, rfl⟩

/-- **The walk comes to what stands at each place below an entry**, and to nothing else. -/
theorem mem_walk_iff (h : entry.WellFormed) :
    (place, found) ∈ entry.walk ↔ entry.at? place = some found := by
  induction entry using Entry.induction generalizing place with
  | directory entries ih =>
    rw [mem_walk_directory]
    cases place with
    | nil => simp [at?, eq_comm]
    | cons name rest =>
      rw [at?_cons_eq_some_iff]
      constructor
      · rintro (⟨hplace, -⟩ | ⟨other, below, inner, hmem, hinner, hplace⟩)
        · cases hplace
        · cases hplace
          refine ⟨entries, below, rfl, (lookup_eq_some_iff_mem h).2 hmem, ?_⟩
          exact (ih _ hmem (wellFormed_of_mem h hmem)).1 hinner
      · rintro ⟨_, below, hentries, hlookup, hrest⟩
        cases hentries
        have hmem := (lookup_eq_some_iff_mem h).1 hlookup
        exact Or.inr ⟨name, below, rest, hmem, (ih _ hmem (wellFormed_of_mem h hmem)).2 hrest, rfl⟩
  | file text? =>
    cases place with
    | nil => simp [walk, at?, eq_comm]
    | cons name rest => simp [walk, at?, child?]
  | link target =>
    cases place with
    | nil => simp [walk, at?, eq_comm]
    | cons name rest => simp [walk, at?, child?]

/-! ### The order of the walk -/

theorem pairwise_mergeSort_key {α : Type} (key : α → String) (members : List α) :
    (members.mergeSort fun first second => key first ≤ key second).Pairwise fun first second =>
      key first ≤ key second := by
  refine (List.pairwise_mergeSort ?_ ?_ _).imp fun {first second} hle => of_decide_eq_true hle
  · intro first second third hfirst hsecond
    exact decide_eq_true (Std.le_trans (of_decide_eq_true hfirst) (of_decide_eq_true hsecond))
  · intro first second
    simpa using Std.le_total (a := key first) (b := key second)

theorem pairwise_sortedWalks (h : WellFormedEach entries) :
    (sortedWalks entries).Pairwise fun first second => first.1 < second.1 := by
  have hle : (sortedWalks entries).Pairwise fun first second => first.1 ≤ second.1 :=
    pairwise_mergeSort_key Prod.fst _
  have hne : (sortedWalks entries).Pairwise fun first second => first.1 ≠ second.1 := by
    refine ((List.mergeSort_perm _ _).pairwise_iff fun hne => hne.symm).2 ?_
    rw [walkEach_eq, List.pairwise_map]
    exact (wellFormedEach_iff.1 h).2
  exact hle.imp₂ (fun _ _ hle hne => Std.lt_of_le_of_ne hle hne) hne

/-- **The walk is in the order of the places**, in which a place comes before those below it and the names
of a directory come in their own order. -/
theorem pairwise_walk (h : entry.WellFormed) :
    entry.walk.Pairwise fun first second => first.1 < second.1 := by
  induction entry using Entry.induction with
  | directory entries ih =>
    rw [walk_directory, List.pairwise_cons]
    constructor
    · rintro ⟨place, found⟩ hmem
      obtain ⟨under, -, hunder⟩ := List.mem_flatMap.1 hmem
      obtain ⟨below, -, hbelow⟩ := List.mem_map.1 hunder
      rw [← hbelow]
      exact List.nil_lt_cons _ _
    · -- Below one name the walk there decides, and between two names the names do.
      rw [List.pairwise_flatMap]
      constructor
      · rintro ⟨name, walked⟩ hmem
        obtain ⟨below, hbelow, rfl⟩ := mem_sortedWalks.1 hmem
        rw [List.pairwise_map]
        refine (ih _ hbelow (wellFormed_of_mem h hbelow)).imp fun hlt => ?_
        exact List.cons_lt_cons_iff.2 (Or.inr ⟨rfl, hlt⟩)
      · refine (pairwise_sortedWalks h).imp fun {first second} hlt => ?_
        intro one hone other hother
        obtain ⟨below, -, rfl⟩ := List.mem_map.1 hone
        obtain ⟨inner, -, rfl⟩ := List.mem_map.1 hother
        exact List.cons_lt_cons_iff.2 (Or.inl hlt)
  | file text? => simp [walk]
  | link target => simp [walk]

theorem nodup_places_walk (h : entry.WellFormed) : (entry.walk.map Prod.fst).Nodup := by
  rw [List.Nodup, List.pairwise_map]
  refine (pairwise_walk h).imp fun {first second} hlt heq => ?_
  rw [heq] at hlt
  exact List.lt_irrefl _ hlt

theorem mem_tail_walk_iff (h : (directory entries).WellFormed) :
    (place, found) ∈ (directory entries).walk.tail ↔
      (directory entries).at? place = some found ∧ place ≠ [] := by
  have hnodup := nodup_places_walk h
  rw [← mem_walk_iff h]
  rw [walk_directory] at hnodup ⊢
  rw [List.map_cons, List.nodup_cons] at hnodup
  rw [List.tail_cons, List.mem_cons]
  constructor
  · intro hmem
    exact ⟨Or.inr hmem, fun hplace => hnodup.1 (List.mem_map.2 ⟨_, hmem, hplace⟩)⟩
  · rintro ⟨hself | hmem, hplace⟩
    · exact absurd (congrArg Prod.fst hself) hplace
    · exact hmem

end Entry

end JavaAtlas
