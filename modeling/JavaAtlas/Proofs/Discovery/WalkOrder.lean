import Mathlib.Data.List.Induction
import JavaAtlas.Settings
import JavaAtlas.Proofs.Discovery.Listings
import JavaAtlas.Proofs.FileTree.Components

/-!
# The deep listing in the order of paths

What a walk from a root reaches is told without the walk: the root, through a link if it is one, and from then on the
entries of the directories it has come to. The deep listing finds the files among them that have the extension of the
settings. It finds them in the order of the walk, which is the order of places, and as the paths of places share the
components of the root it is the order of paths too.
-/

namespace JavaAtlas

namespace Discovery

open Steps

variable {tree : FileTree} {root configured : String} {base place other : Place} {entry top : Entry}
  {found : List String}

/-! ### What a walk reaches -/

/-- A walk from a root comes to an entry at a relative place. It enters directories and nothing else; only the root may
be found through links. -/
inductive Reached (tree : FileTree) (root : String) : Place → Entry → Prop where
  | root {entry : Entry} (h : tree.entryAt? root = some entry) : Reached tree root [] entry
  | inside {place : Place} {entries : List (String × Entry)} {name : String} {entry : Entry}
      (h : Reached tree root place (.directory entries)) (hmem : (name, entry) ∈ entries) :
      Reached tree root (place ++ [name]) entry

theorem reached_iff (h : tree.LeadsTo root base top) : Reached tree root place entry ↔ top.at? place = some entry := by
  constructor
  · intro hreached
    induction hreached with
    | root hroot => exact h.entryAt?_eq.symm.trans hroot
    | inside _ hmem ih => exact Entry.at?_concat (Entry.wellFormed_of_at? h.wellFormed ih) ih hmem
  · induction place using List.reverseRecOn generalizing entry with
    | nil => exact fun hentry => .root (h.entryAt?_eq.trans hentry)
    | append_singleton place name ih =>
      intro hentry
      have hwhole := hentry
      rw [Entry.at?_append, Option.bind_eq_some_iff] at hentry
      obtain ⟨_, hplace, hname⟩ := hentry
      obtain ⟨entries, _, rfl, -, -⟩ := Entry.at?_cons_eq_some_iff.1 hname
      have hwell := Entry.wellFormed_of_at? h.wellFormed hplace
      exact .inside (ih hplace) (Entry.mem_of_at?_concat hwell hplace hwhole)

/-! ### Which names count -/

/-- A name has a configured extension: it is the text behind the last point of the name, which does not come first, and
in the configuration any number of points may stand in front of it. -/
def BearsExtension (configured name : String) : Prop :=
  ∃ stem extension points, name = stem ++ "." ++ extension ∧ stem ≠ "" ∧ '.' ∉ extension.toList ∧
    configured.toList = List.replicate points '.' ++ extension.toList

/-- A configured extension is its bare form behind points. -/
theorem exists_points (configured : String) :
    ∃ points, configured.toList = List.replicate points '.' ++ (Settings.bareExtension configured).toList := by
  have hpoints : ∀ c ∈ configured.toList.takeWhile (· == '.'), c = '.' :=
    fun c hc => beq_iff_eq.1 (List.mem_takeWhile_imp (p := (· == '.')) hc)
  refine ⟨(configured.toList.takeWhile (· == '.')).length, ?_⟩
  rw [Settings.bareExtension, String.toList_ofList, ← List.eq_replicate_length.2 hpoints,
    List.takeWhile_append_dropWhile]

theorem bareExtension_of_points {extension : String} {points : Nat} (hpoint : '.' ∉ extension.toList)
    (h : configured.toList = List.replicate points '.' ++ extension.toList) :
    Settings.bareExtension configured = extension := by
  have hpoints : ∀ c ∈ List.replicate points '.', (c == '.') = true :=
    fun c hc => beq_iff_eq.2 (List.eq_of_mem_replicate hc)
  have hself : extension.toList.dropWhile (· == '.') = extension.toList := by
    cases hlist : extension.toList with
    | nil => rfl
    | cons first rest =>
      refine List.dropWhile_cons_of_neg fun hfirst => hpoint ?_
      rw [hlist, ← beq_iff_eq.1 hfirst]
      exact List.mem_cons_self
  rw [Settings.bareExtension, h, List.dropWhile_append_of_pos hpoints, hself, String.ofList_toList]

theorem hasExtension_bare_iff {name : String} :
    hasExtension (Settings.bareExtension configured) name = true ↔ BearsExtension configured name := by
  rw [hasExtension, beq_iff_eq]
  constructor
  · intro h
    obtain ⟨stem, hname, hstem, hpoint⟩ := Path.exists_stem_of_splitName h
    obtain ⟨points, hconfigured⟩ := exists_points configured
    exact ⟨stem, _, points, hname, hstem, hpoint, hconfigured⟩
  · rintro ⟨stem, extension, points, rfl, hstem, hpoint, hconfigured⟩
    rw [bareExtension_of_points hpoint hconfigured, Path.splitName_of_point hstem hpoint]

/-! ### Paths of places -/

theorem components_joinAll (hroot : root ≠ "") (hplace : ∀ name ∈ place, isName name = true) :
    Path.components (joinAll root place) = Path.components root ++ place := by
  induction place generalizing root with
  | nil => exact (List.append_nil _).symm
  | cons name rest ih =>
    obtain ⟨hname, hrest⟩ := List.forall_mem_cons.1 hplace
    calc Path.components (joinAll (Path.join root name) rest)
        = Path.components (Path.join root name) ++ rest := ih (FileTree.join_ne_empty hname) hrest
      _ = Path.components root ++ name :: rest := by
        rw [Path.components_join hroot hname, List.append_assoc, List.singleton_append]

theorem before_joinAll (hroot : root ≠ "") (hplace : ∀ name ∈ place, isName name = true)
    (hother : ∀ name ∈ other, isName name = true) (h : place < other) :
    Path.Before (joinAll root place) (joinAll root other) := by
  rw [Path.Before, components_joinAll hroot hplace, components_joinAll hroot hother, List.map_append, List.map_append]
  exact List.append_left_lt (Path.map_bytes_lt h)

/-- Of two places below a root the path of one lies at or below the path of the other only if the places do. -/
theorem components_isPrefix_iff (hroot : root ≠ "") (hplace : ∀ name ∈ place, isName name = true)
    (hother : ∀ name ∈ other, isName name = true) :
    Path.components (joinAll root place) <+: Path.components (joinAll root other) ↔ place <+: other := by
  rw [components_joinAll hroot hplace, components_joinAll hroot hother, List.prefix_append_right_inj]

/-! ### The listing -/

/-- Some paths are those of the sources that a walk from a root reaches, in order. -/
structure SortedSources (tree : FileTree) (configured root : String) (found : List String) : Prop where
  increasing : found.Pairwise Path.Before
  nodup : found.Nodup
  mem_iff : ∀ path, path ∈ found ↔ ∃ place name text?, Reached tree root (place ++ [name]) (.file text?) ∧
    BearsExtension configured name ∧ joinAll root (place ++ [name]) = path
  /-- Neither a link nor anything below one is found. -/
  unlinked : ∀ place target, Reached tree root place (.link target) → ∀ path ∈ found,
    ¬ Path.components (joinAll root place) <+: Path.components path

theorem pairwise_before_of_sources {entries : List (String × Entry)} {extension : String}
    (h : tree.LeadsTo root base (.directory entries)) (hfound : sources tree extension root = .ok found) :
    found.Pairwise Path.Before := by
  simp only [sources, entriesAt_eq_ok_iff.2 h.entryAt?_eq, bind_eq_ok_iff, pure_eq_ok_iff] at hfound
  obtain ⟨_, hentries, rfl⟩ := hfound
  cases hentries
  have hnames {found : Place × Entry} (hmem : found ∈ (Entry.directory entries).walk) :
      ∀ name ∈ found.1, isName name = true :=
    Entry.isName_of_at? h.wellFormed ((Entry.mem_walk_iff h.wellFormed).1 hmem)
  refine List.pairwise_map.2 (List.Pairwise.filter _ ?_)
  exact (Entry.pairwise_walk h.wellFormed).imp_of_mem fun hfirst hsecond hlt =>
    before_joinAll h.ne_empty (hnames hfirst) (hnames hsecond) hlt

theorem mem_sources_iff_reached {entries : List (String × Entry)}
    (h : tree.LeadsTo root base (.directory entries))
    (hfound : sources tree (Settings.bareExtension configured) root = .ok found) (path : String) :
    path ∈ found ↔ ∃ place name text?, Reached tree root (place ++ [name]) (.file text?) ∧
      BearsExtension configured name ∧ joinAll root (place ++ [name]) = path := by
  rw [mem_sources_iff h hfound]
  constructor
  · rintro ⟨whole, entry, hentry, hsource, hpath⟩
    rcases List.eq_nil_or_concat' whole with rfl | ⟨place, name, rfl⟩
    · -- The root itself is a directory and no source.
      cases hentry
      cases hsource
    · rw [isSourceEntry_concat, Bool.and_eq_true, hasExtension_bare_iff] at hsource
      cases entry with
      | file text? => exact ⟨place, name, text?, (reached_iff h).2 hentry, hsource.2, hpath⟩
      | directory below => cases hsource.1
      | link target => cases hsource.1
  · rintro ⟨place, name, text?, hreached, hbears, hpath⟩
    refine ⟨place ++ [name], .file text?, (reached_iff h).1 hreached, ?_, hpath⟩
    rw [isSourceEntry_concat, hasExtension_bare_iff.2 hbears]
    rfl

/-- **The deep listing is in the order of paths and complete.** From a root that leads to a directory, through a link
or not, it succeeds and lists, each once and by increasing paths, the files reached through directories alone whose
last extension is the configured one. Nothing is listed at or below a link. -/
theorem sources_sorted (hroot : tree.isDirectory root = true) (settings : Settings) :
    ∃ found, sources tree settings.sourceExtension root = .ok found ∧
      SortedSources tree settings.extension root found := by
  obtain ⟨entries, hentries⟩ := FileTree.isDirectory_iff.1 hroot
  obtain ⟨base, h⟩ := FileTree.entryAt?_eq_some_iff.1 hentries
  obtain ⟨found, hfound⟩ := (exists_sources_iff settings.sourceExtension).2 hroot
  have hincreasing := pairwise_before_of_sources h hfound
  have hmem := mem_sources_iff_reached h hfound
  refine ⟨found, hfound, hincreasing, hincreasing.imp Path.Before.ne, hmem, ?_⟩
  intro place target hlink path hpath hbelow
  obtain ⟨inner, name, text?, hfile, -, rfl⟩ := (hmem path).1 hpath
  have hlink := (reached_iff h).1 hlink
  have hfile := (reached_iff h).1 hfile
  obtain ⟨rest, hrest⟩ := (components_isPrefix_iff h.ne_empty (Entry.isName_of_at? h.wellFormed hlink)
    (Entry.isName_of_at? h.wellFormed hfile)).1 hbelow
  -- Nothing stands below a link, and a link is no file.
  rw [← hrest, Entry.at?_append, hlink, Option.bind_some] at hfile
  cases rest with
  | nil => cases hfile
  | cons first rest =>
    obtain ⟨_, _, hdirectory, -, -⟩ := Entry.at?_cons_eq_some_iff.1 hfile
    cases hdirectory

/-- Sources and directories of related names, with links to a source, to a directory and to the whole. -/
def relatedTree : FileTree :=
  ((((((((FileTree.bare ["home"]).write "real/a/b.java" (some "class B \x7b\x7d")).write "real/a.java" none).write
    "real/a-z/c.java" (some "class C \x7b\x7d")).write "real/.java" none).write "real/a.java.txt" none).makeLink
    "real/linked.java" "a.java").makeLink "real/linked" "a").makeLink "link" "real"

theorem relatedTree_sources_sorted :
    relatedTree.isDirectory "link" = true ∧
      ∃ found, sources relatedTree { extension := "..java" : Settings }.sourceExtension "link" = .ok found ∧
        SortedSources relatedTree "..java" "link" found :=
  ⟨by decide, sources_sorted (by decide) { extension := "..java" }⟩

end Discovery

end JavaAtlas
