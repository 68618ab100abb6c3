import JavaAtlas.Discovery
import JavaAtlas.Proofs.FileTree.Paths
import JavaAtlas.Proofs.Steps

/-!
# Listings of directories

A path that leads to a directory can be listed in each of the three ways, and no other path can. What a
listing finds is told by places: the sources and package directories below a root are joined paths to what
stands at some place below it, and what stands directly inside a directory has one name more. A joined path
that meets no link leads to its place, so files can be told by their entries, and different places have
different paths.
-/

namespace JavaAtlas

namespace Discovery

open Steps

variable {tree : FileTree} {extension root directory path name : String} {base place : Place}
  {entry : Entry} {entries : List (String × Entry)}

/-! ### What can be listed -/

theorem entriesAt_eq_ok_iff :
    entriesAt tree path = .ok entries ↔ tree.entryAt? path = some (.directory entries) := by
  unfold entriesAt
  split
  · next found hfound => rw [hfound, Except.ok.injEq, Option.some.injEq, Entry.directory.injEq]
  · next hother => exact ⟨fun h => (by cases h), fun h => absurd h (hother entries)⟩

theorem exists_entriesAt_iff :
    (∃ entries, entriesAt tree path = .ok entries) ↔ tree.isDirectory path = true := by
  simp only [entriesAt_eq_ok_iff, FileTree.isDirectory_iff]

theorem exists_sources_iff (extension : String) :
    (∃ found, sources tree extension root = .ok found) ↔ tree.isDirectory root = true := by
  rw [← exists_entriesAt_iff]
  simp only [sources, bind_eq_ok_iff, pure_eq_ok_iff]
  exact ⟨fun ⟨_, entries, hentries, _⟩ => ⟨entries, hentries⟩,
    fun ⟨entries, hentries⟩ => ⟨_, entries, hentries, rfl⟩⟩

theorem exists_packageDirectories_iff (extension : String) :
    (∃ found, packageDirectories tree extension root = .ok found) ↔
      tree.isDirectory root = true := by
  rw [← exists_entriesAt_iff]
  simp only [packageDirectories, bind_eq_ok_iff, pure_eq_ok_iff]
  exact ⟨fun ⟨_, entries, hentries, _⟩ => ⟨entries, hentries⟩,
    fun ⟨entries, hentries⟩ => ⟨_, entries, hentries, rfl⟩⟩

/-- A path is listed as a source directly inside a directory. -/
def DirectlyIn (tree : FileTree) (extension directory path : String) : Prop :=
  ∃ found, directSources tree extension directory = .ok found ∧ path ∈ found

theorem holdsSource_iff :
    holdsSource tree extension directory = true ↔ ∃ path, DirectlyIn tree extension directory path := by
  unfold holdsSource DirectlyIn
  cases directSources tree extension directory with
  | error failure => simp
  | ok found => simp [← List.isEmpty_eq_false_iff_exists_mem]

theorem exists_directlyIn_of_mem {directories : List String}
    (hdirectories : packageDirectories tree extension root = .ok directories)
    (h : directory ∈ directories) : ∃ path, DirectlyIn tree extension directory path := by
  simp only [packageDirectories, bind_eq_ok_iff, pure_eq_ok_iff] at hdirectories
  obtain ⟨entries, -, rfl⟩ := hdirectories
  exact holdsSource_iff.1 (List.mem_filter.1 h).2

/-! ### Joined places -/

theorem joinAll_concat (root : String) (place : Place) (name : String) :
    joinAll root (place ++ [name]) = Path.join (joinAll root place) name := by
  rw [joinAll, joinAll, List.foldl_append]
  rfl

theorem route_joinAll (hroot : root ≠ "") (hplace : ∀ name ∈ place, isName name = true) :
    FileTree.route (joinAll root place) = FileTree.route root ++ place := by
  induction place generalizing root with
  | nil => exact (List.append_nil _).symm
  | cons name rest ih =>
    obtain ⟨hname, hrest⟩ := List.forall_mem_cons.1 hplace
    calc FileTree.route (joinAll (Path.join root name) rest)
        = FileTree.route (Path.join root name) ++ rest := ih (FileTree.join_ne_empty hname) hrest
      _ = FileTree.route root ++ name :: rest := by
        rw [FileTree.route_join hroot hname, List.append_assoc, List.singleton_append]

theorem joinAll_injective (hroot : root ≠ "") {other : Place}
    (hplace : ∀ name ∈ place, isName name = true) (hother : ∀ name ∈ other, isName name = true)
    (h : joinAll root place = joinAll root other) : place = other := by
  have hroute := congrArg FileTree.route h
  rw [route_joinAll hroot hplace, route_joinAll hroot hother] at hroute
  exact List.append_cancel_left hroute

/-- The path of a place below a directory leads there unless a link stands at it. -/
theorem leadsTo_joinAll {top : Entry} (h : tree.LeadsTo root base top)
    (hentry : top.at? place = some entry) (hlink : entry.isLink = false) :
    tree.LeadsTo (joinAll root place) (base ++ place) entry := by
  induction place generalizing root base top with
  | nil =>
    cases hentry
    rw [List.append_nil]
    exact h
  | cons name rest ih =>
    obtain ⟨entries, below, rfl, hlookup, hrest⟩ := Entry.at?_cons_eq_some_iff.1 hentry
    have hmem := (Entry.lookup_eq_some_iff_mem h.wellFormed).1 hlookup
    have hbelow := h.join hmem (Entry.isLink_of_at? hrest hlink)
    rw [← List.singleton_append, ← List.append_assoc]
    exact ih hbelow hrest

/-! ### What is listed -/

variable {found directories : List String}

theorem isSource_join (h : tree.LeadsTo directory base (.directory entries)) (hmem : (name, entry) ∈ entries)
    (hlink : entry.isLink = false) :
    isSource tree extension (Path.join directory name) = (entry.isFile && hasExtension extension name) := by
  have hname := Entry.isName_of_mem h.wellFormed hmem
  rw [isSource, FileTree.isFile, (h.join hmem hlink).entryAt?_eq, FileTree.extension?_join h.ne_empty hname]
  rfl

theorem isSourceEntry_concat (extension : String) (place : Place) (name : String) (entry : Entry) :
    isSourceEntry extension (place ++ [name], entry) = (entry.isFile && hasExtension extension name) := by
  rw [isSourceEntry, List.getLast?_concat]
  rfl

theorem mem_sources_iff (h : tree.LeadsTo root base (.directory entries))
    (hfound : sources tree extension root = .ok found) :
    path ∈ found ↔ ∃ place entry, (Entry.directory entries).at? place = some entry ∧
      isSourceEntry extension (place, entry) = true ∧ joinAll root place = path := by
  simp only [sources, entriesAt_eq_ok_iff.2 h.entryAt?_eq, bind_eq_ok_iff, pure_eq_ok_iff] at hfound
  obtain ⟨_, hentries, rfl⟩ := hfound
  cases hentries
  simp only [List.mem_map, List.mem_filter, Prod.exists, Entry.mem_walk_iff h.wellFormed, and_assoc]

theorem directlyIn_iff (h : tree.LeadsTo directory base (.directory entries)) :
    DirectlyIn tree extension directory path ↔
      isSource tree extension path = true ∧
        ∃ name entry, (name, entry) ∈ entries ∧ Path.join directory name = path := by
  simp only [DirectlyIn, directSources, bind_eq_ok_iff, pure_eq_ok_iff, entriesAt_eq_ok_iff, h.entryAt?_eq,
    Option.some.injEq, Entry.directory.injEq]
  constructor
  · rintro ⟨_, ⟨_, rfl, rfl⟩, hpath⟩
    obtain ⟨hpath, hsource⟩ := List.mem_filter.1 hpath
    obtain ⟨name, hname, hjoin⟩ := List.mem_map.1 hpath
    obtain ⟨⟨_, entry⟩, hmem, rfl⟩ := List.mem_map.1 (List.mem_mergeSort.1 hname)
    exact ⟨hsource, _, entry, hmem, hjoin⟩
  · rintro ⟨hsource, name, entry, hmem, hjoin⟩
    have hname : name ∈ (entries.map (·.1)).mergeSort fun a b => a ≤ b :=
      List.mem_mergeSort.2 (List.mem_map.2 ⟨_, hmem, rfl⟩)
    exact ⟨_, ⟨entries, rfl, rfl⟩, List.mem_filter.2 ⟨List.mem_map.2 ⟨name, hname, hjoin⟩, hsource⟩⟩

/-- The entries at and below a root among which package directories are looked for. -/
def visited (tree : FileTree) (root : String) (top : Entry) : List (Place × Entry) :=
  if tree.isLink root then top.walk.tail else top.walk

theorem mem_visited_iff (h : (Entry.directory entries).WellFormed) :
    (place, entry) ∈ visited tree root (.directory entries) ↔
      (Entry.directory entries).at? place = some entry ∧ (tree.isLink root = true → place ≠ []) := by
  unfold visited
  split
  · next hlink => simp [Entry.mem_tail_walk_iff h, hlink]
  · next hlink => simp [Entry.mem_walk_iff h, hlink]

theorem packageDirectories_eq (h : tree.LeadsTo root base (.directory entries)) :
    packageDirectories tree extension root =
      .ok ((((visited tree root (.directory entries)).filter fun found => found.2.isDirectory).map
        fun found => joinAll root found.1).filter (holdsSource tree extension)) := by
  rw [packageDirectories, entriesAt_eq_ok_iff.2 h.entryAt?_eq]
  rfl

theorem mem_packageDirectories_iff (h : tree.LeadsTo root base (.directory entries))
    (hdirectories : packageDirectories tree extension root = .ok directories) :
    directory ∈ directories ↔
      (∃ path, DirectlyIn tree extension directory path) ∧
        ∃ place below, (Entry.directory entries).at? place = some (.directory below) ∧
          (tree.isLink root = true → place ≠ []) ∧ joinAll root place = directory := by
  rw [packageDirectories_eq h, Except.ok.injEq] at hdirectories
  subst hdirectories
  rw [List.mem_filter, holdsSource_iff, and_comm, List.mem_map]
  refine and_congr_right fun _ => ?_
  constructor
  · rintro ⟨⟨place, entry⟩, hmem, hjoin⟩
    obtain ⟨hvisited, hdirectory⟩ := List.mem_filter.1 hmem
    obtain ⟨hentry, hlink⟩ := (mem_visited_iff h.wellFormed).1 hvisited
    cases entry with
    | directory below => exact ⟨place, below, hentry, hlink, hjoin⟩
    | file text? => cases hdirectory
    | link target => cases hdirectory
  · rintro ⟨place, below, hentry, hlink, hjoin⟩
    have hvisited := (mem_visited_iff h.wellFormed).2 ⟨hentry, hlink⟩
    exact ⟨(place, .directory below), List.mem_filter.2 ⟨hvisited, rfl⟩, hjoin⟩

theorem nodup_packageDirectories (h : tree.LeadsTo root base (.directory entries))
    (hdirectories : packageDirectories tree extension root = .ok directories) : directories.Nodup := by
  rw [packageDirectories_eq h, Except.ok.injEq] at hdirectories
  subst hdirectories
  have hvisited : (visited tree root (.directory entries)).Pairwise fun first second =>
      first.1 ≠ second.1 := by
    have hwalk := List.pairwise_map.1 (Entry.nodup_places_walk h.wellFormed)
    unfold visited
    split
    · exact hwalk.tail
    · exact hwalk
  refine List.Pairwise.filter _ (List.pairwise_map.2 ?_)
  refine (hvisited.filter _).imp_of_mem fun {first second} hfirst hsecond hne hjoin => hne ?_
  obtain ⟨hfirst, -⟩ := (mem_visited_iff h.wellFormed).1 (List.mem_filter.1 hfirst).1
  obtain ⟨hsecond, -⟩ := (mem_visited_iff h.wellFormed).1 (List.mem_filter.1 hsecond).1
  exact joinAll_injective h.ne_empty (Entry.isName_of_at? h.wellFormed hfirst)
    (Entry.isName_of_at? h.wellFormed hsecond) hjoin

end Discovery

end JavaAtlas
