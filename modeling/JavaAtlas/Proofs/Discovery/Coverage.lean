import Mathlib.Logic.ExistsUnique
import JavaAtlas.Proofs.Discovery.Listings

/-!
# The deep listing against the direct ones

The sources below a root are found twice, by one walk for the sources themselves and by one for the
directories that hold some. A source of the first kind stands directly inside one directory, the one at its
place without the last name, and its path tells which: so it is listed by exactly one package directory,
provided that this directory is one. The walk for directories passes over a root that is itself a link,
though, which is the one way for a source to be missed. Conversely what a package directory lists is met by
the other walk, links apart.
-/

namespace JavaAtlas

namespace Discovery

variable {tree : FileTree} {extension root directory path : String} {base place other : Place}
  {entries below beside : List (String × Entry)} {found directories : List String}

/-- What stands directly inside a directory below a root is found below the root, links apart. -/
theorem mem_sources_of_directlyIn (h : tree.LeadsTo root base (.directory entries))
    (hfound : sources tree extension root = .ok found)
    (hplace : (Entry.directory entries).at? place = some (.directory below))
    (hin : DirectlyIn tree extension (joinAll root place) path) (hlink : tree.isLink path = false) :
    path ∈ found := by
  have hleads := leadsTo_joinAll h hplace rfl
  obtain ⟨hsource, name, entry, hmem, rfl⟩ := (directlyIn_iff hleads).1 hin
  rw [hleads.isLink_join hmem] at hlink
  rw [isSource_join hleads hmem hlink] at hsource
  refine (mem_sources_iff h hfound).2 ⟨place ++ [name], entry, ?_, ?_, joinAll_concat root place name⟩
  · exact Entry.at?_concat hleads.wellFormed hplace hmem
  · rw [isSourceEntry_concat, hsource]

/-- What is found below a root stands directly inside a directory below it, and is no link. -/
theorem exists_directlyIn_of_mem_sources (h : tree.LeadsTo root base (.directory entries))
    (hfound : sources tree extension root = .ok found) (hpath : path ∈ found) :
    tree.isLink path = false ∧
      ∃ place below, (Entry.directory entries).at? place = some (.directory below) ∧
        DirectlyIn tree extension (joinAll root place) path := by
  obtain ⟨whole, entry, hentry, hsource, rfl⟩ := (mem_sources_iff h hfound).1 hpath
  rcases List.eq_nil_or_concat' whole with rfl | ⟨place, name, rfl⟩
  · -- The root itself is a directory and no source.
    cases hentry
    cases hsource
  · rw [isSourceEntry_concat] at hsource
    have hlink : entry.isLink = false := by
      cases entry with
      | file text? => rfl
      | directory inner => cases hsource
      | link target => cases hsource
    rw [Entry.at?_append, Option.bind_eq_some_iff] at hentry
    obtain ⟨_, hplace, hname⟩ := hentry
    obtain ⟨below, _, rfl, hlookup, hself⟩ := Entry.at?_cons_eq_some_iff.1 hname
    cases hself
    have hleads := leadsTo_joinAll h hplace rfl
    have hmem := (Entry.lookup_eq_some_iff_mem hleads.wellFormed).1 hlookup
    rw [joinAll_concat]
    refine ⟨(hleads.isLink_join hmem).trans hlink, place, below, hplace, ?_⟩
    refine (directlyIn_iff hleads).2 ⟨?_, name, entry, hmem, rfl⟩
    rw [isSource_join hleads hmem hlink, hsource]

theorem place_unique (h : tree.LeadsTo root base (.directory entries))
    (hplace : (Entry.directory entries).at? place = some (.directory below))
    (hother : (Entry.directory entries).at? other = some (.directory beside))
    (hin : DirectlyIn tree extension (joinAll root place) path)
    (hbeside : DirectlyIn tree extension (joinAll root other) path) : place = other := by
  have hleads := leadsTo_joinAll h hplace rfl
  have hleads' := leadsTo_joinAll h hother rfl
  obtain ⟨-, name, entry, hmem, hjoin⟩ := (directlyIn_iff hleads).1 hin
  obtain ⟨-, name', entry', hmem', hjoin'⟩ := (directlyIn_iff hleads').1 hbeside
  -- The path is joined from two places, each with one more name, so these are the same.
  rw [← joinAll_concat] at hjoin hjoin'
  have hwhole := Entry.at?_concat hleads.wellFormed hplace hmem
  have hwhole' := Entry.at?_concat hleads'.wellFormed hother hmem'
  have hsame := joinAll_injective h.ne_empty (Entry.isName_of_at? h.wellFormed hwhole)
    (Entry.isName_of_at? h.wellFormed hwhole') (hjoin.trans hjoin'.symm)
  exact (List.append_inj' hsame rfl).1

/-- The package directory that lists a source found below a root is the one at its place, if the walk for
directories comes to it. -/
theorem existsUnique_directory_iff (h : tree.LeadsTo root base (.directory entries))
    (hdirectories : packageDirectories tree extension root = .ok directories)
    (hplace : (Entry.directory entries).at? place = some (.directory below))
    (hin : DirectlyIn tree extension (joinAll root place) path) :
    (∃! directory, directory ∈ directories ∧ DirectlyIn tree extension directory path) ↔
      (tree.isLink root = true → place ≠ []) := by
  constructor
  · rintro ⟨directory, ⟨hdirectory, hlists⟩, -⟩
    obtain ⟨-, other, beside, hother, hvisited, rfl⟩ :=
      (mem_packageDirectories_iff h hdirectories).1 hdirectory
    rw [place_unique h hplace hother hin hlists]
    exact hvisited
  · intro hvisited
    have hlisted := (mem_packageDirectories_iff h hdirectories).2
      ⟨⟨path, hin⟩, place, below, hplace, hvisited, rfl⟩
    refine ⟨joinAll root place, ⟨hlisted, hin⟩, ?_⟩
    rintro directory ⟨hdirectory, hlists⟩
    obtain ⟨-, other, beside, hother, -, rfl⟩ :=
      (mem_packageDirectories_iff h hdirectories).1 hdirectory
    rw [place_unique h hplace hother hin hlists]

/-- **The listings of a root agree unless it is a link that directly holds a source.** Every source found
below a root is listed by exactly one package directory, except when the root is itself a link and a source
that is no link stands directly inside; every source that a package directory lists is found below the root,
links apart. -/
theorem listings_agree_iff (hroot : tree.isDirectory root = true) (extension : String) :
    ∃ found directories, sources tree extension root = .ok found ∧
      packageDirectories tree extension root = .ok directories ∧ directories.Nodup ∧
      ((∀ path ∈ found, ∃! directory, directory ∈ directories ∧
          DirectlyIn tree extension directory path) ↔
        ¬ (tree.isLink root = true ∧
          ∃ path, DirectlyIn tree extension root path ∧ tree.isLink path = false)) ∧
      (∀ directory ∈ directories, ∀ path, DirectlyIn tree extension directory path →
        tree.isLink path = false → path ∈ found) ∧
      ∀ path ∈ found, tree.isLink path = false := by
  obtain ⟨entries, hentries⟩ := FileTree.isDirectory_iff.1 hroot
  obtain ⟨base, h⟩ := FileTree.entryAt?_eq_some_iff.1 hentries
  obtain ⟨found, hfound⟩ := (exists_sources_iff extension).2 hroot
  obtain ⟨directories, hdirectories⟩ := (exists_packageDirectories_iff extension).2 hroot
  refine ⟨found, directories, hfound, hdirectories, nodup_packageDirectories h hdirectories, ⟨?_, ?_⟩,
    ?_, fun path hpath => (exists_directlyIn_of_mem_sources h hfound hpath).1⟩
  · -- A root that is a link stands at the empty place, which the walk for directories passes over.
    rintro hall ⟨hlinked, path, hin, hlink⟩
    have htop : (Entry.directory entries).at? [] = some (.directory entries) := rfl
    have hpath := mem_sources_of_directlyIn h hfound htop hin hlink
    exact (existsUnique_directory_iff h hdirectories htop hin).1 (hall path hpath) hlinked rfl
  · intro hnot path hpath
    obtain ⟨hlink, place, below, hplace, hin⟩ := exists_directlyIn_of_mem_sources h hfound hpath
    refine (existsUnique_directory_iff h hdirectories hplace hin).2 ?_
    rintro hlinked rfl
    exact hnot ⟨hlinked, path, hin, hlink⟩
  · intro directory hdirectory path hin hlink
    obtain ⟨-, place, below, hplace, -, rfl⟩ := (mem_packageDirectories_iff h hdirectories).1 hdirectory
    exact mem_sources_of_directlyIn h hfound hplace hin hlink

/-- A directory with a source, and a link to it. -/
def linkedTree : FileTree :=
  ((FileTree.bare ["home"]).write "real/A.java" (some "class A \x7b\x7d")).makeLink "link" "real"

theorem linkedTree_listings_agree :
    linkedTree.isDirectory "real" = true ∧
      ∃ found directories, sources linkedTree "java" "real" = .ok found ∧
        packageDirectories linkedTree "java" "real" = .ok directories ∧ directories.Nodup ∧
        ((∀ path ∈ found, ∃! directory, directory ∈ directories ∧
            DirectlyIn linkedTree "java" directory path) ↔
          ¬ (linkedTree.isLink "real" = true ∧
            ∃ path, DirectlyIn linkedTree "java" "real" path ∧ linkedTree.isLink path = false)) ∧
        (∀ directory ∈ directories, ∀ path, DirectlyIn linkedTree "java" directory path →
          linkedTree.isLink path = false → path ∈ found) ∧
        ∀ path ∈ found, linkedTree.isLink path = false :=
  ⟨by decide, listings_agree_iff (by decide) "java"⟩

/-- Below the link a source is found that no package directory lists. -/
theorem linkedTree_source_unlisted :
    linkedTree.isDirectory "link" = true ∧
      ∃ found directories, sources linkedTree "java" "link" = .ok found ∧
        packageDirectories linkedTree "java" "link" = .ok directories ∧
        ¬ ∀ path ∈ found, ∃! directory, directory ∈ directories ∧
          DirectlyIn linkedTree "java" directory path := by
  refine ⟨by decide, ["link/A.java"], [], by decide +kernel, by decide +kernel, fun hall => ?_⟩
  obtain ⟨directory, ⟨hdirectory, -⟩, -⟩ := hall "link/A.java" List.mem_cons_self
  cases hdirectory

end Discovery

end JavaAtlas
