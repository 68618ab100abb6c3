import JavaAtlas.Proofs.Discovery.Listings
import JavaAtlas.Proofs.FileTree.Alike

/-!
# Listings do not look into files

A revision of a project is another one with the same places that differs in the text of one file. All listings of
the two are the same, for they ask what kind of entry stands where and nothing else; and a joined path that leads
to a file reads the same text in both, unless it leads to the revised one. This is where links matter: without them
the path of a place leads to that place, so no other path reads the revised file.
-/

namespace JavaAtlas

namespace Discovery

open Steps

/-- Below a root two trees hold the same project, free of links, apart from the text of the file at one place. -/
structure Revision (left right : FileTree) (root : String) (revised : Place) (ours theirs : List (String × Entry)) :
    Prop where
  leftRoot : left.entryAt? root = some (.directory ours)
  rightRoot : right.entryAt? root = some (.directory theirs)
  linked : left.isLink root = right.isLink root
  alike : (Entry.directory ours).AlikeBut revised (.directory theirs)
  linkFree : (Entry.directory ours).LinkFree

variable {left right tree : FileTree} {extension root path : String} {revised place base : Place}
  {ours theirs entries others : List (String × Entry)}

def sortedNames (entries : List (String × Entry)) : List String :=
  (entries.map (·.1)).mergeSort fun a b => a ≤ b

theorem mem_sortedNames {name : String} : name ∈ sortedNames entries ↔ ∃ entry, (name, entry) ∈ entries := by
  simp only [sortedNames, List.mem_mergeSort, List.mem_map, Prod.exists, exists_and_right, exists_eq_right]

theorem nodup_sortedNames (hwell : Entry.WellFormedEach entries) : (sortedNames entries).Nodup := by
  refine (List.mergeSort_perm _ _).nodup_iff.2 ?_
  rw [List.Nodup, List.pairwise_map]
  exact (Entry.wellFormedEach_iff.1 hwell).2

theorem sortedNames_congr (hwell : Entry.WellFormedEach entries) (hother : Entry.WellFormedEach others)
    (h : ∀ name, name ∈ sortedNames entries ↔ name ∈ sortedNames others) :
    sortedNames entries = sortedNames others := by
  have hsorted (entries : List (String × Entry)) : (sortedNames entries).Pairwise (· ≤ ·) :=
    Entry.pairwise_mergeSort_key id _
  have hperm := (List.perm_ext_iff_of_nodup (nodup_sortedNames hwell) (nodup_sortedNames hother)).2 h
  exact hperm.eq_of_pairwise (fun _ _ _ _ => Std.le_antisymm) (hsorted entries) (hsorted others)

/-! ### One tree -/

theorem directSources_eq (h : tree.LeadsTo root base (.directory entries)) :
    directSources tree extension root =
      .ok (((sortedNames entries).map (Path.join root)).filter (isSource tree extension)) := by
  rw [directSources, entriesAt_eq_ok_iff.2 h.entryAt?_eq]
  rfl

theorem text?_joinAll {top : Entry} {text? : Option String} (h : tree.LeadsTo root base top)
    (hfile : top.at? place = some (.file text?)) : tree.text? (joinAll root place) = text? := by
  rw [FileTree.text?, (leadsTo_joinAll h hfile rfl).entryAt?_eq]

/-! ### Two trees -/

namespace Revision

variable (h : Revision left right root revised ours theirs)

include h

theorem symm : Revision right left root revised theirs ours where
  leftRoot := h.rightRoot
  rightRoot := h.leftRoot
  linked := h.linked.symm
  alike := h.alike.symm
  linkFree := by
    intro place found hfound
    obtain ⟨other, hother, hsame⟩ := h.alike.symm.exists_at? hfound
    have hlink := h.linkFree place other hother
    cases found with
    | file text? => rfl
    | directory entries => rfl
    | link target =>
      cases other with
      | link target => cases hlink
      | directory entries => cases hsame
      | file text? =>
        have hfile := congrArg Sight.isFile hsame
        rw [Entry.isFile_sight, Entry.isFile_sight] at hfile
        cases hfile

theorem leadsTo_left : ∃ base, left.LeadsTo root base (.directory ours) :=
  FileTree.entryAt?_eq_some_iff.1 h.leftRoot

theorem leadsTo_right : ∃ base, right.LeadsTo root base (.directory theirs) :=
  FileTree.entryAt?_eq_some_iff.1 h.rightRoot

theorem seen_walk : (Entry.directory ours).walk.map (Entry.seen revised) =
    (Entry.directory theirs).walk.map (Entry.seen revised) := by
  obtain ⟨_, hleft⟩ := h.leadsTo_left
  obtain ⟨_, hright⟩ := h.leadsTo_right
  exact (Entry.alikeBut_iff hleft.wellFormed hright.wellFormed).1 h.alike

theorem sources_eq : sources left extension root = sources right extension root := by
  have hkeep : isSourceEntry extension =
      (fun view => view.2.isFile && ((view.1.getLast?).map (hasExtension extension)).getD false) ∘
        Entry.seen revised := by
    funext found
    simp only [isSourceEntry, Function.comp_apply, Entry.seen, Entry.isFile_sight]
  have hplaces := congrArg (List.map (joinAll root)) (Entry.places_filter_seen
    (fun view => view.2.isFile && ((view.1.getLast?).map (hasExtension extension)).getD false) h.seen_walk)
  rw [← hkeep, List.map_map, List.map_map] at hplaces
  rw [sources, sources, entriesAt_eq_ok_iff.2 h.leftRoot, entriesAt_eq_ok_iff.2 h.rightRoot]
  exact congrArg Except.ok hplaces

/-- Entries under one name are of one kind in both trees. -/
theorem exists_mem (hours : (Entry.directory ours).at? place = some (.directory entries))
    (htheirs : (Entry.directory theirs).at? place = some (.directory others)) {name : String} {entry : Entry}
    (hmem : (name, entry) ∈ entries) :
    ∃ other, (name, other) ∈ others ∧ other.isFile = entry.isFile := by
  obtain ⟨_, hleft⟩ := h.leadsTo_left
  obtain ⟨_, hright⟩ := h.leadsTo_right
  have hfound := Entry.at?_concat (Entry.wellFormed_of_at? hleft.wellFormed hours) hours hmem
  obtain ⟨other, hother, hsame⟩ := h.alike.exists_at? hfound
  refine ⟨other, Entry.mem_of_at?_concat (Entry.wellFormed_of_at? hright.wellFormed htheirs) htheirs hother, ?_⟩
  simpa using congrArg Sight.isFile hsame

theorem isSource_join (hours : (Entry.directory ours).at? place = some (.directory entries)) {name : String}
    {entry : Entry} (hmem : (name, entry) ∈ entries) :
    isSource left extension (Path.join (joinAll root place) name) =
      (entry.isFile && hasExtension extension name) := by
  obtain ⟨_, hleft⟩ := h.leadsTo_left
  have hwell := Entry.wellFormed_of_at? hleft.wellFormed hours
  exact Discovery.isSource_join (leadsTo_joinAll hleft hours rfl) hmem
    (h.linkFree _ _ (Entry.at?_concat hwell hours hmem))

theorem directSources_eq (hours : (Entry.directory ours).at? place = some (.directory entries)) :
    directSources left extension (joinAll root place) = directSources right extension (joinAll root place) := by
  obtain ⟨_, hleft⟩ := h.leadsTo_left
  obtain ⟨_, hright⟩ := h.leadsTo_right
  obtain ⟨others, htheirs⟩ := h.alike.exists_directory hours
  have hnames : sortedNames entries = sortedNames others := by
    refine sortedNames_congr (Entry.wellFormed_of_at? hleft.wellFormed hours)
      (Entry.wellFormed_of_at? hright.wellFormed htheirs) fun name => ?_
    rw [mem_sortedNames, mem_sortedNames]
    constructor
    · rintro ⟨entry, hmem⟩
      obtain ⟨other, hother, -⟩ := h.exists_mem hours htheirs hmem
      exact ⟨other, hother⟩
    · rintro ⟨other, hmem⟩
      obtain ⟨entry, hentry, -⟩ := h.symm.exists_mem htheirs hours hmem
      exact ⟨entry, hentry⟩
  rw [Discovery.directSources_eq (leadsTo_joinAll hleft hours rfl),
    Discovery.directSources_eq (leadsTo_joinAll hright htheirs rfl), ← hnames, Except.ok.injEq]
  refine List.filter_congr fun path hpath => ?_
  obtain ⟨name, hname, rfl⟩ := List.mem_map.1 hpath
  obtain ⟨entry, hmem⟩ := mem_sortedNames.1 hname
  obtain ⟨other, hother, hfile⟩ := h.exists_mem hours htheirs hmem
  rw [h.isSource_join hours hmem, h.symm.isSource_join htheirs hother, hfile]

theorem packageDirectories_eq :
    packageDirectories left extension root = packageDirectories right extension root := by
  obtain ⟨_, hleft⟩ := h.leadsTo_left
  obtain ⟨_, hright⟩ := h.leadsTo_right
  have hvisited : (visited left root (.directory ours)).map (Entry.seen revised) =
      (visited right root (.directory theirs)).map (Entry.seen revised) := by
    unfold visited
    rw [h.linked]
    split
    · rw [List.map_tail, List.map_tail, h.seen_walk]
    · exact h.seen_walk
  have hkeep : (fun found : Place × Entry => found.2.isDirectory) =
      (fun view => view.2.isDirectory) ∘ Entry.seen revised := by
    funext found
    exact (Entry.isDirectory_sight _ _ _).symm
  have hplaces := congrArg (List.map (joinAll root))
    (Entry.places_filter_seen (fun view => view.2.isDirectory) hvisited)
  rw [← hkeep, List.map_map, List.map_map] at hplaces
  rw [Discovery.packageDirectories_eq hleft, Discovery.packageDirectories_eq hright, Except.ok.injEq]
  refine Eq.trans (List.filter_congr fun directory hdirectory => ?_) (congrArg (List.filter _) hplaces)
  obtain ⟨⟨place, entry⟩, hmem, rfl⟩ := List.mem_map.1 hdirectory
  obtain ⟨hmem, hkind⟩ := List.mem_filter.1 hmem
  have hentry := ((mem_visited_iff hleft.wellFormed).1 hmem).1
  cases entry with
  | directory entries => rw [holdsSource, holdsSource, h.directSources_eq hentry]
  | file text? => cases hkind
  | link target => cases hkind

end Revision

end Discovery

end JavaAtlas
