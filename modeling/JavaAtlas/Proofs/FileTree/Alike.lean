import JavaAtlas.Proofs.FileTree.Walk

/-!
# Trees that differ in the text of one file

Two entries are alike but for one place if the same is seen at every place below them, where files are looked into
everywhere except at that place. The walks below them then come to the same places and see the same there: what a
walk sees is told by its members, and their order is that of the places.
-/

namespace JavaAtlas

/-- What is seen of an entry: a file with its text, a file that is not looked into, a directory, or a link. -/
inductive Sight where
  | file (text? : Option String)
  | closed
  | directory
  | link (target : String)
deriving DecidableEq

namespace Sight

def isFile : Sight → Bool
  | file _ | closed => true
  | _ => false

def isDirectory : Sight → Bool
  | directory => true
  | _ => false

end Sight

namespace Entry

/-- What is seen of the entry at a place if the file at some place is hidden. -/
def sight (hidden place : Place) : Entry → Sight
  | .file text? => if place = hidden then .closed else .file text?
  | .directory _ => .directory
  | .link target => .link target

/-- An entry that a walk has come to, as it is seen. -/
def seen (hidden : Place) (found : Place × Entry) : Place × Sight :=
  (found.1, found.2.sight hidden found.1)

/-- The same is seen at all places below two entries, apart from the text of the file at one. -/
def AlikeBut (hidden : Place) (left right : Entry) : Prop :=
  ∀ place, (left.at? place).map (sight hidden place) = (right.at? place).map (sight hidden place)

def LinkFree (entry : Entry) : Prop :=
  ∀ place found, entry.at? place = some found → found.isLink = false

variable {hidden place : Place} {entry left right found : Entry}

/-! ### One entry -/

@[simp] theorem isFile_sight (hidden place : Place) (entry : Entry) :
    (entry.sight hidden place).isFile = entry.isFile := by
  cases entry with
  | file text? =>
    rw [sight]
    split <;> rfl
  | directory entries => rfl
  | link target => rfl

@[simp] theorem isDirectory_sight (hidden place : Place) (entry : Entry) :
    (entry.sight hidden place).isDirectory = entry.isDirectory := by
  cases entry with
  | file text? =>
    rw [sight]
    split <;> rfl
  | directory entries => rfl
  | link target => rfl

theorem eq_file_of_sight {text? : Option String} (hplace : place ≠ hidden)
    (h : entry.sight hidden place = .file text?) : entry = .file text? := by
  cases entry with
  | file other =>
    rw [sight, if_neg hplace] at h
    cases h
    rfl
  | directory entries => cases h
  | link target => cases h

theorem linkFree_iff (h : entry.WellFormed) :
    entry.LinkFree ↔ ∀ found ∈ entry.walk, found.2.isLink = false := by
  simp only [LinkFree, Prod.forall, mem_walk_iff h]

/-! ### Entries that are alike -/

namespace AlikeBut

theorem symm (h : AlikeBut hidden left right) : AlikeBut hidden right left :=
  fun place => (h place).symm

/-- What stands at a place of one entry has a counterpart at the same place of the other. -/
theorem exists_at? (h : AlikeBut hidden left right) (hfound : left.at? place = some found) :
    ∃ other, right.at? place = some other ∧ other.sight hidden place = found.sight hidden place := by
  have hsame := h place
  rw [hfound] at hsame
  exact Option.map_eq_some_iff.1 hsame.symm

theorem exists_directory (h : AlikeBut hidden left right) {entries : List (String × Entry)}
    (hfound : left.at? place = some (.directory entries)) :
    ∃ others, right.at? place = some (.directory others) := by
  obtain ⟨other, hother, hsame⟩ := h.exists_at? hfound
  have hdirectory := (isDirectory_sight hidden place other).symm.trans (congrArg Sight.isDirectory hsame)
  cases other with
  | directory others => exact ⟨others, hother⟩
  | file text? => cases hdirectory
  | link target => cases hdirectory

theorem at?_file (h : AlikeBut hidden left right) {text? : Option String} (hplace : place ≠ hidden)
    (hfound : left.at? place = some (.file text?)) : right.at? place = some (.file text?) := by
  obtain ⟨other, hother, hsame⟩ := h.exists_at? hfound
  rw [sight, if_neg hplace] at hsame
  rw [hother, eq_file_of_sight hplace hsame]

end AlikeBut

/-! ### What walks see -/

theorem mem_seen_walk_iff (h : entry.WellFormed) {sight : Sight} :
    (place, sight) ∈ entry.walk.map (seen hidden) ↔
      (entry.at? place).map (Entry.sight hidden place) = some sight := by
  simp only [List.mem_map, Prod.exists, seen, Prod.mk.injEq, mem_walk_iff h, Option.map_eq_some_iff]
  constructor
  · rintro ⟨place, found, hfound, rfl, hsight⟩
    exact ⟨found, hfound, hsight⟩
  · rintro ⟨found, hfound, hsight⟩
    exact ⟨place, found, hfound, rfl, hsight⟩

theorem pairwise_seen_walk (hidden : Place) (h : entry.WellFormed) :
    (entry.walk.map (seen hidden)).Pairwise fun first second => first.1 < second.1 :=
  List.pairwise_map.2 (pairwise_walk h)

/-- **Entries are alike exactly if the walks below them see the same.** -/
theorem alikeBut_iff (hleft : left.WellFormed) (hright : right.WellFormed) :
    AlikeBut hidden left right ↔ left.walk.map (seen hidden) = right.walk.map (seen hidden) := by
  constructor
  · intro h
    have hlt := pairwise_seen_walk hidden hleft
    have hlt' := pairwise_seen_walk hidden hright
    have hne {first second : Place × Sight} (hlt : first.1 < second.1) : first ≠ second := by
      rintro rfl
      exact List.lt_irrefl _ hlt
    have hperm : (left.walk.map (seen hidden)).Perm (right.walk.map (seen hidden)) := by
      refine (List.perm_ext_iff_of_nodup (hlt.imp hne) (hlt'.imp hne)).2 ?_
      rintro ⟨place, sight⟩
      rw [mem_seen_walk_iff hleft, mem_seen_walk_iff hright, h place]
    refine hperm.eq_of_pairwise ?_ hlt hlt'
    intro first second _ _ hfirst hsecond
    exact absurd (List.lt_trans hfirst hsecond) (List.lt_irrefl _)
  · intro h place
    apply Option.ext
    intro sight
    rw [← mem_seen_walk_iff hleft, ← mem_seen_walk_iff hright, h]

/-- What is kept of two lists for how it is seen stands at the same places. -/
theorem places_filter_seen (keep : Place × Sight → Bool) {ours theirs : List (Place × Entry)}
    (h : ours.map (seen hidden) = theirs.map (seen hidden)) :
    (ours.filter (keep ∘ seen hidden)).map Prod.fst = (theirs.filter (keep ∘ seen hidden)).map Prod.fst := by
  have hplaces (list : List (Place × Entry)) :
      (list.filter (keep ∘ seen hidden)).map Prod.fst =
        ((list.map (seen hidden)).filter keep).map Prod.fst := by
    rw [List.filter_map, List.map_map]
    rfl
  rw [hplaces, hplaces, h]

end Entry

end JavaAtlas
