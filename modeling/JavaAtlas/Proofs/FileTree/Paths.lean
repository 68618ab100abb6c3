import Mathlib.Data.List.Basic
import JavaAtlas.Proofs.FileTree.Walk

/-!
# Where joined paths lead

The path of an entry of a directory has the parts of the path of the directory, less the empty part that a
slash at its end leaves behind, and then the name of the entry. A look-up of it hence comes to the directory
first and takes one more step. If that step meets no link, it leads to the place of the entry in that
directory, and in any case the last part names the entry that stands there.
-/

namespace JavaAtlas

variable {directory name : String}

theorem isName_iff :
    isName name = true ↔ name ≠ "" ∧ name ≠ "." ∧ name ≠ ".." ∧ '/' ∉ name.toList := by
  simp only [isName, Bool.and_eq_true, bne_iff_ne, Bool.not_eq_true', List.contains_eq_mem,
    decide_eq_false_iff_not, and_assoc]

namespace FileTree

/-! ### Parts of joined paths -/

theorem parts_append_slash (front back : String) :
    parts (front ++ "/" ++ back) = parts front ++ parts back := by
  have hslash : "/".toList = ['/'] := rfl
  simp only [parts, String.toList_append, hslash, List.append_assoc, List.singleton_append]
  rw [List.splitOnP_append_cons (p := (· == '/')) _ _ (beq_self_eq_true '/'), List.map_append]

theorem parts_of_isName (h : isName name = true) : parts name = [name] := by
  have hnone : ∀ char ∈ name.toList, (char == '/') = false := by
    rintro char hchar
    exact beq_false_of_ne fun hslash => (isName_iff.1 h).2.2.2 (hslash ▸ hchar)
  rw [parts, List.splitOnP_eq_singleton hnone, List.map_singleton, String.ofList_toList]

/-- The path of a directory without the slash at its end, if it has one. -/
def trunk (directory : String) : String :=
  if directory.toList.getLast? == some '/' then String.ofList directory.toList.dropLast else directory

/-- The parts of the path of a directory that the paths of its entries start with. -/
def route (directory : String) : List String :=
  parts (trunk directory)

theorem trunk_append_slash (h : directory.toList.getLast? = some '/') :
    trunk directory ++ "/" = directory := by
  refine String.toList_injective ?_
  rw [trunk, if_pos (beq_iff_eq.2 h), String.toList_append, String.toList_ofList]
  exact List.dropLast_append_getLast? '/' h

theorem trunk_eq_self (h : directory.toList.getLast? ≠ some '/') : trunk directory = directory := by
  rw [trunk, if_neg (fun hslash => h (beq_iff_eq.1 hslash))]

theorem join_eq (h : directory ≠ "") : Path.join directory name = trunk directory ++ "/" ++ name := by
  unfold Path.join
  by_cases hslash : directory.toList.getLast? = some '/'
  · simp [hslash, trunk_append_slash hslash]
  · simp [hslash, h, trunk_eq_self hslash]

theorem parts_eq_route_or (directory : String) :
    parts directory = route directory ∨ parts directory = route directory ++ [""] := by
  by_cases hslash : directory.toList.getLast? = some '/'
  · refine Or.inr ?_
    calc parts directory = parts (trunk directory ++ "/" ++ "") := by
          rw [String.append_empty, trunk_append_slash hslash]
      _ = route directory ++ [""] := parts_append_slash _ _
  · exact Or.inl (by rw [route, trunk_eq_self hslash])

theorem parts_join (hdirectory : directory ≠ "") (hname : isName name = true) :
    parts (Path.join directory name) = route directory ++ [name] := by
  rw [join_eq hdirectory, parts_append_slash, parts_of_isName hname, route]

theorem join_ne_empty (hname : isName name = true) : Path.join directory name ≠ "" := by
  unfold Path.join
  split <;> simp [(isName_iff.1 hname).1]

theorem route_join (hdirectory : directory ≠ "") (hname : isName name = true) :
    route (Path.join directory name) = route directory ++ [name] := by
  have hnone : (Path.join directory name).toList.getLast? ≠ some '/' := by
    have hne : name.toList ≠ [] := by simpa using (isName_iff.1 hname).1
    rw [join_eq hdirectory, String.toList_append, List.getLast?_append_of_ne_nil _ hne]
    exact fun hlast => (isName_iff.1 hname).2.2.2 (List.mem_of_getLast? hlast)
  rw [route, trunk_eq_self hnone, parts_join hdirectory hname]

theorem isAbsolute_join (hdirectory : directory ≠ "") :
    Path.isAbsolute (Path.join directory name) = Path.isAbsolute directory := by
  have hne : directory.toList ≠ [] := by simpa using hdirectory
  have hhead (rest : List Char) : (directory.toList ++ rest).head? = directory.toList.head? :=
    List.head?_append_of_ne_nil _ hne
  unfold Path.join Path.isAbsolute
  split
  · rw [String.toList_append, hhead]
  · rw [String.toList_append, String.toList_append, List.append_assoc, hhead]

theorem fileName?_join (hdirectory : directory ≠ "") (hname : isName name = true) :
    Path.fileName? (Path.join directory name) = some name := by
  obtain ⟨hempty, hpoint, hpoints, -⟩ := isName_iff.1 hname
  have hsegments : (Path.segments (Path.join directory name)).getLast? = some name := by
    have hparts : Path.segments (Path.join directory name) =
        (parts (Path.join directory name)).filter fun part => part != "" && part != "." := rfl
    rw [hparts, parts_join hdirectory hname, List.filter_append]
    simp [hempty, hpoint]
  rw [Path.fileName?, hsegments]
  split
  · next hlast => exact absurd (Option.some.inj hlast) hpoints
  · rfl

theorem extension?_join (hdirectory : directory ≠ "") (hname : isName name = true) :
    Path.extension? (Path.join directory name) = (Path.splitName name).2 := by
  rw [Path.extension?, fileName?_join hdirectory hname, Option.bind_some]

/-! ### Look-ups in two steps -/

variable {tree : FileTree} {place reached : Place} {segments more : List String} {links : Nat}

/-- How a look-up goes on with more parts. -/
def Stretch.andThen (tree : FileTree) (more : List String) : Stretch → Stretch
  | .arrived place => stretch tree place more
  | .linked place segments => .linked place (segments ++ more)
  | .missing place name rest => .missing place name (rest ++ more)
  | .barred => .barred

theorem stretch_append :
    stretch tree place (segments ++ more) = (stretch tree place segments).andThen tree more := by
  induction segments generalizing place with
  | nil => rfl
  | cons part rest ih =>
    rw [List.cons_append, stretch, stretch]
    split
    · next entries hentries =>
      split
      · exact ih
      split
      · exact ih
      split
      · rfl
      · rw [Stretch.andThen, List.append_assoc]
      · exact ih
    · rfl

/-- A look-up arrives without a link, or it meets one and arrives from there with one link fewer. -/
theorem follow_eq_arrived_iff :
    follow tree links place segments = .arrived reached ↔
      stretch tree place segments = .arrived reached ∨
        ∃ fewer next remaining, links = fewer + 1 ∧ stretch tree place segments = .linked next remaining ∧
          follow tree fewer next remaining = .arrived reached := by
  cases links with
  | zero => simp [follow]
  | succ links =>
    rw [follow]
    cases stretch tree place segments with
    | arrived middle => simp
    | linked next remaining => simp
    | missing middle part rest => simp
    | barred => simp

theorem follow_append_of_arrived (h : follow tree links place segments = .arrived reached)
    {last : Place} (hmore : stretch tree reached more = .arrived last) :
    follow tree links place (segments ++ more) = .arrived last := by
  -- A link puts its target in front of what is left, so the induction is on the links that may follow.
  induction links using Nat.strongRecOn generalizing place segments with
  | ind links ih =>
    rcases follow_eq_arrived_iff.1 h with harrived | ⟨fewer, next, remaining, rfl, hlinked, hrest⟩
    · refine follow_eq_arrived_iff.2 (Or.inl ?_)
      rw [stretch_append, harrived]
      exact hmore
    · have hnext := ih fewer (Nat.lt_succ_self fewer) hrest
      refine follow_eq_arrived_iff.2 (Or.inr ⟨fewer, next, remaining ++ more, rfl, ?_, hnext⟩)
      rw [stretch_append, hlinked]
      rfl

theorem stretch_blank (tree : FileTree) (place : Place) :
    stretch tree place [""] = .arrived place ∨ stretch tree place [""] = .barred := by
  simp only [stretch, isStay, beq_self_eq_true, Bool.true_or, if_true]
  split
  · exact Or.inl rfl
  · exact Or.inr rfl

/-- An empty part at the end changes nothing about where a look-up arrives. -/
theorem follow_of_append_blank (h : follow tree links place (segments ++ [""]) = .arrived reached) :
    follow tree links place segments = .arrived reached := by
  induction links using Nat.strongRecOn generalizing place segments with
  | ind links ih =>
    rw [follow_eq_arrived_iff, stretch_append] at h
    rw [follow_eq_arrived_iff]
    cases hstretch : stretch tree place segments with
    | arrived middle =>
      rw [hstretch, Stretch.andThen] at h
      rcases stretch_blank tree middle with hblank | hblank
      · exact Or.inl (by simpa [hblank] using h)
      · simp [hblank] at h
    | linked next remaining =>
      simp only [hstretch, Stretch.andThen, reduceCtorEq, false_or, Stretch.linked.injEq] at h
      obtain ⟨fewer, _, _, rfl, ⟨rfl, rfl⟩, hrest⟩ := h
      exact Or.inr ⟨fewer, next, remaining, rfl, rfl, ih fewer (Nat.lt_succ_self fewer) hrest⟩
    | missing middle part rest => simp [hstretch, Stretch.andThen] at h
    | barred => simp [hstretch, Stretch.andThen] at h

/-! ### Entries of a directory -/

theorem place?_eq_some_iff {path : String} :
    tree.place? path = some place ↔ path ≠ "" ∧ tree.lookUp path (parts path) = .arrived place := by
  unfold place?
  by_cases hempty : path = ""
  · simp [hempty]
  · simp only [beq_iff_eq, hempty, if_false, ne_eq, not_false_eq_true, true_and]
    cases tree.lookUp path (parts path) with
    | arrived other => simp
    | linked next remaining => simp
    | missing middle part rest => simp
    | barred => simp

/-- The parts that the paths of the entries of a directory start with lead to the directory. -/
theorem lookUp_route (hplace : tree.place? directory = some place) (name : String) :
    tree.lookUp (Path.join directory name) (route directory) = .arrived place := by
  obtain ⟨hdirectory, hlookUp⟩ := place?_eq_some_iff.1 hplace
  -- A slash at the end of the directory leaves an empty part behind, which arrives where it starts.
  unfold lookUp startOf at hlookUp ⊢
  rw [isAbsolute_join hdirectory]
  rcases parts_eq_route_or directory with hparts | hparts
  · exact hparts ▸ hlookUp
  · exact follow_of_append_blank (hparts ▸ hlookUp)

/-- The last part of the path of an entry names what stands under its name in the directory. -/
theorem named?_join (hplace : tree.place? directory = some place) (hname : isName name = true) :
    tree.named? (Path.join directory name) = tree.root.at? (place ++ [name]) := by
  obtain ⟨hempty, hpoint, hpoints, -⟩ := isName_iff.1 hname
  have hdirectory := (place?_eq_some_iff.1 hplace).1
  rw [named?, parts_join hdirectory hname, List.dropLast_concat, lookUp_route hplace,
    List.getLast?_concat]
  simp [isStay, hempty, hpoint, hpoints]

theorem stretch_name {entry : Entry} (hname : isName name = true)
    (hentry : tree.root.at? (place ++ [name]) = some entry) (hlink : entry.isLink = false) :
    stretch tree place [name] = .arrived (place ++ [name]) := by
  obtain ⟨hempty, hpoint, hpoints, -⟩ := isName_iff.1 hname
  rw [Entry.at?_append, Option.bind_eq_some_iff] at hentry
  obtain ⟨_, hplace, hbelow⟩ := hentry
  obtain ⟨entries, below, rfl, hlookup, hself⟩ := Entry.at?_cons_eq_some_iff.1 hbelow
  cases hself
  rw [stretch, hplace]
  cases entry with
  | link target => cases hlink
  | directory inner => simp [isStay, hempty, hpoint, hpoints, hlookup, stretch]
  | file text? => simp [isStay, hempty, hpoint, hpoints, hlookup, stretch]

theorem place?_join {entry : Entry} (hplace : tree.place? directory = some place)
    (hname : isName name = true) (hentry : tree.root.at? (place ++ [name]) = some entry)
    (hlink : entry.isLink = false) :
    tree.place? (Path.join directory name) = some (place ++ [name]) := by
  have hdirectory := (place?_eq_some_iff.1 hplace).1
  refine place?_eq_some_iff.2 ⟨join_ne_empty hname, ?_⟩
  rw [parts_join hdirectory hname]
  exact follow_append_of_arrived (lookUp_route hplace name) (stretch_name hname hentry hlink)

/-! ### Where a path leads -/

variable {path : String} {entry : Entry}

/-- A path leads to a place, at which an entry stands. -/
structure LeadsTo (tree : FileTree) (path : String) (place : Place) (entry : Entry) : Prop where
  arrives : tree.place? path = some place
  stands : tree.root.at? place = some entry

theorem entryAt?_eq_some_iff : tree.entryAt? path = some entry ↔ ∃ place, tree.LeadsTo path place entry := by
  rw [entryAt?, Option.bind_eq_some_iff]
  exact ⟨fun ⟨place, hplace, hentry⟩ => ⟨place, hplace, hentry⟩,
    fun ⟨place, hleads⟩ => ⟨place, hleads.arrives, hleads.stands⟩⟩

theorem isDirectory_iff :
    tree.isDirectory path = true ↔ ∃ entries, tree.entryAt? path = some (.directory entries) := by
  unfold isDirectory
  cases tree.entryAt? path with
  | none => simp
  | some entry =>
    cases entry with
    | directory entries => simp [Entry.isDirectory]
    | file text? => simp [Entry.isDirectory]
    | link target => simp [Entry.isDirectory]

namespace LeadsTo

theorem ne_empty (h : tree.LeadsTo path place entry) : path ≠ "" :=
  (place?_eq_some_iff.1 h.arrives).1

theorem wellFormed (h : tree.LeadsTo path place entry) : entry.WellFormed :=
  Entry.wellFormed_of_at? tree.wellFormed h.stands

theorem entryAt?_eq (h : tree.LeadsTo path place entry) : tree.entryAt? path = some entry :=
  entryAt?_eq_some_iff.2 ⟨place, h⟩

variable {entries : List (String × Entry)}

theorem at?_concat (h : tree.LeadsTo path place (.directory entries)) (hmem : (name, entry) ∈ entries) :
    tree.root.at? (place ++ [name]) = some entry :=
  Entry.at?_concat h.wellFormed h.stands hmem

/-- The path of an entry of a directory leads to the entry unless that is a link. -/
theorem join (h : tree.LeadsTo path place (.directory entries)) (hmem : (name, entry) ∈ entries)
    (hlink : entry.isLink = false) : tree.LeadsTo (Path.join path name) (place ++ [name]) entry :=
  ⟨place?_join h.arrives (Entry.isName_of_mem h.wellFormed hmem) (h.at?_concat hmem) hlink,
    h.at?_concat hmem⟩

theorem isLink_join (h : tree.LeadsTo path place (.directory entries)) (hmem : (name, entry) ∈ entries) :
    tree.isLink (Path.join path name) = entry.isLink := by
  rw [isLink, named?_join h.arrives (Entry.isName_of_mem h.wellFormed hmem), h.at?_concat hmem]
  rfl

end LeadsTo

end FileTree

end JavaAtlas
