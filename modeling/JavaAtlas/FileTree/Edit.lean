import JavaAtlas.FileTree

/-!
# Changing file trees

Writing files, making directories and links, and removing entries. Directories that are missing on the way
are made. What cannot be done, such as writing below a file or under a name that no entry may bear, changes
nothing.
-/

namespace JavaAtlas

namespace Entry

/-- Entries in which a name stands for a given entry. -/
def setEntry (name : String) (entry : Entry) : List (String × Entry) → List (String × Entry)
  | [] => [(name, entry)]
  | (other, below) :: rest =>
    if other == name then (name, entry) :: rest else (other, below) :: setEntry name entry rest

def put (entry : Entry) (new : Entry) : Place → Entry
  | [] => new
  | name :: rest =>
    let below := (entry.entries.lookup name).getD (directory [])
    directory (setEntry name (below.put new rest) entry.entries)

def erase (entry : Entry) : Place → Entry
  | [] => entry
  | [name] => directory (entry.entries.filter fun below => below.1 != name)
  | name :: rest =>
    match entry.entries.lookup name with
    | some below => directory (setEntry name (below.erase rest) entry.entries)
    | none => entry

theorem wellFormedEach_entries {entry : Entry} (h : entry.WellFormed) :
    WellFormedEach entry.entries := by
  cases entry with
  | directory below => simpa [entries, WellFormed] using h
  | file text? => simp [entries, WellFormedEach]
  | link target => simp [entries, WellFormedEach]

theorem wellFormed_of_lookup {name : String} {below : Entry} {entries : List (String × Entry)}
    (h : WellFormedEach entries) (hlookup : entries.lookup name = some below) : below.WellFormed := by
  induction entries with
  | nil => cases hlookup
  | cons first rest ih =>
    obtain ⟨-, -, hfirst, hrest⟩ := h
    rw [List.lookup_cons] at hlookup
    split at hlookup
    · cases hlookup
      exact hfirst
    · exact ih hrest hlookup

theorem ne_of_mem_setEntry {name avoided : String} {entry : Entry} {entries : List (String × Entry)}
    (hname : name ≠ avoided) (h : ∀ other ∈ entries, other.1 ≠ avoided) :
    ∀ other ∈ setEntry name entry entries, other.1 ≠ avoided := by
  induction entries with
  | nil => simpa [setEntry] using hname
  | cons first rest ih =>
    obtain ⟨hfirst, hrest⟩ := List.forall_mem_cons.1 h
    rw [setEntry]
    split
    · exact List.forall_mem_cons.2 ⟨hname, hrest⟩
    · exact List.forall_mem_cons.2 ⟨hfirst, ih hrest⟩

theorem wellFormedEach_setEntry {name : String} {entry : Entry} {entries : List (String × Entry)}
    (hname : isName name = true) (hentry : entry.WellFormed) (h : WellFormedEach entries) :
    WellFormedEach (setEntry name entry entries) := by
  induction entries with
  | nil => exact ⟨hname, by simp, hentry, trivial⟩
  | cons first rest ih =>
    obtain ⟨hfirst, hother, hbelow, hrest⟩ := h
    rw [setEntry]
    split
    · next hsame =>
      rw [beq_iff_eq.1 hsame] at hother
      exact ⟨hname, hother, hentry, hrest⟩
    · next hdiffers =>
      have hne : name ≠ first.1 := fun hsame => hdiffers (beq_iff_eq.2 hsame.symm)
      exact ⟨hfirst, ne_of_mem_setEntry hne hother, hbelow, ih hrest⟩

theorem wellFormed_put {entry new : Entry} {place : Place} (hplace : ∀ name ∈ place, isName name = true)
    (hnew : new.WellFormed) (h : entry.WellFormed) : (entry.put new place).WellFormed := by
  induction place generalizing entry with
  | nil => exact hnew
  | cons name rest ih =>
    obtain ⟨hname, hrest⟩ := List.forall_mem_cons.1 hplace
    have hentries := wellFormedEach_entries h
    refine wellFormedEach_setEntry hname (ih hrest ?_) hentries
    cases hlookup : entry.entries.lookup name with
    | none => exact (trivial : WellFormedEach [])
    | some below => exact wellFormed_of_lookup hentries hlookup

theorem wellFormedEach_filter {keep : String × Entry → Bool} {entries : List (String × Entry)}
    (h : WellFormedEach entries) : WellFormedEach (entries.filter keep) := by
  induction entries with
  | nil => exact h
  | cons first rest ih =>
    obtain ⟨hfirst, hother, hbelow, hrest⟩ := h
    rw [List.filter_cons]
    split
    · exact ⟨hfirst, fun other hmem => hother other (List.mem_filter.1 hmem).1, hbelow, ih hrest⟩
    · exact ih hrest

theorem isName_of_lookup {name : String} {below : Entry} {entries : List (String × Entry)}
    (h : WellFormedEach entries) (hlookup : entries.lookup name = some below) :
    isName name = true := by
  induction entries with
  | nil => cases hlookup
  | cons first rest ih =>
    obtain ⟨hfirst, -, -, hrest⟩ := h
    rw [List.lookup_cons] at hlookup
    split at hlookup
    · next hsame => exact beq_iff_eq.1 hsame ▸ hfirst
    · exact ih hrest hlookup

theorem wellFormed_erase {entry : Entry} {place : Place} (h : entry.WellFormed) :
    (entry.erase place).WellFormed := by
  fun_induction erase entry place with
  | case1 entry => exact h
  | case2 entry name => exact wellFormedEach_filter (wellFormedEach_entries h)
  | case3 entry name rest hrest below hlookup ih =>
    have hentries := wellFormedEach_entries h
    exact wellFormedEach_setEntry (isName_of_lookup hentries hlookup)
      (ih (wellFormed_of_lookup hentries hlookup)) hentries
  | case4 entry name rest hrest hlookup => exact h

end Entry

namespace FileTree

/-- A tree with a new entry at a place, if there is one and its names are names that entries may bear. -/
def putAt (tree : FileTree) (place? : Option Place) (new : Entry) (hnew : new.WellFormed) :
    FileTree :=
  match place? with
  | some place =>
    if hplace : ∀ name ∈ place, isName name = true then
      { tree with
        root := tree.root.put new place
        wellFormed := Entry.wellFormed_put hplace hnew tree.wellFormed }
    else tree
  | none => tree

/-- The tree that holds nothing but its working directory. -/
def bare (working : Place) : FileTree :=
  let rootOnly : FileTree := { root := .directory [], working, wellFormed := trivial }
  rootOnly.putAt (some working) (.directory []) trivial

instance : Inhabited FileTree := ⟨bare []⟩

/-- Where a look-up arrives once what it misses has been made. -/
def Stretch.landing? : Stretch → Option Place
  | .arrived place => some place
  | .missing place name rest => some (place ++ name :: rest.filter fun part => !isStay part)
  | _ => none

/-- The place at which the last part of a path is to stand. -/
def seat? (tree : FileTree) (path : String) : Option Place := do
  let place ← (tree.lookUp path (parts path).dropLast).landing?
  return place ++ [← (parts path).getLast?]

/-- A tree in which a path leads to a file with a given content. -/
def write (tree : FileTree) (path : String) (text? : Option String) : FileTree :=
  tree.putAt (tree.lookUp path (parts path)).landing? (.file text?) trivial

def makeDirectory (tree : FileTree) (path : String) : FileTree :=
  if tree.isDirectory path then tree
  else tree.putAt (tree.lookUp path (parts path)).landing? (.directory []) trivial

def makeLink (tree : FileTree) (path target : String) : FileTree :=
  tree.putAt (tree.seat? path) (.link target) trivial

def remove (tree : FileTree) (path : String) : FileTree :=
  match tree.seat? path with
  | some place =>
    { tree with root := tree.root.erase place, wellFormed := Entry.wellFormed_erase tree.wellFormed }
  | none => tree

end FileTree

end JavaAtlas
