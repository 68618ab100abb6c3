import JavaAtlas.Proofs.Graph.Growth
import JavaAtlas.Proofs.OrderedSet

/-!
# What a graph tells of its history

The places of nodes and edges depend on the order of the observations. By their names a graph tells what was
observed and no more: an edge joins two different names exactly if some observation said so, and a name has the
role in which it was first mentioned, unless a class of this name was analysed at some time. Each change of a graph
is looked at once for what it does to the roles and links of names; the run over the observations follows.
-/

namespace JavaAtlas

/-! ### What an observation says -/

namespace Observation

/-- The role in which an observation mentions a name: as its class, else as the package of its class, else as a
type that its class depends on. -/
def mention? (observation : Observation) (name : String) : Option NodeRole :=
  if observation.className = name then some .analysed
  else if packageOf observation.className = name then some .package
  else if name ∈ observation.targets.map Prod.fst then some .external
  else none

/-- What an observation says of two names: that its class stands in its package, and what its class depends on. -/
def Says (observation : Observation) (source target : String) : EdgeLabel → Prop
  | .contains => source = packageOf observation.className ∧ target = observation.className
  | .dependsOn kind? => source = observation.className ∧ (target, kind?) ∈ observation.targets

end Observation

namespace Graph

open Observation (packageOf)

section Mentions

variable {observations : List Observation} {observation : Observation} {name : String}

def Analysed (observations : List Observation) (name : String) : Prop :=
  ∃ observation ∈ observations, observation.className = name

/-- A class in a package of this name was analysed. -/
def Packages (observations : List Observation) (name : String) : Prop :=
  ∃ observation ∈ observations, packageOf observation.className = name

/-- Some class depends on a type of this name. -/
def Targets (observations : List Observation) (name : String) : Prop :=
  ∃ observation ∈ observations, name ∈ observation.targets.map Prod.fst

instance : Decidable (Analysed observations name) :=
  inferInstanceAs (Decidable (∃ observation ∈ observations, observation.className = name))

instance : Decidable (Packages observations name) :=
  inferInstanceAs (Decidable (∃ observation ∈ observations, packageOf observation.className = name))

instance : Decidable (Targets observations name) :=
  inferInstanceAs (Decidable (∃ observation ∈ observations, name ∈ observation.targets.map Prod.fst))

theorem analysed_cons : Analysed (observation :: observations) name ↔
    observation.className = name ∨ Analysed observations name :=
  List.exists_mem_cons_iff ..

theorem packages_cons : Packages (observation :: observations) name ↔
    packageOf observation.className = name ∨ Packages observations name :=
  List.exists_mem_cons_iff ..

theorem targets_cons : Targets (observation :: observations) name ↔
    name ∈ observation.targets.map Prod.fst ∨ Targets observations name :=
  List.exists_mem_cons_iff ..

end Mentions

variable {graph : Graph} {name other className source target : String} {role : NodeRole} {label : EdgeLabel}
  {place : Nat} {edge : Edge}

/-! ### Roles of names -/

def role? (graph : Graph) (name : String) : Option NodeRole :=
  (graph.node? name).map GraphNode.role

theorem role?_eq (graph : Graph) (name : String) : graph.role? name = (graph.place? name).bind graph.roleAt? := by
  rw [role?, node?, Option.map_bind]
  rfl

theorem Consistent.isSome_role? (h : graph.Consistent) (hplace : graph.place? name = some place) :
    (graph.role? name).isSome := by
  obtain ⟨role, hnode⟩ := nameAt?_eq_some_iff.1 ((h.place?_iff name place).1 hplace)
  rw [role?_eq, hplace, Option.bind_some, roleAt?, hnode]
  rfl

theorem Consistent.mem_names_iff (h : graph.Consistent) :
    name ∈ graph.nodes.map GraphNode.name ↔ (graph.role? name).isSome := by
  constructor
  · intro hmem
    obtain ⟨node, hnode, rfl⟩ := List.mem_map.1 hmem
    obtain ⟨place, hplace⟩ := List.getElem?_of_mem hnode
    exact h.isSome_role? ((h.place?_iff node.name place).2 (nameAt?_eq_some_iff.2 ⟨node.role, hplace⟩))
  · intro hrole
    rw [role?_eq, Option.isSome_bind] at hrole
    obtain ⟨place, hplace⟩ := Option.isSome_iff_exists.1 (Option.isSome_of_any hrole)
    obtain ⟨role, hnode⟩ := nameAt?_eq_some_iff.1 ((h.place?_iff name place).1 hplace)
    exact List.mem_map_of_mem (f := GraphNode.name) (List.mem_of_getElem? hnode)

theorem Consistent.role?_withNode (h : graph.Consistent) (hname : graph.place? name = none) (other : String) :
    (graph.withNode name role).role? other = (graph.role? other).or (if name = other then some role else none) := by
  rw [role?_eq, role?_eq, place?_withNode]
  by_cases hother : other = name
  · subst hother
    rw [if_pos rfl, if_pos rfl, hname, Option.bind_some, roleAt?, nodes_withNode_length]
    rfl
  · rw [if_neg hother, if_neg (Ne.symm hother), Option.or_none]
    cases hplace : graph.place? other with
    | none => rfl
    | some place =>
      rw [Option.bind_some, Option.bind_some, roleAt?, nodes_withNode (Nat.ne_of_lt (h.lt_length hplace)), roleAt?]

theorem Consistent.role?_placed (h : graph.Consistent) (name : String) (role : NodeRole) (other : String) :
    (graph.placed name role).2.role? other = (graph.role? other).or (if name = other then some role else none) := by
  obtain ⟨place, hplace, heq⟩ | ⟨hname, heq⟩ := placed_cases graph name role
  · rw [heq]
    by_cases hother : name = other
    · subst hother
      exact (Option.or_of_isSome (h.isSome_role? hplace)).symm
    · rw [if_neg hother, Option.or_none]
  · rw [heq]
    exact h.role?_withNode hname other

theorem place?_markAnalysed (graph : Graph) (place : Nat) (name : String) :
    (graph.markAnalysed place).place? name = graph.place? name := rfl

theorem Consistent.role?_markAnalysed (h : graph.Consistent) (hplace : graph.place? name = some place)
    (other : String) :
    (graph.markAnalysed place).role? other = if name = other then some .analysed else graph.role? other := by
  rw [role?_eq, place?_markAnalysed]
  by_cases hother : name = other
  · subst hother
    rw [if_pos rfl, hplace, Option.bind_some, roleAt?, h.nodes_markAnalysed hplace]
    rfl
  · rw [if_neg hother, role?_eq]
    cases hfound : graph.place? other with
    | none => rfl
    | some found =>
      have hplaces : place ≠ found := by
        rintro rfl
        have hname := ((h.place?_iff name place).1 hplace).symm.trans ((h.place?_iff other place).1 hfound)
        exact hother (Option.some.inj hname)
      rw [Option.bind_some, Option.bind_some, roleAt?, Graph.nodes_markAnalysed, if_neg hplaces, roleAt?]

theorem role?_withEdge (graph : Graph) (edge : Edge) (name : String) :
    (graph.withEdge edge).role? name = graph.role? name := by
  rw [role?, role?, node?, node?, place?_withEdge, nodes_withEdge]

theorem Consistent.role?_withClass (h : graph.Consistent) (className name : String) :
    (graph.withClass className).2.role? name = if className = name then some .analysed
      else (graph.role? name).or (if packageOf className = name then some .package else none) := by
  have hpackage := h.placed (packageOf className) .package
  have htype := hpackage.placed className .analysed
  rw [withClass]
  dsimp only
  rw [role?_withEdge, htype.role?_markAnalysed (place?_placed _ className .analysed), hpackage.role?_placed,
    h.role?_placed]
  by_cases hname : className = name
  · rw [if_pos hname, if_pos hname]
  · rw [if_neg hname, if_neg hname, if_neg hname, Option.or_none]

theorem Consistent.role?_withTarget (h : graph.Consistent) (source : Nat)
    (target : String × Option DependencyKind) (name : String) : (withTarget source graph target).role? name =
      (graph.role? name).or (if target.1 = name then some .external else none) := by
  rw [Graph.withTarget, role?_withEdge, h.role?_placed]

/-! ### Links between names -/

/-- An edge with a label leads from the node with one name to that with another. -/
def Links (graph : Graph) (source target : String) (label : EdgeLabel) : Prop :=
  ∃ edge ∈ graph.edges, graph.nameAt? edge.source = some source ∧ graph.nameAt? edge.target = some target ∧
    edge.label = label

theorem nameAt?_withNode (hplace : place < graph.nodes.length) :
    (graph.withNode name role).nameAt? place = graph.nameAt? place := by
  rw [nameAt?, nodes_withNode (Nat.ne_of_lt hplace), nameAt?]

theorem nameAt?_withEdge (graph : Graph) (edge : Edge) (place : Nat) :
    (graph.withEdge edge).nameAt? place = graph.nameAt? place := by
  rw [nameAt?, nodes_withEdge, nameAt?]

theorem Consistent.links_withNode (h : graph.Consistent) :
    (graph.withNode name role).Links source target label ↔ graph.Links source target label := by
  refine exists_congr fun edge => and_congr_right fun hedge => ?_
  obtain ⟨hsource, htarget⟩ := h.ends hedge
  rw [nameAt?_withNode hsource, nameAt?_withNode htarget]

theorem Consistent.links_placed (h : graph.Consistent) (name : String) (role : NodeRole) :
    (graph.placed name role).2.Links source target label ↔ graph.Links source target label := by
  obtain ⟨place, -, heq⟩ | ⟨-, heq⟩ := placed_cases graph name role
  · rw [heq]
  · rw [heq]
    exact h.links_withNode

theorem links_markAnalysed : (graph.markAnalysed place).Links source target label ↔ graph.Links source target label := by
  refine exists_congr fun edge => and_congr_right fun _ => ?_
  rw [nameAt?_markAnalysed, nameAt?_markAnalysed]

theorem Consistent.links_withEdge {first second : String} (h : graph.Consistent)
    (hfirst : graph.place? first = some edge.source) (hsecond : graph.place? second = some edge.target) :
    (graph.withEdge edge).Links source target label ↔
      graph.Links source target label ∨ source ≠ target ∧ source = first ∧ target = second ∧ label = edge.label := by
  have hsource := (h.place?_iff _ _).1 hfirst
  have htarget := (h.place?_iff _ _).1 hsecond
  have hloop : edge.source = edge.target ↔ first = second := by
    constructor
    · intro hends
      exact Option.some.inj ((hends ▸ hsource).symm.trans htarget)
    · rintro rfl
      exact Option.some.inj (hfirst.symm.trans hsecond)
  constructor
  · rintro ⟨drawn, hdrawn, hfrom, hto, rfl⟩
    rw [nameAt?_withEdge] at hfrom hto
    obtain hold | ⟨rfl, hends⟩ := (mem_edges_withEdge graph edge).1 hdrawn
    · exact .inl ⟨drawn, hold, hfrom, hto, rfl⟩
    · cases hfrom.symm.trans hsource
      cases hto.symm.trans htarget
      exact .inr ⟨fun heq => hends (hloop.2 heq), rfl, rfl, rfl⟩
  · rintro (⟨drawn, hdrawn, hfrom, hto, rfl⟩ | ⟨hne, rfl, rfl, rfl⟩)
    · exact ⟨drawn, (mem_edges_withEdge graph edge).2 (.inl hdrawn), (nameAt?_withEdge ..).trans hfrom,
        (nameAt?_withEdge ..).trans hto, rfl⟩
    · exact ⟨edge, (mem_edges_withEdge graph edge).2 (.inr ⟨rfl, fun heq => hne (hloop.1 heq)⟩),
        (nameAt?_withEdge ..).trans hsource, (nameAt?_withEdge ..).trans htarget, rfl⟩

theorem Consistent.links_withClass (h : graph.Consistent) (className : String) :
    (graph.withClass className).2.Links source target label ↔ graph.Links source target label ∨
      source ≠ target ∧ source = packageOf className ∧ target = className ∧ label = .contains := by
  have hpackage := h.placed (packageOf className) .package
  have htype := hpackage.placed className .analysed
  have hsource := (extends_placed _ className .analysed).place (place?_placed graph (packageOf className) .package)
  have htarget := place?_placed (graph.placed (packageOf className) .package).2 className .analysed
  rw [← place?_markAnalysed] at hsource htarget
  rw [withClass]
  dsimp only
  rw [(htype.markAnalysed _).links_withEdge hsource htarget, links_markAnalysed, hpackage.links_placed, h.links_placed]

theorem Consistent.links_withTarget (h : graph.Consistent) {type : String × Option DependencyKind}
    (hplace : graph.place? className = some place) : (withTarget place graph type).Links source target label ↔
      graph.Links source target label ∨
        source ≠ target ∧ source = className ∧ target = type.1 ∧ label = .dependsOn type.2 := by
  have htype := h.placed type.1 .external
  have hsource := (extends_placed graph type.1 .external).place hplace
  rw [Graph.withTarget, htype.links_withEdge hsource (place?_placed _ type.1 .external), h.links_placed]

/-! ### One observation -/

/-- What the types that a class depends on do to a graph in which the class has a place. -/
theorem Sound.foldl_withTarget_tells (types : List (String × Option DependencyKind)) {graph : Graph}
    (h : graph.Sound) (hclass : graph.nodes[place]? = some ⟨className, .analysed⟩) :
    (∀ name, (types.foldl (Graph.withTarget place) graph).role? name =
      (graph.role? name).or (if name ∈ types.map Prod.fst then some .external else none)) ∧
    ∀ source target label, (types.foldl (Graph.withTarget place) graph).Links source target label ↔
      graph.Links source target label ∨ source ≠ target ∧ source = className ∧
        ∃ kind?, label = .dependsOn kind? ∧ (target, kind?) ∈ types := by
  induction types generalizing graph with
  | nil => simp
  | cons type rest ih =>
    obtain ⟨hnext, hkept⟩ := h.withTarget hclass type
    obtain ⟨hroles, hlinks⟩ := ih hnext hkept
    have hplace := (h.place?_iff className place).2 (nameAt?_eq_some_iff.2 ⟨_, hclass⟩)
    constructor
    · intro name
      rw [List.foldl_cons, hroles, h.role?_withTarget, Option.or_assoc, List.map_cons]
      congr 1
      by_cases hname : type.1 = name
      · rw [if_pos hname, if_pos (List.mem_cons.2 (.inl hname.symm))]
        rfl
      · rw [if_neg hname, Option.none_or]
        exact if_congr ((List.mem_cons.trans (or_iff_right (Ne.symm hname))).symm) rfl rfl
    · intro source target label
      rw [List.foldl_cons, hlinks, h.links_withTarget hplace, or_assoc]
      refine or_congr_right ?_
      rw [← and_or_left, ← and_or_left]
      refine and_congr_right fun _ => and_congr_right fun _ => ?_
      constructor
      · rintro (⟨rfl, rfl⟩ | ⟨kind?, rfl, hmem⟩)
        · exact ⟨type.2, rfl, List.mem_cons_self⟩
        · exact ⟨kind?, rfl, List.mem_cons_of_mem _ hmem⟩
      · rintro ⟨kind?, rfl, hmem⟩
        obtain rfl | hmem := List.mem_cons.1 hmem
        · exact .inl ⟨rfl, rfl⟩
        · exact .inr ⟨kind?, rfl, hmem⟩

/-- An observation decides the role of its class; of any other name, only if the name is new. -/
theorem Sound.role?_add (h : graph.Sound) (observation : Observation) (name : String) :
    (graph.add observation).role? name = if observation.className = name then some .analysed
      else (graph.role? name).or (observation.mention? name) := by
  obtain ⟨hclass, hnode⟩ := h.withClass observation.className
  rw [Graph.add, (hclass.foldl_withTarget_tells observation.targets hnode).1, h.role?_withClass, Observation.mention?]
  by_cases hname : observation.className = name
  · rw [if_pos hname, if_pos hname]
    rfl
  · rw [if_neg hname, if_neg hname, if_neg hname, Option.or_assoc]
    congr 1
    by_cases hpackage : packageOf observation.className = name
    · rw [if_pos hpackage, if_pos hpackage]
      rfl
    · rw [if_neg hpackage, if_neg hpackage, Option.none_or]

/-- An observation links the names of which it says something, and no others. -/
theorem Sound.links_add (h : graph.Sound) (observation : Observation) :
    (graph.add observation).Links source target label ↔
      graph.Links source target label ∨ source ≠ target ∧ observation.Says source target label := by
  obtain ⟨hclass, hnode⟩ := h.withClass observation.className
  rw [Graph.add, (hclass.foldl_withTarget_tells observation.targets hnode).2, h.links_withClass, or_assoc, ← and_or_left]
  refine or_congr_right (and_congr_right fun _ => ?_)
  cases label with
  | contains => simp [Observation.Says]
  | dependsOn kind? => simp [Observation.Says]

/-! ### All observations -/

theorem role?_foldl_add (observations : List Observation) (name : String) {graph : Graph} (h : graph.Sound) :
    (observations.foldl add graph).role? name =
      if Analysed observations name then some .analysed
      else (graph.role? name).or (observations.findSome? fun observation => observation.mention? name) := by
  induction observations generalizing graph with
  | nil =>
    rw [if_neg fun ⟨_, hnone, _⟩ => List.not_mem_nil hnone, List.findSome?_nil, Option.or_none]
    rfl
  | cons observation rest ih =>
    rw [List.foldl_cons, ih (h.add observation), h.role?_add, if_congr analysed_cons rfl rfl]
    by_cases hrest : Analysed rest name
    · rw [if_pos hrest, if_pos (.inr hrest)]
    · rw [if_neg hrest, if_congr (or_iff_left hrest) rfl rfl]
      by_cases hclass : observation.className = name
      · rw [if_pos hclass, if_pos hclass]
        rfl
      · rw [if_neg hclass, if_neg hclass, Option.or_assoc, List.findSome?_cons]
        cases observation.mention? name <;> rfl

/-- **The role of a name**: that of an analysed class if a class of this name was ever analysed, else that in which
the name was first mentioned. -/
theorem role?_ofObservations (observations : List Observation) (name : String) :
    (ofObservations observations).role? name =
      if Analysed observations name then some .analysed
      else observations.findSome? fun observation => observation.mention? name :=
  role?_foldl_add observations name sound_empty

theorem links_foldl_add (observations : List Observation) {graph : Graph} (h : graph.Sound) :
    (observations.foldl add graph).Links source target label ↔ graph.Links source target label ∨
      source ≠ target ∧ ∃ observation ∈ observations, observation.Says source target label := by
  induction observations generalizing graph with
  | nil => simp
  | cons observation rest ih =>
    rw [List.foldl_cons, ih (h.add observation), h.links_add, or_assoc, ← and_or_left]
    simp only [List.mem_cons, exists_eq_or_imp]

/-- **The links of a graph** are what the observations say of two different names. -/
theorem links_ofObservations_iff {observations : List Observation} :
    (ofObservations observations).Links source target label ↔
      source ≠ target ∧ ∃ observation ∈ observations, observation.Says source target label := by
  rw [ofObservations, links_foldl_add observations sound_empty]
  refine or_iff_right ?_
  rintro ⟨edge, hedge, -⟩
  exact absurd hedge List.not_mem_nil

theorem consistent_ofObservations (observations : List Observation) : (ofObservations observations).Consistent :=
  (sound_foldl_add observations sound_empty).toConsistent

end Graph

end JavaAtlas
