import JavaAtlas.Proofs.SourceUnit.Alike
import JavaAtlas.Proofs.SourceUnit.Names

/-!
# Units on other lines

A unit all of whose lines are changed by one function, and nothing else. Two sources whose tokens agree in spelling
but stand on other lines are read as such units, or neither is read.
-/

namespace JavaAtlas

variable {f g : Line → Line}

namespace WrittenType

def relined (f : Line → Line) : WrittenType → WrittenType
  | .reference written line name => .reference written (f line) name
  | .primitive written line => .primitive written (f line)
  | .void written line => .void written (f line)
  | .array written line element => .array written (f line) (element.relined f)
  | .other written line => .other written (f line)

/-- The lines that are recorded for a type: its own, and for an array those of its elements. -/
def lines : WrittenType → List Line
  | .array _ line element => line :: element.lines
  | .reference _ line _ | .primitive _ line | .void _ line | .other _ line => [line]

theorem relined_congr {type : WrittenType} (h : ∀ line ∈ type.lines, f line = g line) :
    type.relined f = type.relined g := by
  induction type with
  | array written line element ih =>
    rw [lines, List.forall_mem_cons] at h
    rw [relined, relined, h.1, ih h.2]
  | _ => simp_all [relined, lines]

@[simp] theorem relined_id (type : WrittenType) : type.relined id = type := by
  induction type with
  | array written line element ih => rw [relined, ih, id]
  | _ => rfl

end WrittenType

def Import.relined (f : Line → Line) (item : Import) : Import :=
  { item with line := f item.line }

def Parameter.relined (f : Line → Line) (parameter : Parameter) : Parameter :=
  { parameter with type := parameter.type.relined f }

def TypeHeader.relined (f : Line → Line) (header : TypeHeader) : TypeHeader :=
  { header with
    extended := header.extended.map (WrittenType.relined f)
    implemented := header.implemented.map (WrittenType.relined f)
    line := f header.line }

namespace Head

def relined (f : Line → Line) : Head → Head
  | .type header => .type (header.relined f)
  | .field declared names line => .field (declared.relined f) names (f line)
  | .method name result parameters line =>
    .method name (result.relined f) (parameters.map (Parameter.relined f)) (f line)
  | .constructor name parameters line => .constructor name (parameters.map (Parameter.relined f)) (f line)
  | .creation created line => .creation (created.relined f) (f line)

/-- The types that a node shows: supertypes, the type of a field, of a result, of parameters, of what is created. -/
def types : Head → List WrittenType
  | .type header => header.extended ++ header.implemented
  | .field declared _ _ => [declared]
  | .method _ result parameters _ => result :: parameters.map Parameter.type
  | .constructor _ parameters _ => parameters.map Parameter.type
  | .creation created _ => [created]

end Head

namespace Node

mutual

def relined (f : Line → Line) : Node → Node
  | .package name line => .package name (f line)
  | .imported item => .imported (item.relined f)
  | .branch head below => .branch (head.relined f) (relinedAll f below)

def relinedAll (f : Line → Line) : List Node → List Node
  | [] => []
  | node :: rest => relined f node :: relinedAll f rest

end

def types : Node → List WrittenType
  | .branch head _ => head.types
  | _ => []

/-- The lines that are recorded at a node, apart from those of the nodes below it. -/
def lines (node : Node) : List Line :=
  node.line :: node.types.flatMap WrittenType.lines

theorem relinedAll_eq_map (f : Line → Line) (nodes : List Node) : relinedAll f nodes = nodes.map (relined f) := by
  induction nodes with
  | nil => rfl
  | cons node rest ih => rw [relinedAll, ih, List.map_cons]

end Node

namespace SourceUnit

def relined (f : Line → Line) (unit : SourceUnit) : SourceUnit :=
  ⟨unit.nodes.map (Node.relined f)⟩

end SourceUnit

/-! ### Changes that come to the same -/

theorem Head.relined_congr {head : Head} (hline : f head.line = g head.line)
    (htypes : ∀ type ∈ head.types, ∀ line ∈ type.lines, f line = g line) : head.relined f = head.relined g := by
  have hparameters (parameters : List Parameter)
      (h : ∀ type ∈ parameters.map Parameter.type, ∀ line ∈ type.lines, f line = g line) :
      parameters.map (Parameter.relined f) = parameters.map (Parameter.relined g) := by
    apply List.map_congr_left
    intro parameter hmem
    rw [Parameter.relined, Parameter.relined, WrittenType.relined_congr (h _ (List.mem_map_of_mem hmem))]
  cases head with
  | type header =>
    have hall (types : List WrittenType) (h : ∀ type ∈ types, ∀ line ∈ type.lines, f line = g line) :
        types.map (WrittenType.relined f) = types.map (WrittenType.relined g) :=
      List.map_congr_left fun type hmem => WrittenType.relined_congr (h type hmem)
    have hextended := hall header.extended fun type hmem => htypes type (List.mem_append_left _ hmem)
    have himplemented := hall header.implemented fun type hmem => htypes type (List.mem_append_right _ hmem)
    simp only [relined, TypeHeader.relined, hextended, himplemented, show f header.line = g header.line from hline]
  | field type names line =>
    rw [relined, relined, WrittenType.relined_congr (htypes type List.mem_cons_self),
      show f line = g line from hline]
  | method name result parameters line =>
    rw [types, List.forall_mem_cons] at htypes
    rw [relined, relined, WrittenType.relined_congr htypes.1, hparameters parameters htypes.2,
      show f line = g line from hline]
  | constructor name parameters line =>
    rw [relined, relined, hparameters parameters htypes, show f line = g line from hline]
  | creation type line =>
    rw [relined, relined, WrittenType.relined_congr (htypes type List.mem_cons_self),
      show f line = g line from hline]

theorem Node.relined_congr {node : Node} (h : ∀ inner ∈ node.walk, ∀ line ∈ inner.lines, f line = g line) :
    node.relined f = node.relined g := by
  induction node using Node.induction with
  | step node ih =>
    have hself := h node (Node.mem_walk.2 (Or.inl rfl))
    rw [lines, List.forall_mem_cons] at hself
    cases node with
    | package name line => rw [relined, relined, show f line = g line from hself.1]
    | imported item => rw [relined, relined, Import.relined, Import.relined, show f item.line = g item.line from hself.1]
    | branch head below =>
      have hhead : head.relined f = head.relined g := by
        refine Head.relined_congr hself.1 ?_
        exact fun type htype line hline => hself.2 line (List.mem_flatMap.2 ⟨type, htype, hline⟩)
      have hbelow : below.map (relined f) = below.map (relined g) := by
        apply List.map_congr_left
        intro child hchild
        apply ih child hchild
        exact fun inner hinner => h inner (Node.mem_walk.2 (Or.inr ⟨child, hchild, hinner⟩))
      rw [relined, relined, relinedAll_eq_map, relinedAll_eq_map, hhead, hbelow]

/-- Only what happens to the recorded lines counts. -/
theorem SourceUnit.relined_congr {unit : SourceUnit} (h : ∀ node ∈ unit.walk, ∀ line ∈ node.lines, f line = g line) :
    unit.relined f = unit.relined g := by
  rw [relined, relined, SourceUnit.mk.injEq]
  apply List.map_congr_left
  intro node hnode
  apply Node.relined_congr
  exact fun inner hinner => h inner (Node.mem_walkAll.2 ⟨node, hnode, hinner⟩)

/-! ### Identity -/

theorem Head.relined_id (head : Head) : head.relined id = head := by
  have htypes : WrittenType.relined id = id := funext WrittenType.relined_id
  have hparameters : Parameter.relined id = id := by
    funext parameter
    rw [Parameter.relined, WrittenType.relined_id]
    rfl
  cases head <;> simp [relined, TypeHeader.relined, htypes, hparameters]

theorem Node.relined_id (node : Node) : node.relined id = node := by
  induction node using Node.induction with
  | step node ih =>
    cases node with
    | package name line => rfl
    | imported item => rfl
    | branch head below =>
      have hbelow : below.map (relined id) = below.map id := List.map_congr_left ih
      rw [relined, relinedAll_eq_map, Head.relined_id, hbelow, List.map_id]

theorem SourceUnit.relined_id (unit : SourceUnit) : unit.relined id = unit := by
  rw [relined, funext Node.relined_id]
  exact congrArg SourceUnit.mk (List.map_id _)

/-! ### Units that differ in their lines -/

/-- The same texts and headers, and lines that are changed by a function. -/
def Likeness.relined (f : Line → Line) : Likeness where
  line line start := start = f line
  text written text := text = written
  header name other := other = name

theorem WrittenType.Alike.eq_relined {type other : WrittenType} (h : type.Alike (.relined f) other) :
    other = type.relined f := by
  induction h with
  | reference htext hline hname => rw [relined, hname, show _ = _ from htext, show _ = _ from hline]
  | primitive htext hline => rw [relined, show _ = _ from htext, show _ = _ from hline]
  | void htext hline => rw [relined, show _ = _ from htext, show _ = _ from hline]
  | array htext hline helement ih => rw [relined, ih, show _ = _ from htext, show _ = _ from hline]
  | other htext hline => rw [relined, show _ = _ from htext, show _ = _ from hline]

/-- A list of which every item is made from its partner is the other list, item for item. -/
theorem eq_map_of_forall₂ {α β : Type} {R : α → β → Prop} {g : α → β} {items : List α} {others : List β}
    (h : List.Forall₂ R items others) (hmade : ∀ item ∈ items, ∀ other, R item other → other = g item) :
    others = items.map g := by
  induction h with
  | nil => rfl
  | cons hhead htail ih =>
    obtain ⟨hfirst, hrest⟩ := List.forall_mem_cons.1 hmade
    rw [List.map_cons, ih hrest, hfirst _ hhead]

theorem Import.Alike.eq_relined {item other : Import} (h : item.Alike (.relined f) other) :
    other = item.relined f := by
  obtain ⟨hname, hstatic, hwildcard, hline⟩ := h
  cases other
  cases hname
  cases hstatic
  cases hwildcard
  cases hline
  rfl

theorem Parameter.Alike.eq_relined {parameter other : Parameter} (h : parameter.Alike (.relined f) other) :
    other = parameter.relined f := by
  obtain ⟨hname, htype⟩ := h
  cases other
  cases hname
  cases htype.eq_relined
  rfl

theorem TypeHeader.Alike.eq_relined {header other : TypeHeader} (h : header.Alike (.relined f) other) :
    other = header.relined f := by
  obtain ⟨hname, hkind, hnested, hextended, himplemented, hline⟩ := h
  cases other
  cases hname
  cases hkind
  cases hnested
  cases hline
  cases eq_map_of_forall₂ hextended fun _ _ _ => WrittenType.Alike.eq_relined
  cases eq_map_of_forall₂ himplemented fun _ _ _ => WrittenType.Alike.eq_relined
  rfl

theorem Head.Alike.eq_relined {head other : Head} (h : head.Alike (.relined f) other) :
    other = head.relined f := by
  cases h with
  | type hheader => rw [relined, hheader.eq_relined]
  | field htype hnames hline => rw [relined, htype.eq_relined, hnames, show _ = _ from hline]
  | method hname hresult hparameters hline =>
    rw [relined, hname, hresult.eq_relined, show _ = _ from hline,
      eq_map_of_forall₂ hparameters fun _ _ _ => Parameter.Alike.eq_relined]
  | constructor hname hparameters hline =>
    rw [relined, hname, show _ = _ from hline,
      eq_map_of_forall₂ hparameters fun _ _ _ => Parameter.Alike.eq_relined]
  | creation htype hline => rw [relined, htype.eq_relined, show _ = _ from hline]

theorem Node.Alike.eq_relined (node : Node) : ∀ other, node.Alike (.relined f) other → other = node.relined f := by
  induction node using Node.induction with
  | step node ih =>
    intro other h
    cases h with
    | package hname hline => rw [relined, show _ = _ from hname, show _ = _ from hline]
    | imported hitem => rw [relined, hitem.eq_relined]
    | branch hhead hbelow => rw [relined, relinedAll_eq_map, hhead.eq_relined, eq_map_of_forall₂ hbelow ih]

/-- **A unit that differs from another in its lines only is that unit on other lines.** -/
theorem SourceUnit.Alike.eq_relined {unit other : SourceUnit} (h : unit.Alike (.relined f) other) :
    other = unit.relined f := by
  rw [relined, ← eq_map_of_forall₂ h fun node _ => Node.Alike.eq_relined node]

/-! ### Sources with related tokens -/

namespace SourceUnit

open JavaAtlas.Syntax ParseTree

variable {R : Token → Token → Prop} {L : Likeness} {source other : String}

def trees? (source : String) : Option (List JavaTree) :=
  (scan source.toList).bind javaGrammar.parse?

theorem trees?_eq_some_iff {trees : List JavaTree} :
    trees? source = some trees ↔
      ∃ tokens, scan source.toList = some tokens ∧ javaGrammar.parse? tokens = some trees :=
  Option.bind_eq_some_iff

theorem parse?_eq_map_trees? (source : String) : parse? source = (trees? source).map ofTrees := by
  rw [parse?, trees?]
  cases scan source.toList with
  | none => rfl
  | some tokens =>
    rw [Option.bind_eq_bind, Option.bind_some, Option.bind_some]
    cases javaGrammar.parse? tokens <;> rfl

theorem trees?_alike (hR : Indistinct R)
    (h : Option.Rel (List.Forall₂ R) (scan source.toList) (scan other.toList)) :
    Option.Rel (List.Forall₂ (ParseTree.Alike R fun _ _ _ => True)) (trees? source) (trees? other) := by
  unfold trees?
  generalize scan source.toList = ours at h ⊢
  generalize scan other.toList = theirs at h ⊢
  cases h with
  | none => exact .none
  | some htokens => exact javaGrammar.parse?_alike hR htokens

/-- What holds between trees of two sources can be replaced by what follows from it. -/
theorem rel_of_rel {S T : List JavaTree → List JavaTree → Prop} (h : Option.Rel S (trees? source) (trees? other))
    (himp : ∀ trees others, trees? source = some trees → S trees others → T trees others) :
    Option.Rel T (trees? source) (trees? other) := by
  generalize trees? source = ours at h himp ⊢
  generalize trees? other = theirs at h ⊢
  cases h with
  | none => exact .none
  | some hsame => exact .some (himp _ _ rfl hsame)

theorem parse?_alike (hL : Respects R L) (h : Option.Rel (TreesAlike R L) (trees? source) (trees? other)) :
    Option.Rel (SourceUnit.Alike L) (parse? source) (parse? other) := by
  rw [parse?_eq_map_trees?, parse?_eq_map_trees?]
  generalize trees? source = ours at h ⊢
  generalize trees? other = theirs at h ⊢
  cases h with
  | none => exact .none
  | some htrees => exact .some (ofTrees_alike hL htrees)

theorem parse?_eq_relined {f : Line → Line}
    (h : Option.Rel (SourceUnit.Alike (.relined f)) (parse? source) (parse? other)) :
    parse? other = (parse? source).map (relined f) := by
  generalize parse? source = ours at h ⊢
  generalize parse? other = theirs at h ⊢
  cases h with
  | none => rfl
  | some hunit => rw [hunit.eq_relined, Option.map_some]

end SourceUnit

end JavaAtlas
