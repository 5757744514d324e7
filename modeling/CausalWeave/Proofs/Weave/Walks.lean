import CausalWeave.Proofs.Weave.Arena
import CausalWeave.Proofs.Weave.Strict

namespace CausalWeave.Weave

namespace WellFormed

variable {weave : Weave} (fits : weave.WellFormed)

include fits

theorem exists_node {position : Nat} (inside : position < weave.size) :
    ∃ handle node, weave.order[position]? = some handle ∧ weave.nodes[handle]? = some node ∧
      weave.nodeAt? position = some node := by
  have standing : weave.order[position]? = some weave.order[position] :=
    Array.getElem?_eq_getElem inside
  have known : weave.order[position] < weave.nodes.size :=
    List.mem_range.mp (fits.order.mem_iff.mp (Array.getElem_mem_toList inside))
  have node := Array.getElem?_eq_getElem known
  exact ⟨_, _, standing, node, by rw [nodeAt?, standing, Option.bind_some, node]⟩

theorem younger {handle : Handle} {node : Node} (found : weave.nodes[handle]? = some node) :
    ∀ elder ∈ node.parent, elder < handle := by
  intro elder above
  cases caused : node.atom.cause with
  | none =>
    rw [fits.root handle node found caused] at above
    cases above
  | some cause =>
    obtain ⟨_, _, parent, older, _⟩ := fits.parent handle node cause found caused
    rw [parent, Option.mem_some] at above
    exact above ▸ older

/-- Parents lead to older nodes, so an ancestor without a parent is reached. -/
theorem lineage_eq {handle : Handle} (inside : handle < weave.nodes.size) {steps : Nat}
    (enough : handle < steps) :
    Strict.lineage weave.nodes handle steps = some (weave.lineage handle) := by
  induction steps generalizing handle with
  | zero => exact absurd enough (Nat.not_lt_zero handle)
  | succ steps ih =>
    have found := Array.getElem?_eq_getElem inside
    have younger := fits.younger found
    rw [Strict.lineage, weave.lineage_of_node found younger, found]
    cases parent : weave.nodes[handle].parent with
    | none => simp [parent, ancestry]
    | some elder =>
      have older := younger elder parent
      have left : elder < steps := Nat.lt_of_lt_of_le older (Nat.le_of_lt_succ enough)
      simp [parent, ancestry, ih (Nat.lt_trans older inside) left]

/-- A scan that ends inside of the order reads what stands there, and passes on to what stands behind. -/
theorem findSibling?_eq {stop : Nat} (inside : stop ≤ weave.size) (start : Nat) (target : Handle) :
    Strict.findSibling? weave start stop target = some (weave.findSibling? start stop target) := by
  fun_induction weave.findSibling? start stop target with
  | case1 start before missing =>
    obtain ⟨_, _, standing, _⟩ := fits.exists_node (Nat.lt_of_lt_of_le before inside)
    simp [missing] at standing
  | case2 start before found =>
    rw [Strict.findSibling?, if_pos before, found]
    simp
  | case3 start before here found other ih =>
    obtain ⟨_, node, standing, known, _⟩ := fits.exists_node (Nat.lt_of_lt_of_le before inside)
    obtain rfl := Option.some.inj (found.symm.trans standing)
    have span : weave.span here = node.span := by simp [Weave.span, known]
    rw [Strict.findSibling?, if_pos before, found]
    simpa [other, known, span] using ih
  | case4 start behind =>
    rw [Strict.findSibling?, if_neg behind]
    rfl

theorem siblingIds_eq {stop : Nat} (inside : stop ≤ weave.size) (start : Nat) :
    Strict.siblingIds weave start stop = some (weave.siblingIds start stop) := by
  fun_induction weave.siblingIds start stop with
  | case1 start before missing =>
    obtain ⟨_, _, _, _, found⟩ := fits.exists_node (Nat.lt_of_lt_of_le before inside)
    simp [missing] at found
  | case2 start before node found ih =>
    rw [Strict.siblingIds, if_pos before, found]
    simp [ih]
  | case3 start behind =>
    rw [Strict.siblingIds, if_neg behind]
    rfl

/-- A scan for the place of an id stays inside of the order and its end. -/
theorem insertionIndex_eq {stop : Nat} (inside : stop ≤ weave.size) (start : Nat) (id : AtomId) :
    Strict.insertionIndex weave start stop id = some (weave.insertionIndex start stop id) ∧
      (start ≤ weave.size → weave.insertionIndex start stop id ≤ weave.size) := by
  fun_induction weave.insertionIndex start stop id with
  | case1 start before missing =>
    obtain ⟨_, _, _, _, found⟩ := fits.exists_node (Nat.lt_of_lt_of_le before inside)
    simp [missing] at found
  | case2 start before sibling found earlier =>
    rw [Strict.insertionIndex, if_pos before, found]
    simp [earlier]
  | case3 start before sibling found later ih =>
    have further : start + 1 + sibling.span ≤ weave.size := by
      have room := fits.span start sibling found
      omega
    rw [Strict.insertionIndex, if_pos before, found]
    exact ⟨by simpa [later] using ih.1, fun _ => ih.2 further⟩
  | case4 start behind =>
    rw [Strict.insertionIndex, if_neg behind]
    exact ⟨rfl, fun here => here⟩

end WellFormed

theorem order_of_findSibling? {weave : Weave} {start stop : Nat} {target : Handle} {position : Nat}
    (found : weave.findSibling? start stop target = some position) :
    weave.order[position]? = some target := by
  fun_induction weave.findSibling? start stop target with
  | case1 => cases found
  | case2 start before here => exact Option.some.inj found ▸ here
  | case3 start before here standing other ih => exact ih found
  | case4 => cases found

/-- A descent ends where the last node of its path stands. -/
theorem order_of_descend? {weave : Weave} {start stop : Nat} {path : List Handle} {position : Nat}
    (found : weave.descend? start stop path = some position) :
    ∃ target ∈ path.getLast?, weave.order[position]? = some target := by
  fun_induction weave.descend? start stop path with
  | case1 => cases found
  | case2 start stop target => exact ⟨target, rfl, order_of_findSibling? found⟩
  | case3 => cases found
  | case4 start stop target child rest here standing ih =>
    obtain ⟨last, same, place⟩ := ih found
    exact ⟨last, by simpa using same, place⟩

theorem order_of_locate? {weave : Weave} {id : AtomId} {handle : Handle} {position : Nat}
    (found : weave.locate? id = some (handle, position)) :
    weave.order[position]? = some handle := by
  unfold locate? at found
  split at found
  · cases found
  · rename_i holder _
    obtain ⟨place, descent, same⟩ := Option.map_eq_some_iff.mp found
    obtain ⟨rfl, rfl⟩ := Prod.mk.inj same
    obtain ⟨last, ends, standing⟩ := order_of_descend? descent
    have first : (weave.lineage holder).head? = some holder := by
      rw [lineage]
      split
      · rfl
      · split <;> rfl
    rw [List.getLast?_reverse, first, Option.mem_some] at ends
    exact ends ▸ standing

namespace WellFormed

variable {weave : Weave} (fits : weave.WellFormed)

include fits

/-- Behind what stands in the order there is room for what descends from it. -/
theorem room_behind {position : Nat} {handle : Handle}
    (standing : weave.order[position]? = some handle) :
    ∃ node, weave.nodes[handle]? = some node ∧ weave.span handle = node.span ∧
      position + 1 + node.span ≤ weave.size := by
  obtain ⟨_, node, standing', known, found⟩ :=
    fits.exists_node (Array.getElem?_eq_some_iff.mp standing).1
  obtain rfl := Option.some.inj (standing.symm.trans standing')
  have room := fits.span position node found
  exact ⟨node, known, by simp [Weave.span, known], by omega⟩

/-- Every level of a descent is scanned inside of the subtree that was found on the level above. -/
theorem descend?_eq {stop : Nat} (inside : stop ≤ weave.size) (start found : Nat) (target : Handle)
    (rest : List Handle) : Strict.descend? weave start stop found (target :: rest) =
      some (weave.descend? start stop (target :: rest)) := by
  induction rest generalizing start stop found target with
  | nil =>
    rw [Strict.descend?, fits.findSibling?_eq inside, Weave.descend?]
    cases place : weave.findSibling? start stop target with
    | none => rfl
    | some position =>
      obtain ⟨node, known, _, _⟩ := fits.room_behind (order_of_findSibling? place)
      simp [known, Strict.descend?]
  | cons child rest ih =>
    rw [Strict.descend?, fits.findSibling?_eq inside, Weave.descend?]
    cases place : weave.findSibling? start stop target with
    | none => rfl
    | some position =>
      obtain ⟨node, known, span, room⟩ := fits.room_behind (order_of_findSibling? place)
      simp [known, span, ih room]

theorem locate?_eq (id : AtomId) :
    Strict.locate? weave id = some (weave.locate? id) := by
  rw [Strict.locate?, Weave.locate?, handle?]
  cases slot : weave.holder? id with
  | none => simp
  | some handle =>
    obtain ⟨node, known, _⟩ := (fits.index _ _).mp slot
    have inside : handle < weave.nodes.size := (Array.getElem?_eq_some_iff.mp known).1
    obtain ⟨target, rest, path⟩ := List.exists_cons_of_ne_nil
      (List.reverse_ne_nil_iff.mpr (List.ne_nil_of_mem (weave.mem_lineage handle)))
    by_cases same : node.atom.id = id
    · simp [known, same, Option.filter, fits.lineage_eq inside inside, path,
        fits.descend?_eq (Nat.le_refl _)]
    · simp [known, same, Option.filter]

/-- The row of the children of an atom stands inside of the order, and so does that of the roots. -/
theorem siblings?_eq (cause : Option AtomId) :
    Strict.siblings? weave cause = some (weave.siblings? cause) ∧
      ∀ run ∈ weave.siblings? cause,
        run.start ≤ weave.size ∧ run.stop ≤ weave.size ∧
          ∀ handle ∈ run.parent, handle < weave.nodes.size := by
  cases cause with
  | none => simp [Strict.siblings?, Weave.siblings?]
  | some cause =>
    rw [Strict.siblings?, fits.locate?_eq, Weave.siblings?]
    cases found : weave.locate? cause with
    | none => simp
    | some entry =>
      obtain ⟨handle, position⟩ := entry
      obtain ⟨node, known, span, room⟩ := fits.room_behind (order_of_locate? found)
      have inside : handle < weave.nodes.size := (Array.getElem?_eq_some_iff.mp known).1
      simp only [known, span, Option.map_some, Option.bind_eq_bind, Option.bind_some]
      refine ⟨rfl, ?_⟩
      rintro _ ⟨⟩
      exact ⟨Nat.le_trans (Nat.le_add_right _ _) room, room, by simpa using inside⟩

theorem children_eq (id : AtomId) : Strict.children weave id = some (weave.children id) := by
  obtain ⟨same, inside⟩ := fits.siblings?_eq (some id)
  rw [Strict.children, same, Weave.children]
  cases found : weave.siblings? (some id) with
  | none => rfl
  | some run => simp [fits.siblingIds_eq (inside run found).2.1]

/-- Counting changes no parent, so it follows the ancestors that the nodes had before. -/
theorem count_eq {handle : Handle} (inside : handle < weave.nodes.size) {steps : Nat}
    (enough : handle < steps) (nodes : Array Node)
    (alike : ∀ handle < weave.nodes.size,
      nodes[handle]?.map (·.parent) = weave.nodes[handle]?.map (·.parent)) :
    Strict.count nodes (some handle) steps =
      some ((weave.lineage handle).foldl (fun nodes handle => nodes.modify handle grown) nodes) := by
  induction steps generalizing handle nodes with
  | zero => exact absurd enough (Nat.not_lt_zero handle)
  | succ steps ih =>
    have found := Array.getElem?_eq_getElem inside
    have younger := fits.younger found
    obtain ⟨node, known, same⟩ := Option.map_eq_some_iff.mp ((alike handle inside).trans
      (congrArg (Option.map (·.parent)) found))
    rw [Strict.count, known, weave.lineage_of_node found younger, List.foldl_cons]
    simp only [Option.bind_eq_bind, Option.bind_some, same]
    cases parent : weave.nodes[handle].parent with
    | none =>
      rw [Strict.count]
      rfl
    | some elder =>
      have older := younger elder parent
      apply ih (Nat.lt_trans older inside) (Nat.lt_of_lt_of_le older (Nat.le_of_lt_succ enough))
      intro other present
      rw [← alike other present, Array.getElem?_modify]
      split
      · cases nodes[other]? <;> rfl
      · rfl

end WellFormed

theorem le_of_mem_lineage {weave : Weave} {handle other : Handle}
    (member : other ∈ weave.lineage handle) : other ≤ handle := by
  fun_induction weave.lineage handle with
  | case1 => simp_all
  | case2 handle parent _ older ih =>
    rcases List.mem_cons.mp member with same | above
    · exact Nat.le_of_eq same
    · exact Nat.le_trans (ih above) (Nat.le_of_lt older)
  | case3 => simp_all

theorem foldl_grown_push {handles : List Handle} {nodes : Array Node}
    (inside : ∀ handle ∈ handles, handle < nodes.size) (node : Node) :
    handles.foldl (fun nodes handle => nodes.modify handle grown) (nodes.push node) =
      (handles.foldl (fun nodes handle => nodes.modify handle grown) nodes).push node := by
  induction handles generalizing nodes with
  | nil => rfl
  | cons handle handles ih =>
    obtain ⟨here, inside⟩ := List.forall_mem_cons.mp inside
    have apart : (nodes.push node).modify handle grown = (nodes.modify handle grown).push node := by
      apply Array.ext_getElem?
      intro other
      simp only [Array.getElem?_modify, Array.getElem?_push, Array.size_modify]
      grind
    rw [List.foldl_cons, apart, ih (by simpa using inside), List.foldl_cons]

namespace WellFormed

variable {weave : Weave} (fits : weave.WellFormed)

include fits

/-- The new node is no ancestor of its own, so it makes no difference that the nodes count their new
descendant when it is among them already. -/
theorem place_eq {parent : Option Handle} (old : ∀ handle ∈ parent, handle < weave.nodes.size)
    {position : Nat} (inside : position ≤ weave.size) (atom : Atom) :
    Strict.place weave atom parent position = some (weave.place atom parent position) := by
  have counted : Strict.count (weave.nodes.push { atom, parent, span := 0 }) parent
      (weave.nodes.push { atom, parent, span := 0 }).size = some (weave.nodesWith atom parent) := by
    cases parent with
    | none =>
      rw [Strict.count]
      rfl
    | some handle =>
      have present := old handle rfl
      have alike : ∀ other < weave.nodes.size,
          (weave.nodes.push { atom, parent := some handle, span := 0 })[other]?.map (·.parent) =
            weave.nodes[other]?.map (·.parent) := by
        intro other below
        rw [Array.getElem?_push_lt below, Array.getElem?_eq_getElem below]
      have within : ∀ other ∈ weave.lineage handle, other < weave.nodes.size :=
        fun other member => Nat.lt_of_le_of_lt (le_of_mem_lineage member) present
      rw [Array.size_push, fits.count_eq present (Nat.lt_succ_of_lt present) _ alike,
        foldl_grown_push within]
      rfl
  simp only [Strict.place, if_pos inside, counted]
  rfl

theorem insert_eq (atom : Atom) : Strict.insert weave atom = some (weave.insert atom) := by
  rw [Strict.insert, Weave.insert]
  by_cases apart : atom.cause = some atom.id
  · simp [apart]
  · rw [if_neg apart, if_neg apart]
    cases slot : weave.holder? atom.id with
    | some handle =>
      obtain ⟨node, known, _⟩ := (fits.index _ _).mp slot
      simp [known]
    | none =>
      obtain ⟨same, inside⟩ := fits.siblings?_eq atom.cause
      cases found : weave.siblings? atom.cause with
      | none => simp [same, found]
      | some run =>
        obtain ⟨start, stop, old⟩ := inside run found
        obtain ⟨index, bounded⟩ := fits.insertionIndex_eq stop run.start atom.id
        simp [same, found, index, fits.place_eq old (bounded start)]

end WellFormed

/-- Every walk reads inside of the arena and the order and comes to an end, and then to the answer that
the weave gives. -/
structure Unfailing (weave : Weave) : Prop where
  lineage : ∀ handle < weave.nodes.size,
    Strict.lineage weave.nodes handle weave.nodes.size = some (weave.lineage handle)
  findSibling : ∀ stop ≤ weave.size, ∀ start target,
    Strict.findSibling? weave start stop target = some (weave.findSibling? start stop target)
  insertionIndex : ∀ stop ≤ weave.size, ∀ start id,
    Strict.insertionIndex weave start stop id = some (weave.insertionIndex start stop id)
  siblingIds : ∀ stop ≤ weave.size, ∀ start,
    Strict.siblingIds weave start stop = some (weave.siblingIds start stop)
  locate : ∀ id, Strict.locate? weave id = some (weave.locate? id)
  children : ∀ id, Strict.children weave id = some (weave.children id)
  roots : Strict.siblingIds weave 0 weave.size = some weave.roots
  insert : ∀ atom, Strict.insert weave atom = some (weave.insert atom)

/-- Whatever calls have built a weave, its arena, order and index fit together, so no walk through it
fails: not the search for an atom, not that for its children, and not the insertion of a next one. -/
theorem Session.walks_inside [Observer σ] (observer : σ) (calls : List Call) :
    let weave := (after observer calls).weave
    weave.WellFormed ∧ weave.Unfailing := by
  intro weave
  have fits : weave.WellFormed := (faithful_after observer calls).sound.wellFormed
  refine ⟨fits, ?_⟩
  constructor
  case lineage => exact fun _ inside => fits.lineage_eq inside inside
  case findSibling => exact fun _ => fits.findSibling?_eq
  case insertionIndex => exact fun _ inside start id => (fits.insertionIndex_eq inside start id).1
  case siblingIds => exact fun _ => fits.siblingIds_eq
  case locate => exact fits.locate?_eq
  case children => exact fits.children_eq
  case roots => exact fits.siblingIds_eq (Nat.le_refl _) 0
  case insert => exact fits.insert_eq

end CausalWeave.Weave
