import CausalWeave.Proofs.SiblingOrder
import CausalWeave.Weave

/-! A row of siblings is held as its first tree, which is a root with the row of its children below it, and
the row of the other trees beside it. -/

namespace CausalWeave

inductive Forest where
  | nil
  | cons (handle : Handle) (atom : Atom) (below beside : Forest)

namespace Forest

def entries : Forest → List (Handle × Atom)
  | nil => []
  | cons handle atom below beside => (handle, atom) :: (below.entries ++ beside.entries)

def handles (forest : Forest) : List Handle :=
  forest.entries.map (·.1)

def atoms (forest : Forest) : List Atom :=
  forest.entries.map (·.2)

def size (forest : Forest) : Nat :=
  forest.entries.length

def row : Forest → List Atom
  | nil => []
  | cons _ atom _ beside => atom :: beside.row

@[simp] theorem handles_nil : nil.handles = [] := rfl
@[simp] theorem atoms_nil : nil.atoms = [] := rfl
@[simp] theorem size_nil : nil.size = 0 := rfl

@[simp] theorem handles_cons (handle : Handle) (atom : Atom) (below beside : Forest) :
    (cons handle atom below beside).handles = handle :: (below.handles ++ beside.handles) := by
  simp [handles, entries]

@[simp] theorem atoms_cons (handle : Handle) (atom : Atom) (below beside : Forest) :
    (cons handle atom below beside).atoms = atom :: (below.atoms ++ beside.atoms) := by
  simp [atoms, entries]

@[simp] theorem size_cons (handle : Handle) (atom : Atom) (below beside : Forest) :
    (cons handle atom below beside).size = 1 + below.size + beside.size := by
  simp only [size, entries, List.length_cons, List.length_append]
  omega

@[simp] theorem length_handles (forest : Forest) : forest.handles.length = forest.size := by
  simp [handles, size]

@[simp] theorem length_atoms (forest : Forest) : forest.atoms.length = forest.size := by
  simp [atoms, size]

theorem mem_atoms {forest : Forest} {atom : Atom} :
    atom ∈ forest.atoms ↔ ∃ handle, (handle, atom) ∈ forest.entries := by
  simp [atoms]

theorem row_subset_atoms (forest : Forest) : ∀ atom ∈ forest.row, atom ∈ forest.atoms := by
  induction forest with
  | nil => simp [row]
  | cons handle head below beside _ ih =>
    intro atom member
    rcases List.mem_cons.mp member with same | later
    · simp [same]
    · simp [ih atom later]

/-- Every atom of a row names the cause of the row, stands before its younger siblings in the order
of siblings, and is the cause of the row below it. -/
def Ordered (cause : Option AtomId) : Forest → Prop
  | nil => True
  | cons _ atom below beside =>
    atom.cause = cause ∧ (∀ sibling ∈ beside.row, atom.Precedes sibling) ∧
      Ordered (some atom.id) below ∧ Ordered cause beside

theorem Ordered.cause_of_mem_row {forest : Forest} (ordered : forest.Ordered cause)
    {atom : Atom} (member : atom ∈ forest.row) : atom.cause = cause := by
  induction forest with
  | nil => simp [row] at member
  | cons handle head below beside _ ih =>
    obtain ⟨named, _, _, others⟩ := ordered
    rcases List.mem_cons.mp member with same | later
    · rw [same, named]
    · exact ih others later

theorem Ordered.pairwise_row {forest : Forest} (ordered : forest.Ordered cause) :
    forest.row.Pairwise Atom.Precedes := by
  induction forest with
  | nil => exact .nil
  | cons handle head below beside _ ih =>
    obtain ⟨_, precedes, _, others⟩ := ordered
    exact .cons precedes (ih others)

/-- An atom stands in the row or below another atom of the forest, which is its cause. -/
theorem Ordered.cause_cases {forest : Forest} (ordered : forest.Ordered cause) {atom : Atom}
    (member : atom ∈ forest.atoms) :
    atom.cause = cause ∨ ∃ parent ∈ forest.atoms, atom.cause = some parent.id := by
  induction forest generalizing cause with
  | nil => simp at member
  | cons handle head below beside belowHypothesis besideHypothesis =>
    obtain ⟨named, _, children, others⟩ := ordered
    simp only [atoms_cons, List.mem_cons, List.mem_append] at member
    rcases member with same | inside | later
    · exact .inl (by rw [same, named])
    · rcases belowHypothesis children inside with direct | ⟨parent, present, caused⟩
      · exact .inr ⟨head, by simp, direct⟩
      · exact .inr ⟨parent, by simp [present], caused⟩
    · rcases besideHypothesis others later with direct | ⟨parent, present, caused⟩
      · exact .inl direct
      · exact .inr ⟨parent, by simp [present], caused⟩

/-- In the pre-order walk the cause of an atom comes before the atom. -/
theorem Ordered.cause_before {forest : Forest} (ordered : forest.Ordered cause)
    {before after : List Atom} {atom : Atom} (walk : forest.atoms = before ++ atom :: after) :
    atom.cause = cause ∨ ∃ parent ∈ before, atom.cause = some parent.id := by
  induction forest generalizing cause before after with
  | nil => simp at walk
  | cons handle head below beside belowHypothesis besideHypothesis =>
    obtain ⟨named, _, children, others⟩ := ordered
    rw [atoms_cons] at walk
    cases before with
    | nil =>
      obtain ⟨rfl, _⟩ := List.cons.inj walk
      exact .inl named
    | cons first before =>
      obtain ⟨same, parts⟩ := List.cons.inj walk
      rcases List.append_eq_append_iff.mp parts with ⟨middle, rfl, later⟩ | ⟨middle, inside, rest⟩
      · rcases besideHypothesis others later with direct | ⟨parent, present, caused⟩
        · exact .inl direct
        · exact .inr ⟨parent, by simp [present], caused⟩
      · cases middle with
        | nil =>
          have later : beside.atoms = [] ++ atom :: after := rest.symm
          rcases besideHypothesis others later with direct | ⟨_, absent, _⟩
          · exact .inl direct
          · simp at absent
        | cons middleHead middle =>
          obtain ⟨rfl, _⟩ := List.cons.inj rest
          rcases belowHypothesis children inside with direct | ⟨parent, present, caused⟩
          · exact .inr ⟨head, by simp [same], direct⟩
          · exact .inr ⟨parent, by simp [present], caused⟩

theorem Ordered.mem_row_of_cause {forest : Forest} (ordered : forest.Ordered cause)
    (outside : ∀ atom ∈ forest.atoms, cause ≠ some atom.id) {atom : Atom}
    (member : atom ∈ forest.atoms) (caused : atom.cause = cause) : atom ∈ forest.row := by
  induction forest with
  | nil => simp at member
  | cons handle head below beside _ ih =>
    obtain ⟨_, _, children, others⟩ := ordered
    simp only [atoms_cons, List.mem_cons, List.mem_append] at member
    rcases member with same | inside | later
    · simp [row, same]
    · rcases children.cause_cases inside with direct | ⟨parent, present, indirect⟩
      · exact absurd (caused.symm.trans direct) (outside head (by simp))
      · exact absurd (caused.symm.trans indirect) (outside parent (by simp [present]))
    · exact List.mem_cons_of_mem _
        (ih others (fun other present => outside other (by simp [present])) later)

/-- No two atoms of the forest have the same id. -/
def Distinct (forest : Forest) : Prop :=
  (forest.atoms.map (·.id)).Nodup

theorem Distinct.cons_iff {handle : Handle} {atom : Atom} {below beside : Forest} :
    (cons handle atom below beside).Distinct ↔
      (∀ other ∈ below.atoms ++ beside.atoms, other.id ≠ atom.id) ∧ below.Distinct ∧
        beside.Distinct ∧ ∀ first ∈ below.atoms, ∀ second ∈ beside.atoms, first.id ≠ second.id := by
  simp only [Distinct, atoms_cons, List.map_cons, List.map_append, List.nodup_cons,
    List.nodup_append, List.mem_append, List.mem_map]
  constructor
  · rintro ⟨fresh, inner, outer, apart⟩
    refine ⟨?_, inner, outer, ?_⟩
    · intro other member same
      apply fresh
      rcases member with inside | later
      · exact .inl ⟨other, inside, same⟩
      · exact .inr ⟨other, later, same⟩
    · intro first member second present
      exact apart _ ⟨first, member, rfl⟩ _ ⟨second, present, rfl⟩
  · rintro ⟨fresh, inner, outer, apart⟩
    refine ⟨?_, inner, outer, ?_⟩
    · rintro (⟨other, inside, same⟩ | ⟨other, later, same⟩)
      · exact fresh other (.inl inside) same
      · exact fresh other (.inr later) same
    · rintro _ ⟨first, member, rfl⟩ _ ⟨second, present, rfl⟩
      exact apart first member second present

end Forest
end CausalWeave
