import CausalWeave.Proofs.Forest
import Mathlib.Data.List.Forall2
import Mathlib.Data.List.Sort

/-! The pre-order walk of the forest that the causes span, in which the roots and the children of every atom
are sorted. -/

namespace CausalWeave

/-- The atoms of a list with the given cause, in the order of siblings. -/
def siblingsIn (atoms : List Atom) (cause : Option AtomId) : List Atom :=
  (atoms.filter (·.cause == cause)).mergeSort fun first second =>
    (first.id.siblingOrder second.id).isLE

/-- The pre-order walk of the highest levels of the forest below a cause. -/
def walk (atoms : List Atom) : Nat → Option AtomId → List Atom
  | 0, _ => []
  | levels + 1, cause =>
    (siblingsIn atoms cause).flatMap fun atom => atom :: walk atoms levels (some atom.id)

/-- The pre-order walk of the whole forest. A chain of causes has no more levels than there are
atoms. -/
def canonicalOrder (atoms : List Atom) : List Atom :=
  walk atoms atoms.length none

theorem mem_siblingsIn {atoms : List Atom} {cause : Option AtomId} {atom : Atom} :
    atom ∈ siblingsIn atoms cause ↔ atom ∈ atoms ∧ atom.cause = cause := by
  rw [siblingsIn, (List.mergeSort_perm _ _).mem_iff]
  simp

private theorem mem_of_mem_walk {atoms : List Atom} {cause : Option AtomId} {atom : Atom}
    (member : atom ∈ walk atoms levels cause) : atom ∈ atoms := by
  induction levels generalizing cause with
  | zero => simp [walk] at member
  | succ levels ih =>
    obtain ⟨sibling, here, below⟩ := List.mem_flatMap.mp member
    rcases List.mem_cons.mp below with same | deeper
    · exact same ▸ (mem_siblingsIn.mp here).1
    · exact ih deeper

theorem mem_of_mem_canonicalOrder {atoms : List Atom} {atom : Atom}
    (member : atom ∈ canonicalOrder atoms) : atom ∈ atoms :=
  mem_of_mem_walk member

theorem pairwise_siblingsIn {atoms : List Atom} (distinct : (atoms.map (·.id)).Nodup)
    (cause : Option AtomId) : (siblingsIn atoms cause).Pairwise Atom.Precedes := by
  have sorted : (siblingsIn atoms cause).Pairwise fun first second =>
      (first.id.siblingOrder second.id).isLE = true := by
    apply List.pairwise_mergeSort
    · intro first second third earlier later
      exact @Std.TransCmp.isLE_trans Weight compare _ _ second.id.weight _ earlier later
    · intro first second
      rw [AtomId.siblingOrder_swap first.id second.id]
      cases first.id.siblingOrder second.id <;> rfl
  have apart : (siblingsIn atoms cause).Pairwise fun first second => first.id ≠ second.id := by
    have kept : ((atoms.filter (·.cause == cause)).map (·.id)).Nodup :=
      distinct.sublist (List.filter_sublist.map _)
    rw [← ((List.mergeSort_perm _ _).map _).nodup_iff] at kept
    exact List.pairwise_map.mp kept
  apply sorted.imp₂ _ apart
  intro first second ordered different
  cases order : first.id.siblingOrder second.id with
  | lt => exact order
  | eq => exact absurd (AtomId.eq_of_siblingOrder order) different
  | gt => simp [order] at ordered

instance : Std.Irrefl Atom.Precedes := ⟨Atom.Precedes.irrefl⟩

instance : Std.Antisymm Atom.Precedes :=
  ⟨fun _ _ forth back => absurd back forth.asymm⟩

theorem eq_siblingsIn {atoms row : List Atom} (distinct : (atoms.map (·.id)).Nodup)
    (sorted : row.Pairwise Atom.Precedes)
    (members : ∀ atom, atom ∈ row ↔ atom ∈ atoms ∧ atom.cause = cause) :
    row = siblingsIn atoms cause := by
  apply sorted.eq_of_mem_iff (pairwise_siblingsIn distinct cause)
  intro atom
  rw [members, mem_siblingsIn]

section Matching

variable {related : Atom → Atom → Prop}

def Matching (related : Atom → Atom → Prop) (first second : List Atom) : Prop :=
  (∀ atom ∈ first, ∃ other ∈ second, related atom other) ∧
    ∀ other ∈ second, ∃ atom ∈ first, related atom other

private theorem Matching.of_cons (sameId : ∀ {atom other}, related atom other → atom.id = other.id)
    {first second : Atom} {firsts seconds : List Atom}
    (before : ∀ later ∈ firsts, first.Precedes later)
    (before' : ∀ later ∈ seconds, second.Precedes later)
    (matching : Matching related (first :: firsts) (second :: seconds)) :
    related first second ∧ Matching related firsts seconds := by
  have heads : related first second := by
    obtain ⟨other, member, here⟩ := matching.1 first (by simp)
    obtain ⟨atom, present, there⟩ := matching.2 second (by simp)
    rcases List.mem_cons.mp member with same | later
    · exact same ▸ here
    rcases List.mem_cons.mp present with same | later'
    · exact same ▸ there
    have forth := before atom later'
    have back := before' other later
    simp only [Atom.Precedes, sameId here, sameId there] at forth back
    have forth : other.Precedes second := forth
    exact absurd back forth.asymm
  refine ⟨heads, ?_, ?_⟩
  · intro atom member
    obtain ⟨other, present, pair⟩ := matching.1 atom (by simp [member])
    rcases List.mem_cons.mp present with same | later
    · have forth := before atom member
      simp only [Atom.Precedes, sameId heads, sameId pair, same] at forth
      exact absurd forth (Atom.Precedes.irrefl second)
    · exact ⟨other, later, pair⟩
  · intro other member
    obtain ⟨atom, present, pair⟩ := matching.2 other (by simp [member])
    rcases List.mem_cons.mp present with same | later
    · have forth := before' other member
      simp only [Atom.Precedes, ← sameId heads, ← sameId pair, same] at forth
      exact absurd forth (Atom.Precedes.irrefl first)
    · exact ⟨atom, later, pair⟩

private theorem Matching.forall₂ (sameId : ∀ {atom other}, related atom other → atom.id = other.id)
    {firsts seconds : List Atom} (sorted : firsts.Pairwise Atom.Precedes)
    (sorted' : seconds.Pairwise Atom.Precedes) (matching : Matching related firsts seconds) :
    List.Forall₂ related firsts seconds := by
  induction firsts generalizing seconds with
  | nil =>
    cases seconds with
    | nil => exact .nil
    | cons second seconds =>
      obtain ⟨atom, absent, _⟩ := matching.2 second (by simp)
      simp at absent
  | cons first firsts ih =>
    cases seconds with
    | nil =>
      obtain ⟨other, absent, _⟩ := matching.1 first (by simp)
      simp at absent
    | cons second seconds =>
      obtain ⟨before, rest⟩ := List.pairwise_cons.mp sorted
      obtain ⟨before', rest'⟩ := List.pairwise_cons.mp sorted'
      obtain ⟨heads, tails⟩ := matching.of_cons sameId before before'
      exact .cons heads (ih rest rest' tails)

variable (sameId : ∀ {atom other}, related atom other → atom.id = other.id)
  (sameCause : ∀ {atom other}, related atom other → atom.cause = other.cause)
  {first second : List Atom} (distinct : (first.map (·.id)).Nodup)
  (distinct' : (second.map (·.id)).Nodup) (matching : Matching related first second)

include sameId sameCause distinct distinct' matching

private theorem forall₂_siblingsIn (cause : Option AtomId) :
    List.Forall₂ related (siblingsIn first cause) (siblingsIn second cause) := by
  apply Matching.forall₂ sameId (pairwise_siblingsIn distinct cause)
    (pairwise_siblingsIn distinct' cause)
  constructor
  · intro atom member
    obtain ⟨present, caused⟩ := mem_siblingsIn.mp member
    obtain ⟨other, found, pair⟩ := matching.1 atom present
    exact ⟨other, mem_siblingsIn.mpr ⟨found, by rw [← sameCause pair, caused]⟩, pair⟩
  · intro other member
    obtain ⟨present, caused⟩ := mem_siblingsIn.mp member
    obtain ⟨atom, found, pair⟩ := matching.2 other present
    exact ⟨atom, mem_siblingsIn.mpr ⟨found, by rw [sameCause pair, caused]⟩, pair⟩

private theorem forall₂_walk (levels : Nat) (cause : Option AtomId) :
    List.Forall₂ related (walk first levels cause) (walk second levels cause) := by
  induction levels generalizing cause with
  | zero => exact .nil
  | succ levels ih =>
    apply List.rel_flatMap (forall₂_siblingsIn sameId sameCause distinct distinct' matching cause)
    intro atom other pair
    simp only [sameId pair]
    exact .cons pair (ih (some other.id))

omit sameCause in
private theorem length_eq_of_matching : first.length = second.length := by
  have ids : (first.map (·.id)).Perm (second.map (·.id)) := by
    apply (List.perm_ext_iff_of_nodup distinct distinct').mpr
    intro id
    simp only [List.mem_map]
    constructor
    · rintro ⟨atom, member, rfl⟩
      obtain ⟨other, found, pair⟩ := matching.1 atom member
      exact ⟨other, found, (sameId pair).symm⟩
    · rintro ⟨other, member, rfl⟩
      obtain ⟨atom, found, pair⟩ := matching.2 other member
      exact ⟨atom, found, sameId pair⟩
  simpa using ids.length_eq

theorem forall₂_canonicalOrder :
    List.Forall₂ related (canonicalOrder first) (canonicalOrder second) := by
  rw [canonicalOrder, canonicalOrder,
    length_eq_of_matching sameId distinct distinct' matching]
  exact forall₂_walk sameId sameCause distinct distinct' matching _ _

end Matching

/-- The canonical order does not depend on the order of the list. -/
theorem canonicalOrder_congr {first second : List Atom} (distinct : (first.map (·.id)).Nodup)
    (distinct' : (second.map (·.id)).Nodup) (same : ∀ atom, atom ∈ first ↔ atom ∈ second) :
    canonicalOrder first = canonicalOrder second := by
  have matching : Matching Eq first second := by
    constructor
    · intro atom member
      exact ⟨atom, (same atom).mp member, rfl⟩
    · intro atom member
      exact ⟨atom, (same atom).mpr member, rfl⟩
  have pairs : List.Forall₂ Eq (canonicalOrder first) (canonicalOrder second) :=
    forall₂_canonicalOrder (congrArg Atom.id) (congrArg Atom.cause) distinct distinct' matching
  simpa using pairs

namespace Forest

def height : Forest → Nat
  | nil => 0
  | cons _ _ below beside => max (below.height + 1) beside.height

theorem height_le_size (forest : Forest) : forest.height ≤ forest.size := by
  induction forest with
  | nil => simp [height]
  | cons handle atom below beside _ _ =>
    simp only [height, size_cons]
    omega

/-- The forest has a place for all atoms of a list that one of its own atoms causes, and none of its
atoms is the cause of its row. -/
structure Covers (forest : Forest) (cause : Option AtomId) (atoms : List Atom) : Prop where
  contained : ∀ atom ∈ forest.atoms, atom ∈ atoms
  closed : ∀ parent ∈ forest.atoms, ∀ atom ∈ atoms,
    atom.cause = some parent.id → atom ∈ forest.atoms
  outside : ∀ atom ∈ forest.atoms, cause ≠ some atom.id

theorem covers_atoms (forest : Forest) : forest.Covers none forest.atoms where
  contained _ member := member
  closed _ _ _ member _ := member
  outside := by simp

section Parts

variable {handle : Handle} {head : Atom} {below beside : Forest} {atoms : List Atom}
  (ordered : (cons handle head below beside).Ordered cause)
  (distinct : (cons handle head below beside).Distinct)
  (covers : (cons handle head below beside).Covers cause atoms)

include ordered distinct covers

theorem Covers.in_below : below.Covers (some head.id) atoms := by
  obtain ⟨named, _, _, others⟩ := ordered
  obtain ⟨fresh, _, _, apart⟩ := Distinct.cons_iff.mp distinct
  constructor
  case contained =>
    intro atom member
    exact covers.contained atom (by simp [member])
  case closed =>
    intro parent present atom member caused
    have inside := covers.closed parent (by simp [present]) atom member caused
    simp only [atoms_cons, List.mem_cons, List.mem_append] at inside
    rcases inside with same | inside | later
    · rw [same, named] at caused
      exact absurd caused (covers.outside parent (by simp [present]))
    · exact inside
    · rcases others.cause_cases later with direct | ⟨other, found, indirect⟩
      · exact absurd (direct.symm.trans caused) (covers.outside parent (by simp [present]))
      · have same := Option.some.inj (caused.symm.trans indirect)
        exact absurd same (apart parent present other found)
  case outside =>
    intro atom member same
    exact fresh atom (by simp [member]) (Option.some.inj same).symm

theorem Covers.in_beside : beside.Covers cause atoms := by
  obtain ⟨named, _, children, _⟩ := ordered
  obtain ⟨fresh, _, _, apart⟩ := Distinct.cons_iff.mp distinct
  constructor
  case contained =>
    intro atom member
    exact covers.contained atom (by simp [member])
  case closed =>
    intro parent present atom member caused
    have inside := covers.closed parent (by simp [present]) atom member caused
    simp only [atoms_cons, List.mem_cons, List.mem_append] at inside
    rcases inside with same | inside | later
    · rw [same, named] at caused
      exact absurd caused (covers.outside parent (by simp [present]))
    · rcases children.cause_cases inside with direct | ⟨other, found, indirect⟩
      · have same := Option.some.inj (caused.symm.trans direct)
        exact absurd same (fresh parent (by simp [present]))
      · have same := Option.some.inj (indirect.symm.trans caused)
        exact absurd same (apart other found parent present)
    · exact later
  case outside =>
    intro atom member
    exact covers.outside atom (by simp [member])

/-- The row below an atom is made of all atoms that the atom causes. -/
theorem Covers.mem_row_below {atom : Atom} :
    atom ∈ below.row ↔ atom ∈ atoms ∧ atom.cause = some head.id := by
  obtain ⟨named, _, children, others⟩ := ordered
  obtain ⟨fresh, _, _, _⟩ := Distinct.cons_iff.mp distinct
  constructor
  · intro member
    have inside := below.row_subset_atoms atom member
    exact ⟨covers.contained atom (by simp [inside]), children.cause_of_mem_row member⟩
  · rintro ⟨member, caused⟩
    have inside := covers.closed head (by simp) atom member caused
    simp only [atoms_cons, List.mem_cons, List.mem_append] at inside
    rcases inside with same | inside | later
    · rw [same, named] at caused
      exact absurd caused (covers.outside head (by simp))
    · apply children.mem_row_of_cause _ inside caused
      intro other present same
      exact fresh other (by simp [present]) (Option.some.inj same).symm
    · rcases others.cause_cases later with direct | ⟨other, found, indirect⟩
      · exact absurd (direct.symm.trans caused) (covers.outside head (by simp))
      · have same := Option.some.inj (indirect.symm.trans caused)
        exact absurd same (fresh other (by simp [found]))

end Parts

/-- A row of which each tree is walked anew is the pre-order walk of the forest. -/
private theorem flatMap_walk {forest : Forest} {atoms : List Atom} (ordered : forest.Ordered cause)
    (distinct : forest.Distinct) (unique : (atoms.map (·.id)).Nodup)
    (covers : forest.Covers cause atoms) (tall : forest.height ≤ levels + 1) :
    (forest.row.flatMap fun atom => atom :: walk atoms levels (some atom.id)) = forest.atoms := by
  induction forest generalizing cause levels with
  | nil => rfl
  | cons handle head below beside belowHypothesis besideHypothesis =>
    have inner := covers.in_below ordered distinct
    have outer := covers.in_beside ordered distinct
    have children : below.row = siblingsIn atoms (some head.id) :=
      eq_siblingsIn unique ordered.2.2.1.pairwise_row fun atom =>
        covers.mem_row_below ordered distinct
    obtain ⟨_, _, belowOrdered, besideOrdered⟩ := ordered
    obtain ⟨_, belowDistinct, besideDistinct, _⟩ := Distinct.cons_iff.mp distinct
    simp only [height] at tall
    -- A subtree has one level fewer than the row, so the levels that are left suffice for it.
    have subtree : walk atoms levels (some head.id) = below.atoms := by
      cases levels with
      | zero =>
        cases below with
        | nil => rfl
        | cons _ _ _ _ => simp only [height] at tall; omega
      | succ levels =>
        rw [walk, ← children]
        exact belowHypothesis belowOrdered belowDistinct inner (by omega)
    have shallow : beside.height ≤ levels + 1 := by omega
    have others := besideHypothesis besideOrdered besideDistinct outer shallow
    simp only [row, List.flatMap_cons, subtree, others, atoms_cons, List.cons_append]

/-- An ordered forest has its atoms in the canonical order. -/
theorem Ordered.canonicalOrder_atoms {forest : Forest} (ordered : forest.Ordered none)
    (distinct : forest.Distinct) : canonicalOrder forest.atoms = forest.atoms := by
  have covers := forest.covers_atoms
  have roots : forest.row = siblingsIn forest.atoms none := by
    apply eq_siblingsIn distinct ordered.pairwise_row
    intro atom
    constructor
    · intro member
      exact ⟨forest.row_subset_atoms atom member, ordered.cause_of_mem_row member⟩
    · rintro ⟨member, caused⟩
      exact ordered.mem_row_of_cause (by simp) member caused
  have bound := forest.height_le_size
  rw [canonicalOrder, length_atoms]
  cases size : forest.size with
  | zero =>
    cases forest with
    | nil => rfl
    | cons _ _ _ _ => simp at size
  | succ levels =>
    rw [walk, ← roots]
    exact flatMap_walk ordered distinct distinct covers (by omega)

end Forest
end CausalWeave
