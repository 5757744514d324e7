import CausalWeave.Proofs.Oracle.Convergence
import CausalWeave.Proofs.Oracle.Sequences
import CausalWeave.Proofs.Simulation.Agreement

namespace CausalWeave.Oracle

open CausalWeave.Simulation (Agrees History Outcome Snapshot)

/-- A replica that has woven all atoms of a history and holds nothing else. -/
structure Rebuilt (atoms : List Atom) (replica : Replica Unit) : Prop where
  sound : replica.Sound
  held : ∀ atom ∈ replica.held, atom ∈ atoms
  order : replica.weave.toList = canonicalOrder atoms
  woven : ∀ atom ∈ atoms, atom ∈ replica.weave.toList

/-- In whatever order the atoms arrive, the replica that takes them in is the same but for its
clock. -/
theorem rebuilt_replicaOf {atoms list : List Atom} (history : History atoms)
    (arranged : list.Perm atoms) : Rebuilt atoms (replicaOf list) := by
  have known : ∀ atom, atom ∈ list ↔ atom ∈ atoms := fun atom => arranged.mem_iff
  have whole : Delivers list atoms := delivers_of_mem_iff known
  have collected := Replica.collected_receiveAll history.unique whole.1 { name := "oracle" }
    .unbounded rfl ()
  have order := collected.eq_canonicalOrder history.unique whole fun atom => (known atom).mp
  rw [rootedAtoms_eq_self history.rooted] at order
  have held : ∀ atom ∈ (replicaOf list).held, atom ∈ atoms := by
    intro atom member
    exact (known atom).mp (collected.drawn atom member)
  refine ⟨collected.sound, held, order, ?_⟩
  intro atom member
  obtain ⟨other, woven, same⟩ :=
    collected.woven_of_rooted history.unique whole (history.rooted atom member)
  have present := held other (List.mem_append_left _ woven)
  have equal := eq_of_key history.unique member present (congrArg AtomId.key (Atom.id_eq_of_same same))
  exact equal ▸ woven

theorem Rebuilt.digest {atoms : List Atom} {replica : Replica Unit} (rebuilt : Rebuilt atoms replica) :
    replica.weave.digest = digestOfIds ((canonicalOrder atoms).map (·.id)) := by
  rw [Weave.digest, rebuilt.order]

/-- A second delivery of an atom is a duplicate that changes nothing. -/
theorem Rebuilt.receive {atoms : List Atom} {replica : Replica Unit} (rebuilt : Rebuilt atoms replica)
    {atom : Atom} (member : atom ∈ atoms) : replica.receive atom = (.ok .duplicate, replica) :=
  rebuilt.sound.receive_of_woven (rebuilt.woven atom member) atom.same_refl

theorem convergence_eq_nil {states : List Snapshot} {digest : String}
    (same : ∀ state ∈ states, state.digest = digest) : convergence states = [] := by
  rw [convergence_eq_nil_iff]
  apply List.pairwise_of_forall_mem_list
  intro first member second present
  rw [same first member, same second present]

private theorem commutativityFrom_eq_nil {atoms : List Atom} (history : History atoms)
    (generator : Generator) (permutation count : Nat) :
    (commutativityFrom atoms (replicaOf atoms).weave.digest generator permutation count).1 = [] := by
  induction count generalizing generator permutation with
  | zero => rfl
  | succ count ih =>
    have arranged := generator.shuffle_perm atoms.toArray
    rw [commutativityFrom]
    generalize generator.shuffle atoms.toArray = shuffled at arranged
    obtain ⟨shuffled, generator⟩ := shuffled
    have same : (replicaOf shuffled.toList).weave.digest = (replicaOf atoms).weave.digest :=
      (rebuilt_replicaOf history arranged).digest.trans (rebuilt_replicaOf history (.refl _)).digest.symm
    simp [same, ih]

theorem commutativity_eq_nil {atoms : List Atom} (history : History atoms) (generator : Generator)
    (iterations : Nat) : (commutativity atoms generator iterations).1 = [] := by
  unfold commutativity
  split
  · rfl
  · exact commutativityFrom_eq_nil history generator 0 iterations

private theorem idempotenceFrom_eq_nil {atoms : List Atom} {replica : Replica Unit}
    (rebuilt : Rebuilt atoms replica) {rest : List Atom} (subset : ∀ atom ∈ rest, atom ∈ atoms) :
    idempotenceFrom replica replica.weave.digest rest = [] := by
  induction rest with
  | nil => rfl
  | cons atom rest ih =>
    rw [idempotenceFrom, rebuilt.receive (subset atom (by simp))]
    simpa using ih fun other member => subset other (by simp [member])

theorem idempotence_eq_nil {atoms : List Atom} (history : History atoms) : idempotence atoms = [] :=
  idempotenceFrom_eq_nil (rebuilt_replicaOf history (.refl _)) fun _ member => member

/-- The sequences of the snapshots are those of sound weaves. -/
private theorem contiguous_of_sequences {atoms : List Atom} (history : History atoms)
    {states : List Snapshot} (sequences : ∀ state ∈ states, state.sequence = canonicalOrder atoms) :
    ∀ state ∈ states, (state.sequence.map (·.id)).Nodup ∧ Contiguous state.sequence := by
  intro state member
  have rebuilt := rebuilt_replicaOf history (.refl _)
  rw [sequences state member, ← rebuilt.order]
  exact ⟨rebuilt.sound.weave.nodup_ids, contiguous_toList rebuilt.sound.weave⟩

theorem drained_eq_nil {states : List Snapshot} (none_waiting : ∀ state ∈ states, state.pending = 0) :
    drained states = [] := by
  have none_left : states.filter (0 < ·.pending) = [] := by
    rw [List.filter_eq_nil_iff]
    intro state member
    simp [none_waiting state member]
  rw [drained, none_left]
  rfl

/-- A run that ended in agreement passes all checks, whatever the oracle draws. -/
theorem judge_violations {atoms : List Atom} {outcome : Outcome}
    (agrees : Agrees count atoms outcome) (generator : Generator) :
    (judge outcome.states atoms generator).1.violations = [] := by
  have history := agrees.history
  have sequences : ∀ state ∈ outcome.states, state.sequence = canonicalOrder atoms := by
    intro state member
    exact (agrees.sequences state member).1
  have sound := contiguous_of_sequences history sequences
  have distinct : ∀ state ∈ outcome.states, (state.sequence.map (·.id)).Nodup :=
    fun state member => (sound state member).1
  have contiguous : ∀ state ∈ outcome.states, Contiguous state.sequence :=
    fun state member => (sound state member).2
  have permuted := commutativity_eq_nil history generator permutationCount
  unfold judge
  generalize commutativity atoms generator permutationCount = result at permuted
  obtain ⟨violations, generator⟩ := result
  simp only [show violations = [] from permuted, convergence_eq_nil agrees.digests,
    idempotence_eq_nil history, causality_eq_nil distinct contiguous,
    (contiguity_eq_nil_iff distinct).mpr contiguous, drained_eq_nil agrees.drained, List.append_nil]

end CausalWeave.Oracle
