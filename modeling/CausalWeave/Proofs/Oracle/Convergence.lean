import CausalWeave.Oracle
import CausalWeave.Proofs.Replica.RelativeOrder
import CausalWeave.Proofs.Simulation.Knowledge
import Mathlib.Data.List.Permutation

namespace CausalWeave

/-- Sequences that name the same ids have one digest. -/
theorem Weave.Sound.digest_eq {first second : Weave} (sound : first.Sound) (sound' : second.Sound)
    (coherent : Coherent (first.toList ++ second.toList))
    (named : ∀ id, id ∈ first.toList.map (·.id) ↔ id ∈ second.toList.map (·.id)) :
    first.digest = second.digest := by
  have within : Within first.toList second.toList := by
    intro atom woven
    apply sound'.exists_twin coherent woven
    have known := (named atom.id).mp (List.mem_map_of_mem woven)
    exact sound'.contains_iff.mpr (List.mem_map.mp known)
  have within' : Within second.toList first.toList := by
    intro atom woven
    obtain ⟨twin, present, same⟩ := List.mem_map.mp ((named atom.id).mpr (List.mem_map_of_mem woven))
    refine ⟨twin, present, ?_⟩
    exact coherent atom (List.mem_append_right _ woven) twin (List.mem_append_left _ present)
      (congrArg AtomId.key same.symm)
  have ids := (sound.sameSequence sound' ⟨within, within'⟩).ids_eq
  rw [Weave.digest, Weave.digest, ids]

namespace Oracle

open CausalWeave.Simulation (Convergence Participant Snapshot)

theorem converged_iff (states : List Snapshot) : (Convergence.ofSnapshots states).converged = true ↔
    states.Pairwise fun first second => first.digest = second.digest := by
  cases states with
  | nil => simp [Convergence.ofSnapshots]
  | cons first others =>
    have compared : (Convergence.ofSnapshots (first :: others)).converged = true ↔
        ∀ other ∈ others, other.digest = first.digest := by
      simp [Convergence.ofSnapshots]
    rw [compared, List.pairwise_cons]
    constructor
    · intro same
      refine ⟨fun other member => (same other member).symm, ?_⟩
      apply List.pairwise_of_forall_mem_list
      intro one member other present
      rw [same one member, same other present]
    · intro ⟨same, _⟩ other member
      exact (same other member).symm

theorem convergence_eq_nil_iff (states : List Snapshot) : convergence states = [] ↔
    states.Pairwise fun first second => first.digest = second.digest := by
  induction states with
  | nil => simp [convergence]
  | cons first others ih =>
    rw [convergence, List.append_eq_nil_iff, ih, List.filterMap_eq_nil_iff, List.pairwise_cons]
    simp [divergence?]

/-- The first snapshot of a pair stands before the second one and has another digest. -/
def Apart (states : List Snapshot) (pair : Nat × Nat) : Prop :=
  pair.1 < pair.2 ∧ ∃ first second, states[pair.1]? = some first ∧ states[pair.2]? = some second ∧
    first.digest ≠ second.digest

/-- A report on a pair of snapshots, with the ids of each that the other lacks, in their order. -/
def Reports (states : List Snapshot) (pair : Nat × Nat) (violation : Violation) : Prop :=
  ∃ first second, states[pair.1]? = some first ∧ states[pair.2]? = some second ∧
    violation = .convergence first.number second.number first.digest second.digest
      ((first.sequence.map (·.id)).filter (· ∉ second.sequence.map (·.id)))
      ((second.sequence.map (·.id)).filter (· ∉ first.sequence.map (·.id)))

/-- The reports are on the pairs of snapshots that are apart, one on each. -/
def ReportsPairs (states : List Snapshot) (violations : List Violation) : Prop :=
  ∃ pairs : List (Nat × Nat), pairs.Nodup ∧ (∀ pair, pair ∈ pairs ↔ Apart states pair) ∧
    List.Forall₂ (Reports states) pairs violations

theorem lacking_eq_filter (sequence other : List Atom) :
    lacking sequence other = (sequence.map (·.id)).filter (· ∉ other.map (·.id)) := by
  unfold lacking
  congr 1
  funext id
  rw [Bool.eq_iff_iff]
  simp

theorem divergence?_eq_some_iff {first second : Snapshot} {violation : Violation} :
    divergence? first second = some violation ↔ first.digest ≠ second.digest ∧
      violation = .convergence first.number second.number first.digest second.digest
        ((first.sequence.map (·.id)).filter (· ∉ second.sequence.map (·.id)))
        ((second.sequence.map (·.id)).filter (· ∉ first.sequence.map (·.id))) := by
  rw [divergence?, lacking_eq_filter, lacking_eq_filter]
  by_cases same : first.digest = second.digest
  · simp [same]
  · simp [same, eq_comm]

/-- The places of a list at which a partial function is defined, in one line with its values. -/
private theorem exists_places (f : α → Option β) (items : List α) :
    ∃ places : List Nat, places.Nodup ∧
      (∀ place, place ∈ places ↔ ∃ item value, items[place]? = some item ∧ f item = some value) ∧
      List.Forall₂ (fun place value => ∃ item, items[place]? = some item ∧ f item = some value) places
        (items.filterMap f) := by
  induction items with
  | nil => exact ⟨[], .nil, by simp, .nil⟩
  | cons item rest ih =>
    obtain ⟨places, distinct, members, values⟩ := ih
    have shifted : List.Forall₂
        (fun place value => ∃ other, (item :: rest)[place]? = some other ∧ f other = some value)
        (places.map (· + 1)) (rest.filterMap f) := by
      rw [List.forall₂_map_left_iff]
      simpa using values
    have distinct' := distinct.map (Nat.succ_injective)
    cases defined : f item with
    | none =>
      refine ⟨places.map (· + 1), distinct', ?_, by simpa [defined] using shifted⟩
      intro place
      cases place with
      | zero => simp [defined]
      | succ place => simp [members]
    | some value =>
      refine ⟨0 :: places.map (· + 1), ?_, ?_, ?_⟩
      · exact List.nodup_cons.mpr ⟨by simp, distinct'⟩
      · intro place
        cases place with
        | zero => simp [defined]
        | succ place => simp [members]
      · rw [List.filterMap_cons_some defined]
        exact .cons ⟨item, rfl, defined⟩ shifted

private theorem apart_cons {first : Snapshot} {others : List Snapshot} {left right : Nat} :
    Apart (first :: others) (left, right + 1) ↔
      left = 0 ∧ (∃ other value, others[right]? = some other ∧
        divergence? first other = some value) ∨
      ∃ place, left = place + 1 ∧ Apart others (place, right) := by
  cases left with
  | zero => simp [Apart, divergence?_eq_some_iff]
  | succ left => simp [Apart]

theorem reportsPairs_convergence (states : List Snapshot) : ReportsPairs states (convergence states) := by
  induction states with
  | nil => exact ⟨[], .nil, by simp [Apart], .nil⟩
  | cons first others ih =>
    obtain ⟨places, unique, defined, values⟩ := exists_places (divergence? first) others
    obtain ⟨pairs, distinct, members, reports⟩ := ih
    refine ⟨places.map (fun place => (0, place + 1)) ++ pairs.map fun pair => (pair.1 + 1, pair.2 + 1),
      ?once, ?apart, List.rel_append ?before ?among⟩
    case once =>
      rw [List.nodup_append']
      refine ⟨unique.map ?_, distinct.map ?_, ?_⟩
      · intro one other same
        simpa using same
      · intro one other same
        simpa [Prod.ext_iff] using same
      · intro pair here there
        obtain ⟨_, _, rfl⟩ := List.mem_map.mp here
        simp at there
    case apart =>
      rintro ⟨left, right⟩
      cases right with
      | zero => simp [Apart]
      | succ right =>
        rw [apart_cons, ← defined, List.mem_append]
        simp only [← members, List.mem_map, Prod.ext_iff, Prod.exists]
        grind
    case before =>
      rw [List.forall₂_map_left_iff]
      apply values.imp
      rintro place violation ⟨other, stands, reported⟩
      exact ⟨first, other, rfl, stands, (divergence?_eq_some_iff.mp reported).2⟩
    case among =>
      rw [List.forall₂_map_left_iff]
      exact reports

def snapshotOf (number : Nat) (replica : Replica σ) : Snapshot where
  number
  site := replica.site
  digest := replica.weave.digest
  sequence := replica.weave.toList
  pending := replica.pending.size

/-- A snapshot of a replica to which operations have led, on its own or as part of a participant. -/
inductive Taken : Snapshot → Prop where
  | replica {σ : Type} [Observer σ] {replica : Replica σ} (reachable : replica.Reachable)
      (number : Nat) : Taken (snapshotOf number replica)
  | participant (number : Nat) (config : Replica.Config) (calls : List Participant.Call) :
      Taken (Participant.after number config calls).snapshot

theorem Taken.exists_weave {state : Snapshot} (taken : Taken state) :
    ∃ weave : Weave, weave.Sound ∧ state.digest = weave.digest ∧ state.sequence = weave.toList := by
  cases taken with
  | replica reachable number => exact ⟨_, reachable.sound.weave, rfl, rfl⟩
  | participant number config calls =>
    exact ⟨_, (Participant.steady_after number config calls).sound.weave, rfl, rfl⟩

/-- A report on two replicas that says what one of them lacks. -/
def Violation.NamesLack : Violation → Prop
  | convergence _ _ _ _ onlyInFirst onlyInSecond => onlyInFirst ≠ [] ∨ onlyInSecond ≠ []
  | _ => False

theorem namesLack_of_reports {states : List Snapshot} (taken : ∀ state ∈ states, Taken state)
    (coherent : Coherent (states.flatMap (·.sequence))) {pair : Nat × Nat} (apart : Apart states pair)
    {violation : Violation} (reports : Reports states pair violation) : violation.NamesLack := by
  obtain ⟨_, _, _, here', there', differ⟩ := apart
  obtain ⟨first, second, here, there, rfl⟩ := reports
  obtain rfl := Option.some.inj (here'.symm.trans here)
  obtain rfl := Option.some.inj (there'.symm.trans there)
  have member := List.mem_of_getElem? here
  have member' := List.mem_of_getElem? there
  obtain ⟨weave, sound, digest, sequence⟩ := (taken _ member).exists_weave
  obtain ⟨weave', sound', digest', sequence'⟩ := (taken _ member').exists_weave
  have together : Coherent (weave.toList ++ weave'.toList) := by
    apply coherent.of_within (within_of_subset _)
    intro atom woven
    rw [List.mem_flatMap]
    rcases List.mem_append.mp woven with one | other
    · exact ⟨_, member, sequence ▸ one⟩
    · exact ⟨_, member', sequence' ▸ other⟩
  rw [Violation.NamesLack, ← not_and_or]
  rintro ⟨none, none'⟩
  rw [List.filter_eq_nil_iff] at none none'
  apply differ
  rw [digest, digest']
  apply sound.digest_eq sound' together
  intro id
  rw [← sequence, ← sequence']
  exact ⟨fun named => by simpa using none id named, fun named => by simpa using none' id named⟩

/-- Comparing all snapshots with the first one and comparing each pair come to the same verdict. There is
one report on each pair whose digests differ, with the ids that either lacks, and on replicas that hold
no two versions of an atom there are such ids. -/
theorem convergence_explained (states : List Snapshot) :
    ((Convergence.ofSnapshots states).converged = true ↔
        ({ violations := convergence states } : Verdict).passed = true) ∧
      ReportsPairs states (convergence states) ∧
      ((∀ state ∈ states, Taken state) → Coherent (states.flatMap (·.sequence)) →
        ∀ violation ∈ convergence states, violation.NamesLack) := by
  have pairs := reportsPairs_convergence states
  refine ⟨?agree, pairs, ?named⟩
  case agree => rw [converged_iff, Verdict.passed, List.isEmpty_iff, convergence_eq_nil_iff]
  case named =>
    intro taken coherent violation member
    obtain ⟨listed, _, members, reports⟩ := pairs
    obtain ⟨place, inside, rfl⟩ := List.mem_iff_getElem.mp member
    have within : place < listed.length := reports.length_eq ▸ inside
    have pair := (members _).mp (List.getElem_mem within)
    exact namesLack_of_reports taken coherent pair (reports.get within inside)

/-- A participant that has woven a child whose root came second, and a replica that has the root only. -/
theorem convergence_explained_child :
    let root : Atom := { id := { site := ⟨"a"⟩, timestamp := 1 } }
    let child : Atom := { id := { site := ⟨"b"⟩, timestamp := 2 }, cause := some root.id }
    let whole := Participant.after 1 .unbounded [.receive child, .receive root]
    let part := Replica.after ⟨"x"⟩ .unbounded () [.receive root]
    let states := [whole.snapshot, snapshotOf 2 part]
    convergence states ≠ [] ∧ ∀ violation ∈ convergence states, violation.NamesLack := by
  intro root child whole part states
  have both : whole.sequence = [root, child] := by
    dsimp +zetaDelta only
    cbv
  have one : part.weave.toList = [root] := by
    dsimp +zetaDelta only
    cbv
  have taken : ∀ state ∈ states, Taken state := by
    have reachable : part.Reachable := ⟨_, _, _, _, rfl⟩
    simp only [states, List.mem_cons, List.not_mem_nil, or_false, forall_eq_or_imp, forall_eq]
    exact ⟨.participant _ _ _, .replica reachable 2⟩
  clear_value whole part
  have coherent : Coherent (states.flatMap (·.sequence)) := by
    have unique : ([root, child].map (·.id.key)).Nodup := by decide
    apply (coherent_of_unique unique).of_within (within_of_subset _)
    simp [states, Participant.snapshot, snapshotOf, both, one]
  refine ⟨?_, (convergence_explained states).2.2 taken coherent⟩
  have differ : digestOfIds ([root, child].map (·.id)) ≠ digestOfIds ([root].map (·.id)) := by
    decide +kernel
  rw [ne_eq, convergence_eq_nil_iff, List.pairwise_pair]
  change digestOfIds (whole.sequence.map (·.id)) ≠ digestOfIds (part.weave.toList.map (·.id))
  rw [both, one]
  exact differ

end Oracle
end CausalWeave
