import CausalWeave.Proofs.Pruning
import CausalWeave.Proofs.Replica.Merging

namespace CausalWeave

/-- The atom with the first id stands before the one with the second. -/
def Before (sequence : List Atom) (first second : AtomId) : Prop :=
  [first, second].Sublist (sequence.map (·.id))

theorem before_filter_iff {sequence : List Atom} {test : AtomId → Bool} {first second : AtomId}
    (passes : test first = true) (passes' : test second = true) :
    Before (sequence.filter fun atom => test atom.id) first second ↔
      Before sequence first second := by
  have ids : (sequence.filter fun atom => test atom.id).map (·.id) =
      (sequence.map (·.id)).filter test := by
    rw [List.filter_map]
    rfl
  rw [Before, Before, ids]
  constructor
  · exact fun before => before.trans List.filter_sublist
  · intro before
    simpa [passes, passes'] using before.filter test

theorem SameSequence.ids_eq (agree : SameSequence first second) :
    first.map (·.id) = second.map (·.id) := by
  induction agree with
  | nil => rfl
  | cons same _ ih => rw [List.map_cons, List.map_cons, ih, Atom.id_eq_of_same same]

namespace Weave

def common (weave other : Weave) : List Atom :=
  weave.toList.filter fun atom => other.contains atom.id

namespace Sound

variable {first second : Weave} (sound : first.Sound) (sound' : second.Sound)
  (coherent : Coherent (first.toList ++ second.toList))

include sound' coherent

theorem exists_twin {atom : Atom} (woven : atom ∈ first.toList)
    (known : second.contains atom.id = true) : ∃ twin ∈ second.toList, atom.same twin = true := by
  obtain ⟨twin, present, same⟩ := sound'.contains_iff.mp known
  refine ⟨twin, present, ?_⟩
  exact coherent atom (List.mem_append_left _ woven) twin (List.mem_append_right _ present)
    (congrArg AtomId.key same.symm)

/-- The causes of atoms that both weaves have are had by both. -/
theorem causeClosed_common :
    CauseClosed (fun atom => second.contains atom.id) first.toList := by
  intro parent _ atom woven caused unknown
  rw [← Bool.not_eq_true] at unknown ⊢
  intro known
  obtain ⟨twin, present, same⟩ := sound'.exists_twin coherent woven known
  exact unknown (sound'.contains_cause present ((Atom.cause_eq_of_same same).symm.trans caused))

include sound in
theorem within_common : Within (first.common second) (second.common first) := by
  intro atom member
  obtain ⟨woven, known⟩ := List.mem_filter.mp member
  obtain ⟨twin, present, same⟩ := sound'.exists_twin coherent woven known
  refine ⟨twin, List.mem_filter.mpr ⟨present, ?_⟩, same⟩
  exact sound.contains_iff.mpr ⟨atom, woven, Atom.id_eq_of_same same⟩

include sound in
/-- The atoms that both weaves have make one sequence. -/
theorem sameSequence_common : SameSequence (first.common second) (second.common first) := by
  have swapped : Coherent (second.toList ++ first.toList) := by
    apply coherent.of_within (within_of_subset _)
    simp [or_comm]
  have closed := sound'.causeClosed_common coherent
  have closed' := sound.causeClosed_common swapped
  have canonical : canonicalOrder (first.common second) = first.common second :=
    sound.canonicalOrder_filter closed
  have canonical' : canonicalOrder (second.common first) = second.common first :=
    sound'.canonicalOrder_filter closed'
  have delivers : Delivers (first.common second) (second.common first) :=
    ⟨sound.within_common sound' coherent, sound'.within_common sound swapped⟩
  rw [← canonical, ← canonical']
  exact delivers.sameSequence (sound.nodup_ids.sublist (List.filter_sublist.map _))
    (sound'.nodup_ids.sublist (List.filter_sublist.map _))

omit coherent in
theorem common_eq_self (within : Within first.toList second.toList) :
    first.common second = first.toList := by
  rw [common, List.filter_eq_self]
  intro atom woven
  obtain ⟨twin, present, same⟩ := within atom woven
  exact sound'.contains_iff.mpr ⟨twin, present, (Atom.id_eq_of_same same).symm⟩

end Sound
end Weave

namespace Replica

variable [Observer σ] [Observer τ] {one : Replica σ} {other : Replica τ}

/-- The atoms that two reachable replicas both have woven make one sequence, so each two of them stand in
the same order on both. When all atoms of one replica are woven on the other, its sequence is a part of
the other's. -/
theorem Reachable.order_agrees (reachable : one.Reachable) (reachable' : other.Reachable)
    (coherent : Coherent (one.weave.toList ++ other.weave.toList)) :
    SameSequence (one.weave.common other.weave) (other.weave.common one.weave) ∧
      (∀ first second,
        one.weave.contains first = true → other.weave.contains first = true →
          one.weave.contains second = true → other.weave.contains second = true →
            (Before one.weave.toList first second ↔ Before other.weave.toList first second)) ∧
      (Within one.weave.toList other.weave.toList →
        ∃ part, part.Sublist other.weave.toList ∧ SameSequence one.weave.toList part) := by
  have sound := reachable.sound.weave
  have sound' := reachable'.sound.weave
  have agree := sound.sameSequence_common sound' coherent
  refine ⟨agree, ?_, ?_⟩
  · intro first second here there here' there'
    calc Before one.weave.toList first second
      _ ↔ Before (one.weave.common other.weave) first second := (before_filter_iff there there').symm
      _ ↔ Before (other.weave.common one.weave) first second := by rw [Before, Before, agree.ids_eq]
      _ ↔ Before other.weave.toList first second := before_filter_iff here here'
  · intro within
    refine ⟨other.weave.common one.weave, List.filter_sublist, ?_⟩
    rwa [sound'.common_eq_self within] at agree

/-- Without a limit the rooted ones of some atoms are woven however these arrive, and no others. -/
theorem weaves_rooted {atoms : List Atom} (unique : (atoms.map (·.id.key)).Nodup)
    (rooted : ∀ atom ∈ atoms, Rooted atoms atom) (site : Site) (config : Replica.Config)
    (unlimited : config.bound = none) (observer : σ) {atom : Atom} :
    atom ∈ (after site config observer [.receiveAll atoms]).weave.toList ↔ atom ∈ atoms := by
  have whole : Delivers atoms atoms := .refl atoms
  have collected := collected_receiveAll unique whole.1 site config unlimited observer
  change atom ∈ ((fresh site config observer).receiveAll atoms).2.weave.toList ↔ _
  constructor
  · intro woven
    exact collected.drawn atom (List.mem_append_left _ woven)
  · intro member
    obtain ⟨twin, woven, same⟩ := collected.woven_of_rooted unique whole (rooted atom member)
    have drawn := collected.drawn twin (List.mem_append_left _ woven)
    rwa [eq_of_key unique member drawn (congrArg AtomId.key (Atom.id_eq_of_same same))]

/-- Two children of a root, one of which has a child on the second replica only, beside another root. -/
theorem order_agrees_among_more :
    let root : Atom := { id := { site := ⟨"a"⟩, timestamp := 1 } }
    let left : Atom := { id := { site := ⟨"a"⟩, timestamp := 2 }, cause := some root.id }
    let right : Atom := { id := { site := ⟨"b"⟩, timestamp := 3 }, cause := some root.id }
    let below : Atom := { id := { site := ⟨"c"⟩, timestamp := 4 }, cause := some right.id }
    let aside : Atom := { id := { site := ⟨"d"⟩, timestamp := 1 } }
    let one := after ⟨"x"⟩ .unbounded () [.receiveAll [root, left, right]]
    let other := after ⟨"y"⟩ .unbounded ({} : Recorder) [.receiveAll [below, right, left, aside, root]]
    Within one.weave.toList other.weave.toList ∧
      (Before one.weave.toList right.id left.id ↔ Before other.weave.toList right.id left.id) ∧
      ∃ part, part.Sublist other.weave.toList ∧ SameSequence one.weave.toList part := by
  intro root left right below aside one other
  have reachable : one.Reachable := ⟨_, _, _, _, rfl⟩
  have reachable' : other.Reachable := ⟨_, _, _, _, rfl⟩
  have few : ∀ atom, atom ∈ one.weave.toList ↔ atom ∈ [root, left, right] := by
    intro atom
    refine weaves_rooted (by decide) ?_ _ _ rfl _
    have first : Rooted [root, left, right] root := .root (by simp) rfl
    simpa using ⟨first, first.effect (by simp) rfl, first.effect (by simp) rfl⟩
  have many : ∀ atom, atom ∈ other.weave.toList ↔ atom ∈ [below, right, left, aside, root] := by
    intro atom
    refine weaves_rooted (by decide) ?_ _ _ rfl _
    have first : Rooted [below, right, left, aside, root] root := .root (by simp) rfl
    have second : Rooted [below, right, left, aside, root] right := first.effect (by simp) rfl
    simpa using ⟨second.effect (by simp) rfl, second, first.effect (by simp) rfl,
      .root (by simp) rfl, first⟩
  clear_value one other
  have subset : ∀ atom ∈ one.weave.toList, atom ∈ other.weave.toList := by
    intro atom
    rw [few, many]
    simp only [List.mem_cons]
    tauto
  have coherent : Coherent (one.weave.toList ++ other.weave.toList) := by
    have unique : ([below, right, left, aside, root].map (·.id.key)).Nodup := by decide
    apply (coherent_of_unique unique).of_within (within_of_subset _)
    intro atom member
    exact (many atom).mp ((List.mem_append.mp member).elim (subset atom) id)
  have knows : ∀ atom ∈ one.weave.toList, one.weave.contains atom.id = true ∧
      other.weave.contains atom.id = true := by
    intro atom woven
    exact ⟨reachable.sound.weave.contains_iff.mpr ⟨atom, woven, rfl⟩,
      reachable'.sound.weave.contains_iff.mpr ⟨atom, subset atom woven, rfl⟩⟩
  obtain ⟨_, agree, contained⟩ := reachable.order_agrees reachable' coherent
  obtain ⟨here, there⟩ := knows right ((few right).mpr (by simp))
  obtain ⟨here', there'⟩ := knows left ((few left).mpr (by simp))
  have within := within_of_subset subset
  exact ⟨within, agree right.id left.id here there here' there', contained within⟩

end Replica
end CausalWeave
