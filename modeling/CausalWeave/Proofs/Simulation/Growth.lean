import CausalWeave.Proofs.Replica.Accounting
import CausalWeave.Proofs.Replica.Block
import CausalWeave.Proofs.Replica.Freshness
import CausalWeave.Proofs.Simulation.Participant

namespace CausalWeave

namespace Replica

variable [Observer σ] {replica : Replica σ} {atom : Atom}

def gained : Except Refusal Reception → Nat
  | .ok (.woven _ released) => 1 + released.length
  | _ => 0

namespace Encounter

variable {result : Except Refusal Reception × Replica σ} (encounter : replica.Encounter atom result)

include encounter

theorem length_toList :
    result.2.weave.toList.length = replica.weave.toList.length + gained result.1 := by
  cases encounter with
  | woven _ _ _ _ _ order walk ledger _ accounts _ =>
    have members := (woven_perm order walk accounts).length_eq
    have landed := congrArg List.length accounts.landed
    simp only [List.length_append, List.length_cons, List.length_map] at members landed
    simp only [gained, members, landed]
    omega
  | _ => rfl

/-- An atom sets nothing free that no woven atom names as its cause. -/
theorem released_eq_nil (sound : replica.Sound)
    (outcome : result.1 = .ok (.woven position released))
    (unnamed : ∀ other ∈ result.2.weave.toList, other.cause ≠ some atom.id) : released = [] := by
  have later := (encounter.sound sound).weave
  obtain ⟨before, after, landings, old, _, _, grown, waited, rfl⟩ := encounter.places outcome
  cases landings with
  | nil => rfl
  | cons landing rest =>
    exfalso
    have members : result.2.weave.toList.Perm
        (atom :: replica.weave.toList ++ (landing :: rest).map (·.1)) := by
      apply grown.perm.trans (List.Perm.append_right _ _)
      rw [old]
      exact List.perm_middle
    have landed : landing.1 ∈ (landing :: rest).map (·.1) := by simp
    have rooted := later.rooted (members.mem_iff.mpr (List.mem_append_right _ landed))
    have descends := sound.descends_of_landed members waited rooted landed
    obtain ⟨_, _, other, woven, _, caused⟩ := Relation.TransGen.tail'_iff.mp descends
    exact unnamed other woven caused

end Encounter

theorem toNat_clock_receiveAll_le {bound : Nat} (here : replica.clock.latest.toNat ≤ bound)
    {atoms : List Atom} (given : ∀ atom ∈ atoms, atom.id.timestamp.toNat ≤ bound) :
    (replica.receiveAll atoms).2.clock.latest.toNat ≤ bound := by
  induction atoms using List.reverseRecOn with
  | nil => exact here
  | append_singleton atoms atom ih =>
    have before := ih fun other member => given other (List.mem_append_left _ member)
    rw [receiveAll_concat, clock_receive, LamportClock.toNat_latest_observe]
    exact Nat.max_le.mpr ⟨before, given atom (by simp)⟩

/-- A created atom has the next timestamp, and the clock stands at it. -/
theorem toNat_clock_create {cause : Option AtomId} {payload : Payload} {priority : Int32}
    (created : (replica.create cause payload priority).1 = .ok atom) :
    (replica.create cause payload priority).2.clock.latest.toNat = replica.clock.latest.toNat + 1 := by
  cases tick : replica.clock.tick with
  | none => simp [create_eq_of_exhausted tick] at created
  | some next =>
    obtain ⟨timestamp, clock⟩ := next
    rw [create_of_tick tick, clock_receive, LamportClock.toNat_latest_observe]
    simp [ticked, authored, (LamportClock.toNat_of_tick tick).1]

/-- Creating an atom that no woven atom names as its cause weaves that atom alone. -/
theorem Sound.length_create (sound : replica.Sound) {cause : Option AtomId}
    (causal : ∀ id ∈ cause, replica.weave.contains id = true) {payload : Payload} {priority : Int32}
    (created : (replica.create cause payload priority).1 = .ok atom)
    (unnamed : ∀ other ∈ (replica.create cause payload priority).2.weave.toList,
      other.cause ≠ some atom.id) :
    (replica.create cause payload priority).2.weave.toList.length =
      replica.weave.toList.length + 1 := by
  rcases sound.create causal payload priority with
    ⟨_, failed⟩ | ⟨timestamp, position, released, later, recent, encounter, creates, _⟩
  · simp [failed] at created
  · rw [creates] at created unnamed ⊢
    cases created
    have nothing := encounter.released_eq_nil (sound.ticked recent) rfl unnamed
    have length := encounter.length_toList
    rw [nothing] at length
    exact length

end Replica

namespace Simulation

/-- No authored atom names one as its cause that is only just authored. -/
theorem History.unnamed (history : History authored) {atom : Atom}
    (fresh : ∀ other ∈ authored, other.id.key ≠ atom.id.key)
    (causal : ∀ cause ∈ atom.cause, ∃ parent ∈ authored,
      parent.id = cause ∧ cause.timestamp < atom.id.timestamp) :
    ∀ other ∈ authored ++ [atom], other.cause ≠ some atom.id := by
  intro other member caused
  obtain ⟨parent, present, same⟩ : ∃ parent ∈ authored, parent.id = atom.id := by
    rcases List.mem_append.mp member with earlier | here
    · obtain ⟨parent, present, same, _⟩ := history.parent earlier caused
      exact ⟨parent, present, same⟩
    · rw [List.mem_singleton.mp here] at caused
      obtain ⟨parent, present, same, _⟩ := causal atom.id caused
      exact ⟨parent, present, same⟩
  exact fresh parent present (congrArg AtomId.key same)

namespace Participant.Sound

variable {authored : List Atom} {number : Nat} {participant : Participant}
  (sound : Sound authored number participant)

include sound

theorem length_receive (atom : Atom) : (participant.receive atom).2.sequence.length =
    participant.sequence.length + Replica.gained (participant.receive atom).1 :=
  (sound.partakes.sound.encounter atom).length_toList

theorem length_receiveAll (atoms : List Atom) : (participant.receiveAll atoms).2.sequence.length =
    participant.sequence.length + (participant.receiveAll atoms).1.woven := by
  obtain ⟨departures, balance⟩ := sound.partakes.sound.balance_receiveAll atoms
  exact balance.woven

/-- Authoring fails when no timestamp is left, and then only. -/
theorem author_fails (rates : AuthoringRates) (generator : Generator) (why : Refusal)
    (refused : (participant.author rates generator).1 = .error why) :
    participant.replica.clock.latest.toNat = UInt64.size - 1 ∧
      (participant.author rates generator).2.1.sequence = participant.sequence ∧
      (participant.author rates generator).2.1.replica.clock = participant.replica.clock := by
  have causal : ∀ id ∈ (participant.drawCause rates generator).1.1,
      participant.replica.weave.contains id = true := by
    intro id drawn
    exact sound.partakes.contains_noted (mem_of_drawCause participant rates generator id drawn)
  obtain ⟨payload, priority, authors⟩ := author_eq participant rates generator
  rw [authors] at refused ⊢
  rcases sound.partakes.sound.create causal payload priority with
    ⟨exhausted, failed⟩ | ⟨_, _, _, _, _, _, creates, _⟩
  · have unchanged := congrArg Prod.snd failed
    exact ⟨by simpa [LamportClock.isExhausted] using exhausted,
      congrArg (·.weave.toList) unchanged, congrArg (·.clock) unchanged⟩
  · simp [creates] at refused

/-- The clock of an author moves on by one, and the sequence gets longer by one. -/
theorem author_grows (history : History authored) (rates : AuthoringRates) (generator : Generator)
    (atom : Atom) (created : (participant.author rates generator).1 = .ok atom) :
    (participant.author rates generator).2.1.sequence.length = participant.sequence.length + 1 ∧
      (participant.author rates generator).2.1.replica.clock.latest.toNat =
        participant.replica.clock.latest.toNat + 1 := by
  rcases sound.author rates generator with
    ⟨why, refused, _⟩ | ⟨other, accepted, _, fresh, causal, later⟩
  · simp [created] at refused
  · rw [created] at accepted
    cases accepted
    have woven := fun other member => history.unnamed fresh causal other (later.partakes.woven member)
    obtain ⟨payload, priority, authors⟩ := author_eq participant rates generator
    rw [authors] at created woven ⊢
    refine ⟨sound.partakes.sound.length_create ?_ created woven, Replica.toNat_clock_create created⟩
    intro id drawn
    exact sound.partakes.contains_noted (mem_of_drawCause participant rates generator id drawn)

end Participant.Sound

end Simulation
end CausalWeave
