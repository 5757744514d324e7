import CausalWeave.Proofs.Replica.Chronicle
import CausalWeave.Proofs.Replica.Freshness
import CausalWeave.Proofs.Simulation.Participant

namespace CausalWeave.Simulation.Participant

inductive Call where
  | author (rates : AuthoringRates) (generator : Generator)
  | receive (atom : Atom)
  | receiveAll (sequence : List Atom)

def perform (participant : Participant) : Call → Participant
  | .author rates generator => (participant.author rates generator).2.1
  | .receive atom => (participant.receive atom).2
  | .receiveAll sequence => (participant.receiveAll sequence).2

def after (number : Nat) (config : Replica.Config) (calls : List Call) : Participant :=
  calls.foldl perform (fresh number config)

/-- The noted ids name every woven atom once, each after its cause, and there is none left to note. -/
structure Informed (participant : Participant) : Prop where
  named : participant.woven.toList.Perm (participant.sequence.map (·.id))
  once : participant.woven.toList.Nodup
  causal : ∀ atom ∈ participant.sequence, ∀ cause ∈ atom.cause,
    [cause, atom.id].Sublist participant.woven.toList
  drained : participant.replica.observer.insertions = #[]

/-- Authoring fails for lack of timestamps only. An authored atom is woven, below a cause that was so
before or as a root. -/
structure Authors (participant : Participant)
    (result : Except Refusal Atom × Participant × Generator) : Prop where
  fails_iff : ∀ why, result.1 = .error why ↔
    why = .clockExhausted participant.replica.site ∧ participant.replica.clock.isExhausted = true
  woven : ∀ atom, result.1 = .ok atom → atom ∈ result.2.1.sequence
  causal : ∀ atom, result.1 = .ok atom → ∀ cause ∈ atom.cause,
    participant.replica.weave.contains cause = true

/-- A participant between two calls. -/
structure Steady (participant : Participant) : Prop where
  sound : participant.replica.Sound
  chronicled : participant.replica.weave.Chronicled participant.woven.toList
  drained : participant.replica.observer.insertions = #[]

namespace Steady

variable {participant : Participant} (steady : participant.Steady)

theorem fresh (number : Nat) (config : Replica.Config) : Steady (fresh number config) where
  sound := Replica.sound_fresh _ _ _
  chronicled := ⟨Weave.sound_empty, .nil, by simp [Participant.fresh, Replica.fresh]⟩
  drained := rfl

include steady

theorem informed : participant.Informed where
  named := steady.chronicled.named
  once := steady.chronicled.nodup
  causal := steady.chronicled.causal
  drained := steady.drained

/-- Noting what a replica has woven makes a participant steady again, whatever the replica was asked. -/
theorem noteWoven {later : Replica Recorder}
    (outlasts : ∀ {holds : Replica Recorder → Prop}, Replica.Stable holds →
      holds participant.replica → holds later) :
    Steady { participant with replica := later }.noteWoven := by
  have sound := outlasts Replica.stable_sound steady.sound
  have chronicled := outlasts (keptByInsertion_chronicled participant.woven.toList).stable
    (by simpa [steady.drained] using steady.chronicled)
  exact
    { sound := sound.observed _
      chronicled := by simpa [Participant.noteWoven, Recorder.drain] using chronicled
      drained := rfl }

theorem perform (call : Call) : (participant.perform call).Steady := by
  cases call with
  | author rates generator =>
    obtain ⟨payload, priority, authors⟩ := author_eq participant rates generator
    rw [Participant.perform, authors]
    exact steady.noteWoven fun stable start => stable.create start _ payload priority
  | receive atom => exact steady.noteWoven fun stable start => stable.receive atom start
  | receiveAll sequence => exact steady.noteWoven fun stable start => stable.receiveAll start sequence

/-- The cause that a participant draws is one that it has noted. -/
theorem contains_of_drawCause (rates : AuthoringRates) (generator : Generator) :
    ∀ id ∈ (participant.drawCause rates generator).1.1,
      participant.replica.weave.contains id = true := by
  intro id drawn
  exact steady.chronicled.mem_iff.mp (mem_of_drawCause participant rates generator id drawn)

theorem authors (rates : AuthoringRates) (generator : Generator) :
    participant.Authors (participant.author rates generator) := by
  have causal := steady.contains_of_drawCause rates generator
  obtain ⟨payload, priority, authors⟩ := author_eq participant rates generator
  rw [authors]
  rcases steady.sound.create causal payload priority with
    ⟨exhausted, failed⟩ | ⟨timestamp, _, _, later, recent, _, created, woven⟩
  · simp only [failed]
    exact ⟨by simp [exhausted, eq_comm], by simp, by simp⟩
  · have room := LamportClock.isExhausted_eq_false_of_lt recent
    simp only [created]
    refine ⟨by simp [room], ?_, ?_⟩
    · rintro atom ⟨⟩
      exact woven
    · rintro atom ⟨⟩
      exact causal

end Steady

theorem steady_after (number : Nat) (config : Replica.Config) (calls : List Call) :
    (after number config calls).Steady := by
  induction calls using List.reverseRecOn with
  | nil => exact .fresh number config
  | append_singleton calls call ih =>
    rw [after, List.foldl_append]
    exact ih.perform call

/-- Whatever a participant was asked before, it knows what it has woven, and can author an atom unless its
clock is exhausted. -/
theorem informed_after (number : Nat) (config : Replica.Config) (calls : List Call) :
    (after number config calls).Informed ∧ ∀ rates generator,
      (after number config calls).Authors ((after number config calls).author rates generator) := by
  have steady := steady_after number config calls
  exact ⟨steady.informed, steady.authors⟩

/-- A child that arrives before its root is noted behind it. -/
example :
    let root : Atom := { id := { site := ⟨"a"⟩, timestamp := 1 } }
    let child : Atom := { id := { site := ⟨"a"⟩, timestamp := 2 }, cause := some root.id }
    (after 1 .unbounded [.receive child, .receive root]).woven = #[root.id, child.id] := by
  intro root child
  dsimp +zetaDelta only
  cbv

end CausalWeave.Simulation.Participant
