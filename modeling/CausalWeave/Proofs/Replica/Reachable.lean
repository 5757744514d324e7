import CausalWeave.Proofs.Replica.Creation
import Mathlib.Data.List.Induction

namespace CausalWeave.Replica

inductive Operation where
  /-- An atom that is created without a priority gets the configured one. -/
  | create (cause : Option AtomId) (payload : Payload) (priority : Option Int32)
  | receive (atom : Atom)
  | receiveAll (atoms : List Atom)
  | merge {τ : Type} (other : Replica τ)

variable [Observer σ]

def perform (replica : Replica σ) : Operation → Replica σ
  | .create cause payload priority =>
    (replica.create cause payload (priority.getD replica.config.defaultPriority)).2
  | .receive atom => (replica.receive atom).2
  | .receiveAll atoms => (replica.receiveAll atoms).2
  | .merge other => (replica.merge other).2

/-- The replica after some operations, which began with a fresh one. -/
def after (site : Site) (config : Replica.Config) (observer : σ) (operations : List Operation) :
    Replica σ :=
  operations.foldl perform (fresh site config observer)

def Reachable (replica : Replica σ) : Prop :=
  ∃ site config observer operations, after site config observer operations = replica

/-- Creating an atom changes nothing, or the clock ticks and the new atom is received. -/
theorem create_eq_or (replica : Replica σ) (cause : Option AtomId) (payload : Payload)
    (priority : Int32) : (replica.create cause payload priority).2 = replica ∨
      ∃ timestamp, replica.clock.latest < timestamp ∧
        (replica.create cause payload priority).2 =
          ((replica.ticked timestamp).receive (replica.authored timestamp cause payload priority)).2 := by
  cases tick : replica.clock.tick with
  | none =>
    left
    simp [create, tick]
  | some next =>
    right
    obtain ⟨timestamp, clock⟩ := next
    exact ⟨timestamp, (LamportClock.lt_of_tick tick).1, by rw [create_of_tick tick]⟩

/-- A property that neither a tick of the clock nor the reception of an atom ends. -/
structure Stable (holds : Replica σ → Prop) : Prop where
  tick : ∀ {replica timestamp}, holds replica → replica.clock.latest < timestamp →
    holds (replica.ticked timestamp)
  receive : ∀ {replica} atom, holds replica → holds (replica.receive atom).2

namespace Stable

variable {holds : Replica σ → Prop} (stable : Stable holds) {replica : Replica σ}

include stable

theorem create (start : holds replica) (cause : Option AtomId) (payload : Payload)
    (priority : Int32) : holds (replica.create cause payload priority).2 := by
  rcases replica.create_eq_or cause payload priority with same | ⟨timestamp, later, created⟩
  · rw [same]
    exact start
  · rw [created]
    exact stable.receive _ (stable.tick start later)

theorem receiveAll (start : holds replica) (atoms : List Atom) :
    holds (replica.receiveAll atoms).2 := by
  induction atoms using List.reverseRecOn with
  | nil => exact start
  | append_singleton atoms atom ih =>
    rw [receiveAll_concat]
    exact stable.receive atom ih

theorem perform (start : holds replica) (operation : Operation) :
    holds (replica.perform operation) := by
  cases operation with
  | create cause payload priority => exact stable.create start cause payload _
  | receive atom => exact stable.receive atom start
  | receiveAll atoms => exact stable.receiveAll start atoms
  | merge other => exact stable.receiveAll start other.weave.toList

theorem foldl_perform (start : holds replica) (operations : List Operation) :
    holds (operations.foldl Replica.perform replica) := by
  induction operations generalizing replica with
  | nil => exact start
  | cons operation rest ih => exact ih (stable.perform start operation)

end Stable

theorem Reachable.of_stable {holds : Replica σ → Prop} (stable : Stable holds)
    (start : ∀ site config observer, holds (fresh site config observer)) {replica : Replica σ}
    (reachable : replica.Reachable) : holds replica := by
  obtain ⟨site, config, observer, operations, rfl⟩ := reachable
  exact stable.foldl_perform (start site config observer) operations

theorem stable_sound : Stable (fun replica : Replica σ => replica.Sound) where
  tick sound later := sound.ticked later
  receive atom sound := sound.receive atom

theorem config_after (site : Site) (config : Replica.Config) (observer : σ)
    (operations : List Operation) : (after site config observer operations).config = config := by
  have stable : Stable fun replica : Replica σ => replica.Sound ∧ replica.config = config :=
    { tick := fun ⟨sound, same⟩ later => ⟨sound.ticked later, same⟩
      receive := fun atom ⟨sound, same⟩ =>
        ⟨sound.receive atom, (sound.encounter atom).config.trans same⟩ }
  exact (stable.foldl_perform ⟨sound_fresh site config observer, rfl⟩ operations).2

theorem Reachable.sound {replica : Replica σ} (reachable : replica.Reachable) : replica.Sound :=
  reachable.of_stable stable_sound sound_fresh

theorem mem_of_held_after (site : Site) (config : Replica.Config) (observer : σ)
    (received : List Atom) :
    ∀ atom ∈ (after site config observer (received.map .receive)).held, atom ∈ received := by
  induction received using List.reverseRecOn with
  | nil => simp [after, held_fresh]
  | append_singleton received atom ih =>
    have earlier : (after site config observer (received.map .receive)).Reachable :=
      ⟨site, config, observer, _, rfl⟩
    intro other held
    rw [after, List.map_append, List.foldl_append] at held
    rcases List.mem_cons.mp ((earlier.sound.encounter atom).held_subset other held) with here | old
    · simp [here]
    · exact List.mem_append_left _ (ih other old)

end CausalWeave.Replica
