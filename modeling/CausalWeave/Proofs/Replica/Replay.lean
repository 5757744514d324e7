import CausalWeave.Proofs.Replica.Reachable
import CausalWeave.Proofs.Replica.Recording

namespace CausalWeave

def Insertion.atom (insertion : Insertion) : Atom where
  id := insertion.atomId
  cause := insertion.cause
  payload := insertion.payload

/-- The list with the atom of an insertion at its index; none when the list is too short for that. -/
def Insertion.patch? (atoms : List Atom) (insertion : Insertion) : Option (List Atom) :=
  if insertion.position ≤ atoms.length then
    some (atoms.insertIdx insertion.position insertion.atom)
  else none

def replay? (atoms : List Atom) (insertions : List Insertion) : Option (List Atom) :=
  insertions.foldlM Insertion.patch? atoms

theorem patch?_placedAt (before after : List Atom) (atom : Atom) :
    Insertion.patch? (before ++ after) (atom.placedAt before.length) =
      some (before ++ atom :: after) := by
  simp [Insertion.patch?, Insertion.atom, Atom.placedAt, insertIdx_append]

theorem replay?_append (atoms : List Atom) (first second : List Insertion) :
    replay? atoms (first ++ second) = (replay? atoms first).bind (replay? · second) :=
  List.foldlM_append

/-- Replaying the placements by which a list has grown leads from its start to the list. -/
theorem Grows.replay? (grows : Grows start landings list) :
    replay? start (landings.map fun landing => landing.1.placedAt landing.2) = some list := by
  induction grows with
  | refl => rfl
  | @place landings before after atom _ ih =>
    rw [List.map_append, replay?_append, ih, Option.bind_some]
    simp [CausalWeave.replay?, patch?_placedAt]

namespace Replica

/-- Replaying what the recorder holds on a copy leads to the sequence of the replica. -/
def Replays (copy : List Atom) (replica : Replica Recorder) : Prop :=
  replay? copy replica.observer.insertions.toList = some replica.weave.toList

theorem Encounter.replays {replica : Replica Recorder} (replays : replica.Replays copy)
    (encounter : replica.Encounter atom result) : result.2.Replays copy := by
  obtain ⟨landings, grown, observed⟩ := encounter.grows
  rw [Replays, observed, toList_foldl_notice, replay?_append, replays]
  exact grown.replay?

theorem stable_replays (copy : List Atom) :
    Stable fun replica : Replica Recorder => replica.Sound ∧ replica.Replays copy where
  tick := by
    intro replica timestamp holds later
    exact ⟨holds.1.ticked later, holds.2⟩
  receive := by
    intro replica atom holds
    exact ⟨holds.1.receive atom, (holds.1.encounter atom).replays holds.2⟩

/-- A replica whose recorder is drained from time to time, and a copy of its sequence that is made of
the drained insertions. -/
structure Mirror where
  replica : Replica Recorder
  /-- None once an insertion did not fit. -/
  copy : Option (List Atom) := some []

namespace Mirror

def refresh (mirror : Mirror) (operations : List Operation) : Mirror :=
  let later := operations.foldl perform mirror.replica
  let (insertions, observer) := later.observer.drain
  { replica := { later with observer }, copy := mirror.copy.bind (replay? · insertions) }

def after (site : Site) (config : Replica.Config) (batches : List (List Operation)) : Mirror :=
  batches.foldl refresh { replica := fresh site config {} }

/-- The copy is up to date and the recorder has nothing to add to it. -/
structure Current (mirror : Mirror) : Prop where
  sound : mirror.replica.Sound
  copied : mirror.copy = some mirror.replica.weave.toList
  drained : mirror.replica.observer.insertions = #[]

theorem current_fresh (site : Site) (config : Replica.Config) :
    Current { replica := fresh site config {} } where
  sound := sound_fresh site config _
  copied := rfl
  drained := rfl

theorem Current.refresh {mirror : Mirror} (current : mirror.Current) (operations : List Operation) :
    (mirror.refresh operations).Current := by
  have start : mirror.replica.Replays mirror.replica.weave.toList := by
    rw [Replays, current.drained]
    rfl
  obtain ⟨sound, replays⟩ :=
    (stable_replays mirror.replica.weave.toList).foldl_perform ⟨current.sound, start⟩ operations
  exact
    { sound := sound.observed _
      copied := by
        rw [Mirror.refresh, current.copied]
        exact replays
      drained := rfl }

theorem current_after (site : Site) (config : Replica.Config) (batches : List (List Operation)) :
    (after site config batches).Current := by
  induction batches using List.reverseRecOn with
  | nil => exact current_fresh site config
  | append_singleton batches operations ih =>
    rw [after, List.foldl_append]
    exact ih.refresh operations

/-- Whatever is asked of a replica and whenever its recorder is drained, every drained insertion fits
into the copy, and the copy is then the sequence. -/
theorem copy_after (site : Site) (config : Replica.Config) (batches : List (List Operation)) :
    (after site config batches).copy = some (after site config batches).replica.weave.toList :=
  (current_after site config batches).copied

end Mirror

end Replica
end CausalWeave
