import CausalWeave.LamportClock
import CausalWeave.PendingBuffer.Cascade
import CausalWeave.Replica.Config

namespace CausalWeave

/-- What became of an atom that was not refused. -/
inductive Reception where
  /-- The atom was woven at an index, and set others free. -/
  | woven (position : Nat) (released : List Landing)
  /-- The atom was woven or held back already. -/
  | duplicate
  /-- The atom is held back until its cause arrives. -/
  | deferred
deriving DecidableEq

structure Intake where
  /-- How many atoms were woven, also of those that were set free. -/
  woven : Nat := 0
  duplicates : Nat := 0
  deferred : Nat := 0
  rejected : List Refusal := []
deriving DecidableEq

namespace Intake

def add (intake : Intake) : Except Refusal Reception → Intake
  | .ok (.woven _ released) => { intake with woven := intake.woven + 1 + released.length }
  | .ok .duplicate => { intake with duplicates := intake.duplicates + 1 }
  | .ok .deferred => { intake with deferred := intake.deferred + 1 }
  | .error why => { intake with rejected := intake.rejected ++ [why] }

end Intake

structure Replica (σ : Type u) where
  site : Site
  clock : LamportClock := {}
  weave : Weave := {}
  pending : PendingBuffer
  config : Replica.Config
  observer : σ

namespace Replica

/-- A replica that holds nothing yet. -/
def fresh (site : Site) (config : Replica.Config) (observer : σ) : Replica σ where
  site
  config
  observer
  pending := { limit := config.bound }

variable [Observer σ]

/-- Takes in one atom. The clock hears of its timestamp whatever becomes of it. Refusals of atoms
that it sets free are not reported. -/
def receive (replica : Replica σ) (atom : Atom) : Except Refusal Reception × Replica σ :=
  let heard := { replica with clock := replica.clock.observe atom.id.timestamp }
  match replica.weave.insertObserved replica.observer atom with
  | .error why => (.error why, heard)
  | .ok (.inserted position, weave, observer) =>
    let cascade := replica.pending.release weave observer atom.id
    (.ok (.woven position cascade.release.woven),
      { heard with
        weave := cascade.weave, pending := cascade.buffer, observer := cascade.observer })
  | .ok (.alreadyPresent, _) => (.ok .duplicate, heard)
  | .ok (.causeMissing, _) =>
    match replica.pending.hold atom with
    | .error why => (.error why, heard)
    | .ok (true, pending) => (.ok .deferred, { heard with pending })
    | .ok (false, _) => (.ok .duplicate, heard)

/-- Takes in atoms in order; a refusal does not stop the others. -/
def receiveAll (replica : Replica σ) (atoms : List Atom) : Intake × Replica σ :=
  atoms.foldl
    (fun (intake, replica) atom =>
      let (outcome, later) := replica.receive atom
      (intake.add outcome, later))
    ({}, replica)

/-- Takes in all that another replica has woven. -/
def merge (replica : Replica σ) (other : Replica τ) : Intake × Replica σ :=
  replica.receiveAll other.weave.toList

/-- Creates an atom at this site and takes it in. Its timestamp is later than all that the replica
has heard of; its cause need not have arrived. An id that is taken is refused even for an equal
atom. -/
def create (replica : Replica σ) (cause : Option AtomId) (payload : Payload)
    (priority : Int32 := replica.config.defaultPriority) : Except Refusal Atom × Replica σ :=
  match replica.clock.tick with
  | none => (.error (.clockExhausted replica.site), replica)
  | some (timestamp, clock) =>
    let atom : Atom := { id := { site := replica.site, timestamp, priority }, cause, payload }
    match { replica with clock }.receive atom with
    | (.ok .duplicate, later) => (.error (.identityCollision atom.id), later)
    | (.ok _, later) => (.ok atom, later)
    | (.error why, later) => (.error why, later)

end Replica
end CausalWeave
