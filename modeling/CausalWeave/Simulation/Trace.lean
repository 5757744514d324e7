import CausalWeave.Replica

namespace CausalWeave.Simulation

/-- What became of a delivered atom that was not refused. -/
inductive Arrival where
  | woven (position released : Nat)
  | duplicate
  | deferred
deriving DecidableEq

def Arrival.ofReception : Reception → Arrival
  | .woven position released => woven position released.length
  | .duplicate => duplicate
  | .deferred => deferred

inductive Event where
  | emit (replica : Nat) (atom : Atom)
  | send (sender receiver : Nat) (atom : AtomId) (dropped duplicated : Bool) (delay : Nat)
  | deliver (sender receiver : Nat) (atom : AtomId) (outcome : Arrival)
  /-- The messages of a round were shuffled. -/
  | reorder (messages : Nat)
  /-- A replica was isolated or connected again. -/
  | partition (replica : Nat) (isolated : Bool)
  /-- A replica refused a delivered atom. -/
  | reject (replica : Nat) (atom : AtomId) (why : Refusal)
  /-- Atoms were woven in the final exchange of whole sequences. -/
  | sync (sender receiver woven : Nat)

structure TraceStep where
  /-- The final exchange counts as a round after all others. -/
  round : Nat
  event : Event

def authoredAtoms (trace : List TraceStep) : List Atom :=
  trace.filterMap fun step =>
    match step.event with
    | .emit _ atom => some atom
    | _ => none

end CausalWeave.Simulation
