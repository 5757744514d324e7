import CausalWeave.Generator
import CausalWeave.Replica
import CausalWeave.Weave.Digest

namespace CausalWeave.Simulation

/-- What a participant holds at one moment. -/
structure Snapshot where
  number : Nat
  site : Site
  digest : String
  sequence : List Atom
  /-- How many atoms wait for their causes. -/
  pending : Nat

/-- How authored atoms relate to the others, in percent. -/
structure AuthoringRates where
  /-- How often an atom is a root although there are causes. -/
  rootPercent : UInt8 := 0
  /-- How often an atom deletes its cause. -/
  tombstonePercent : UInt8 := 0
deriving DecidableEq

structure Participant where
  number : Nat
  replica : Replica Recorder
  /-- The ids of the woven atoms, in the order in which they were woven. -/
  woven : Array AtomId := #[]

namespace Participant

/-- A tombstone comes before its siblings, next to the atom that it deletes. -/
def tombstonePriority : Int32 := 1

def fresh (number : Nat) (config : Replica.Config) : Participant where
  number
  replica := Replica.fresh { name := "r" ++ toString number } config {}

/-- Moves what the recorder has heard of to the woven ids. -/
def noteWoven (participant : Participant) : Participant :=
  let (insertions, observer) := participant.replica.observer.drain
  { participant with
    replica := { participant.replica with observer }
    woven := participant.woven ++ insertions.map (·.atomId) }

def tombstone (target : AtomId) : Payload :=
  .json (.object [("delete", .text target.shown)])

/-- The text of an atom that is no tombstone: its author, and how many atoms were woven. -/
def label (participant : Participant) : Payload :=
  .text (participant.replica.site.name ++ ":" ++ toString participant.woven.size)

/-- Draws the cause of the next atom, and whether the atom deletes it. -/
def drawCause (participant : Participant) (rates : AuthoringRates) (generator : Generator) :
    (Option AtomId × Bool) × Generator :=
  let (isRoot, generator) := generator.hits rates.rootPercent
  if isRoot then ((none, false), generator)
  else
    match generator.choose participant.woven with
    | (none, generator) => ((none, false), generator)
    | (some cause, generator) =>
      let (deletes, generator) := generator.hits rates.tombstonePercent
      ((some cause, deletes), generator)

/-- Authors an atom: a root, or a child of a woven atom. -/
def author (participant : Participant) (rates : AuthoringRates) (generator : Generator) :
    Except Refusal Atom × Participant × Generator :=
  let (drawn, generator) := participant.drawCause rates generator
  let (outcome, replica) :=
    match drawn with
    | (some target, true) =>
      participant.replica.create (some target) (tombstone target) tombstonePriority
    | (cause, _) => participant.replica.create cause participant.label
  (outcome, { participant with replica }.noteWoven, generator)

def receive (participant : Participant) (atom : Atom) : Except Refusal Reception × Participant :=
  let (outcome, replica) := participant.replica.receive atom
  (outcome, { participant with replica }.noteWoven)

def sequence (participant : Participant) : List Atom :=
  participant.replica.weave.toList

def receiveAll (participant : Participant) (sequence : List Atom) : Intake × Participant :=
  let (intake, replica) := participant.replica.receiveAll sequence
  (intake, { participant with replica }.noteWoven)

def snapshot (participant : Participant) : Snapshot where
  number := participant.number
  site := participant.replica.site
  digest := participant.replica.weave.digest
  sequence := participant.sequence
  pending := participant.replica.pending.size

end Participant
end CausalWeave.Simulation
