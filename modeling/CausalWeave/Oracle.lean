import CausalWeave.Oracle.Violation

namespace CausalWeave.Oracle

open CausalWeave.Simulation (Snapshot)

structure Verdict where
  violations : List Violation
deriving DecidableEq

namespace Verdict

def passed (verdict : Verdict) : Bool :=
  verdict.violations.isEmpty

def toJson (verdict : Verdict) : Json :=
  .object
    [("passed", .bool verdict.passed),
      ("violations", .ofList Violation.toJson verdict.violations)]

end Verdict

/-- The ids of a sequence that another one lacks, in order. -/
def lacking (sequence other : List Atom) : List AtomId :=
  (sequence.map (·.id)).filter fun id => !(other.any (·.id == id))

/-- What tells two snapshots apart, if their digests do. -/
def divergence? (first second : Snapshot) : Option Violation :=
  if first.digest = second.digest then none
  else
    some (.convergence first.number second.number first.digest second.digest
      (lacking first.sequence second.sequence) (lacking second.sequence first.sequence))

def convergence : List Snapshot → List Violation
  | [] => []
  | first :: others => others.filterMap (divergence? first) ++ convergence others

/-- A replica without limits that has taken in the atoms in order. -/
def replicaOf (atoms : List Atom) : Replica Unit :=
  ((Replica.fresh { name := "oracle" } .unbounded ()).receiveAll atoms).2

/-- Takes in the atoms in a number of drawn orders, the first of which has the given number. -/
def commutativityFrom (atoms : List Atom) (expected : String) (generator : Generator)
    (permutation : Nat) : Nat → List Violation × Generator
  | 0 => ([], generator)
  | count + 1 =>
    let (shuffled, generator) := generator.shuffle atoms.toArray
    let actual := (replicaOf shuffled.toList).weave.digest
    let (violations, generator) :=
      commutativityFrom atoms expected generator (permutation + 1) count
    (if actual = expected then violations
      else .commutativity permutation expected actual :: violations, generator)

/-- Compares drawn orders of arrival with the given one. A single atom has no other order. -/
def commutativity (atoms : List Atom) (generator : Generator) (iterations : Nat) :
    List Violation × Generator :=
  if atoms.length < 2 then ([], generator)
  else commutativityFrom atoms (replicaOf atoms).weave.digest generator 0 iterations

def idempotenceFrom (replica : Replica Unit) (before : String) : List Atom → List Violation
  | [] => []
  | atom :: rest =>
    let (outcome, later) := replica.receive atom
    let after := later.weave.digest
    let violations := idempotenceFrom later after rest
    let isDuplicate :=
      match outcome with
      | .ok .duplicate => true
      | _ => false
    if isDuplicate && after == before then violations
    else .idempotence atom.id before after :: violations

def idempotence (atoms : List Atom) : List Violation :=
  let replica := replicaOf atoms
  idempotenceFrom replica replica.weave.digest atoms

/-- The last index of an id in a sequence whose first atom has the given index. -/
def lastIndexFrom? (id : AtomId) (index : Nat) : List Atom → Option Nat
  | [] => none
  | atom :: rest =>
    match lastIndexFrom? id (index + 1) rest with
    | some later => some later
    | none => if atom.id = id then some index else none

/-- Looks for an atom whose cause does not come before it. -/
def causalityOf (snapshot : Snapshot) : List Violation :=
  snapshot.sequence.zipIdx.filterMap fun (atom, index) =>
    match atom.cause with
    | none => none
    | some cause =>
      if (lastIndexFrom? cause 0 snapshot.sequence).any (· < index) then none
      else some (.causalOrder snapshot.number atom.id cause)

def causality (snapshots : List Snapshot) : List Violation :=
  snapshots.flatMap causalityOf

/-- Walks a sequence with the ids of the subtrees that are still open, the innermost one first. An
atom ends the subtrees inside that of its cause; if that one is not open, it begins anew. -/
def contiguityFrom (replica : Nat) (ancestors : List AtomId) : List Atom → List Violation
  | [] => []
  | atom :: rest =>
    match atom.cause with
    | none => contiguityFrom replica [atom.id] rest
    | some cause =>
      match ancestors.dropWhile (· != cause) with
      | [] => .contiguity replica atom.id cause :: contiguityFrom replica [atom.id] rest
      | closest => contiguityFrom replica (atom.id :: closest) rest

def contiguity (snapshots : List Snapshot) : List Violation :=
  snapshots.flatMap fun snapshot => contiguityFrom snapshot.number [] snapshot.sequence

def drained (snapshots : List Snapshot) : List Violation :=
  (snapshots.filter (0 < ·.pending)).map fun snapshot =>
    .pendingNotDrained snapshot.number snapshot.pending

def permutationCount : Nat := 8

/-- All checks on the final snapshots and on the atoms that were authored. -/
def judge (snapshots : List Snapshot) (atoms : List Atom) (generator : Generator) :
    Verdict × Generator :=
  let (permuted, generator) := commutativity atoms generator permutationCount
  ({ violations :=
      convergence snapshots ++ permuted ++ idempotence atoms ++
        causality snapshots ++ contiguity snapshots ++ drained snapshots },
    generator)

end CausalWeave.Oracle
