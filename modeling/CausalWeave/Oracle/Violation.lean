import CausalWeave.Simulation.Encoding

namespace CausalWeave.Oracle

inductive Violation where
  /-- Two replicas ended with different sequences; each holds ids that the other one lacks. -/
  | convergence (first second : Nat) (firstDigest secondDigest : String)
      (onlyInFirst onlyInSecond : List AtomId)
  /-- The atoms gave another sequence when they arrived in another order. -/
  | commutativity (permutation : Nat) (expected actual : String)
  /-- A second delivery of a woven atom was not a duplicate that changes nothing. -/
  | idempotence (atom : AtomId) (before after : String)
  /-- The cause of a woven atom does not come before it. -/
  | causalOrder (replica : Nat) (atom cause : AtomId)
  /-- An atom stands outside the subtree of its cause. -/
  | contiguity (replica : Nat) (atom cause : AtomId)
  /-- Atoms still wait for their causes. -/
  | pendingNotDrained (replica waiting : Nat)
deriving DecidableEq

namespace Violation

def idsText (ids : List AtomId) : String :=
  "[" ++ String.intercalate ", " (ids.map AtomId.shown) ++ "]"

def message : Violation → String
  | convergence first second firstDigest secondDigest onlyInFirst onlyInSecond =>
    "Convergence: replicas " ++ toString first ++ " and " ++ toString second ++ " diverge (" ++
      firstDigest ++ " vs " ++ secondDigest ++ "; only_in_a=" ++ idsText onlyInFirst ++
      ", only_in_b=" ++ idsText onlyInSecond ++ ")"
  | commutativity permutation expected actual =>
    "Commutativity: permutation " ++ toString permutation ++ " rebuilt " ++ actual ++
      ", expected " ++ expected
  | idempotence atom before after =>
    "Idempotence: re-ingesting " ++ atom.shown ++ " was not a no-op (" ++ before ++ " -> " ++
      after ++ ")"
  | causalOrder replica atom cause =>
    "CausalOrder: replica " ++ toString replica ++ " wove " ++ atom.shown ++ " without " ++
      cause.shown ++ " before it"
  | contiguity replica atom cause =>
    "Contiguity: replica " ++ toString replica ++ " placed " ++ atom.shown ++
      " outside the subtree of " ++ cause.shown
  | pendingNotDrained replica waiting =>
    "PendingNotDrained: replica " ++ toString replica ++ " still buffers " ++ toString waiting ++
      " atoms"

/-- An object whose only field is named for the kind of violation. -/
def toJson : Violation → Json
  | convergence first second firstDigest secondDigest onlyInFirst onlyInSecond =>
    .object
      [("Convergence", .object
        [("replica_a", .ofNat first), ("replica_b", .ofNat second),
          ("digest_a", .text firstDigest), ("digest_b", .text secondDigest),
          ("only_in_a", .ofList AtomId.toJson onlyInFirst),
          ("only_in_b", .ofList AtomId.toJson onlyInSecond)])]
  | commutativity permutation expected actual =>
    .object
      [("Commutativity", .object
        [("permutation_index", .ofNat permutation), ("expected_digest", .text expected),
          ("actual_digest", .text actual)])]
  | idempotence atom before after =>
    .object
      [("Idempotence", .object
        [("atom", atom.toJson), ("digest_before", .text before), ("digest_after", .text after)])]
  | causalOrder replica atom cause =>
    .object
      [("CausalOrder", .object
        [("replica", .ofNat replica), ("atom", atom.toJson), ("cause", cause.toJson)])]
  | contiguity replica atom cause =>
    .object
      [("Contiguity", .object
        [("replica", .ofNat replica), ("atom", atom.toJson), ("cause", cause.toJson)])]
  | pendingNotDrained replica waiting =>
    .object
      [("PendingNotDrained", .object
        [("replica", .ofNat replica), ("waiting", .ofNat waiting)])]

end Violation
end CausalWeave.Oracle
