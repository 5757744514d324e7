import CausalWeave.Simulation.Participant

namespace CausalWeave.Simulation

structure Convergence where
  converged : Bool
  /-- The participants whose digest is not that of the first one. -/
  divergent : List Nat
  /-- How many atoms the first one has woven. -/
  canonicalLength : Nat
  canonicalDigest : String
deriving DecidableEq

def Convergence.ofSnapshots : List Snapshot → Convergence
  | [] => { converged := true, divergent := [], canonicalLength := 0, canonicalDigest := "" }
  | first :: others =>
    let divergent := ((first :: others).filter (·.digest != first.digest)).map (·.number)
    { converged := divergent.isEmpty
      divergent
      canonicalLength := first.sequence.length
      canonicalDigest := first.digest }

end CausalWeave.Simulation
