namespace CausalWeave

structure Replica.Config where
  /-- How many atoms may wait for their causes; zero sets no limit. -/
  pendingLimit : Nat := 10000
  /-- The priority of atoms that are created without one. -/
  defaultPriority : Int32 := 0
deriving DecidableEq

namespace Replica.Config

def unbounded : Replica.Config where
  pendingLimit := 0

def bound (config : Replica.Config) : Option Nat :=
  if config.pendingLimit = 0 then none else some config.pendingLimit

end Replica.Config
end CausalWeave
