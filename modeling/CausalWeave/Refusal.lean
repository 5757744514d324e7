import CausalWeave.AtomId
import CausalWeave.ErrorCode

namespace CausalWeave

inductive Refusal where
  /-- Another atom with this site and timestamp is held. -/
  | identityCollision (id : AtomId)
  /-- The atom names itself as its cause. -/
  | selfCausation (id : AtomId)
  /-- The causes of buffered atoms lead from the atom's cause back to the atom. -/
  | causalCycle (id cause : AtomId)
  /-- The clock of the site has no timestamp left. -/
  | clockExhausted (site : Site)
  /-- The buffer holds as many atoms as it may. -/
  | pendingBufferFull (limit : Nat) (id cause : AtomId)
deriving DecidableEq

namespace Refusal

def code : Refusal → ErrorCode
  | identityCollision _ => .identityCollision
  | selfCausation _ => .selfCausation
  | causalCycle _ _ => .causalCycle
  | clockExhausted _ => .clockExhausted
  | pendingBufferFull _ _ _ => .pendingBufferFull

def message : Refusal → String
  | identityCollision id => "identity collision on atom " ++ id.shown
  | selfCausation id => "atom " ++ id.shown ++ " names itself as its cause"
  | causalCycle id cause =>
    "atom " ++ id.shown ++ " waits on " ++ cause.shown ++ ", which already waits on " ++ id.shown
  | clockExhausted site => "lamport clock for site " ++ site.name ++ " is exhausted"
  | pendingBufferFull limit id cause =>
    "pending buffer full (" ++ toString limit ++ " atoms); rejected atom " ++ id.shown ++
      " waiting on " ++ cause.shown

end Refusal
end CausalWeave
