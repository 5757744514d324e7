namespace CausalWeave

inductive ErrorCode where
  | configUnreadable
  | identityCollision
  | selfCausation
  | causalCycle
  | clockExhausted
  | pendingBufferFull
  | sequenceUnreadable
  | sequenceUnwritable
deriving DecidableEq

namespace ErrorCode

def code : ErrorCode → String
  | configUnreadable => "E1001"
  | identityCollision => "E2002"
  | selfCausation => "E2003"
  | causalCycle => "E2004"
  | clockExhausted => "E2005"
  | pendingBufferFull => "E3001"
  | sequenceUnreadable => "E4001"
  | sequenceUnwritable => "E4002"

/-- The name by which a code is known outside. -/
def name : ErrorCode → String
  | configUnreadable => "ConfigParseError"
  | identityCollision => "IdentityCollision"
  | selfCausation => "SelfCausation"
  | causalCycle => "CausalCycle"
  | clockExhausted => "ClockExhausted"
  | pendingBufferFull => "PendingBufferFull"
  | sequenceUnreadable => "SequenceDecodeFailed"
  | sequenceUnwritable => "SequenceEncodeFailed"

def message : ErrorCode → String
  | configUnreadable => "Replica config parse error"
  | identityCollision => "Atom identity collision"
  | selfCausation => "Atom names itself as its cause"
  | causalCycle => "Atom causes form a cycle"
  | clockExhausted => "Lamport clock exhausted"
  | pendingBufferFull => "Pending buffer is full"
  | sequenceUnreadable => "Atom sequence decode failed"
  | sequenceUnwritable => "Atom sequence encode failed"

def hint : ErrorCode → Option String
  | configUnreadable => some "Fix syntax in the replica config file and retry."
  | identityCollision =>
    some "A site reused a timestamp. Check the peer's clock or stop accepting its atoms."
  | selfCausation | causalCycle => some "Reject the peer that produced this atom."
  | clockExhausted =>
    some ("A timestamp of u64::MAX was observed. Find the peer that sent it; " ++
      "this site cannot create atoms.")
  | pendingBufferFull =>
    some ("Deliver the missing causes first, or raise `pending_limit` in the replica config.")
  | sequenceUnreadable => some "Re-fetch the sequence from the peer."
  | sequenceUnwritable => none

def all : List ErrorCode :=
  [configUnreadable, identityCollision, selfCausation, causalCycle, clockExhausted,
    pendingBufferFull, sequenceUnreadable, sequenceUnwritable]

theorem mem_all (code : ErrorCode) : code ∈ all := by
  cases code <;> decide

def ofName? (name : String) : Option ErrorCode :=
  all.find? (·.name == name)

theorem ofName?_name (code : ErrorCode) : ofName? code.name = some code := by
  cases code <;> decide

end ErrorCode
end CausalWeave
