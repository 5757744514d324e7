import CausalWeave.Atom

namespace CausalWeave

structure Insertion where
  atomId : AtomId
  cause : Option AtomId
  payload : Payload
  /-- Its index in the order right after it was placed. -/
  position : Nat

def Atom.placedAt (atom : Atom) (position : Nat) : Insertion where
  atomId := atom.id
  cause := atom.cause
  payload := atom.payload
  position := position

class Observer (σ : Type u) where
  notice : σ → Insertion → σ

/-- The observer that has no state ignores every atom. -/
instance : Observer Unit where
  notice _ _ := ()

/-- The observer that keeps every insertion until it is drained. -/
structure Recorder where
  insertions : Array Insertion := #[]

instance : Observer Recorder where
  notice recorder insertion := { insertions := recorder.insertions.push insertion }

def Recorder.drain (recorder : Recorder) : List Insertion × Recorder :=
  (recorder.insertions.toList, {})

@[simp] theorem Recorder.toList_notice (recorder : Recorder) (insertion : Insertion) :
    (Observer.notice recorder insertion).insertions.toList =
      recorder.insertions.toList ++ [insertion] := by
  simp [Observer.notice]

end CausalWeave
