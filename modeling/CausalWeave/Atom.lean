import CausalWeave.AtomId
import CausalWeave.Json

namespace CausalWeave

inductive Payload where
  | empty
  | bytes (value : List UInt8)
  | text (value : String)
  | json (value : Json)

namespace Payload

def same : Payload → Payload → Bool
  | empty, empty => true
  | bytes first, bytes second => first == second
  | text first, text second => first == second
  | json first, json second => first.same second
  | _, _ => false

theorem same_refl (payload : Payload) : payload.same payload = true := by
  cases payload <;> simp [same, Json.same_refl]

end Payload

/-- An atom without a cause is a root. -/
structure Atom where
  id : AtomId
  cause : Option AtomId := none
  payload : Payload := .empty

namespace Atom

def isRoot (atom : Atom) : Bool :=
  atom.cause.isNone

/-- The test that tells a second delivery of an atom from another atom under its id. -/
def same (first second : Atom) : Bool :=
  first.id == second.id && first.cause == second.cause && first.payload.same second.payload

theorem same_refl (atom : Atom) : atom.same atom = true := by
  simp [same, Payload.same_refl]

theorem id_eq_of_same {first second : Atom} (agree : first.same second = true) :
    first.id = second.id := by
  simp only [same, Bool.and_eq_true, beq_iff_eq] at agree
  exact agree.1.1

theorem cause_eq_of_same {first second : Atom} (agree : first.same second = true) :
    first.cause = second.cause := by
  simp only [same, Bool.and_eq_true, beq_iff_eq] at agree
  exact agree.1.2

end Atom
end CausalWeave
