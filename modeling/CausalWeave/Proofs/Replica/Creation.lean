import CausalWeave.Proofs.Replica.Reception

namespace CausalWeave

theorem LamportClock.toNat_of_tick {clock : LamportClock}
    (ticked : clock.tick = some (timestamp, later)) :
    timestamp.toNat = clock.latest.toNat + 1 ∧ later = { latest := timestamp } := by
  simp only [tick, isExhausted, Option.ite_none_left_eq_some, Option.some.injEq, Prod.mk.injEq,
    decide_eq_true_eq] at ticked
  obtain ⟨room, rfl, rfl⟩ := ticked
  have bound := clock.latest.toNat_lt
  refine ⟨?_, rfl⟩
  rw [UInt64.toNat_add, UInt64.toNat_one, Nat.mod_eq_of_lt]
  simp only [UInt64.size] at room
  omega

theorem LamportClock.lt_of_tick {clock : LamportClock} (ticked : clock.tick = some (timestamp, later)) :
    clock.latest < timestamp ∧ later = { latest := timestamp } := by
  obtain ⟨next, issued⟩ := toNat_of_tick ticked
  refine ⟨UInt64.lt_iff_toNat_lt.mpr ?_, issued⟩
  omega

/-- A clock that can still move on has timestamps left. -/
theorem LamportClock.isExhausted_eq_false_of_lt {clock : LamportClock} {timestamp : UInt64}
    (later : clock.latest < timestamp) : clock.isExhausted = false := by
  have further := UInt64.lt_iff_toNat_lt.mp later
  have bound := timestamp.toNat_lt_size
  simp only [isExhausted, decide_eq_false_iff_not]
  omega

namespace Replica

def ticked (replica : Replica σ) (timestamp : UInt64) : Replica σ :=
  { replica with clock := { latest := timestamp } }

theorem Sound.ticked {replica : Replica σ} (sound : replica.Sound)
    (later : replica.clock.latest < timestamp) : (replica.ticked timestamp).Sound where
  weave := sound.weave
  pending := sound.pending
  limit := sound.limit
  absent := sound.absent
  heard atom held := by
    have heard := sound.heard atom held
    simp only [Replica.ticked, UInt64.le_iff_toNat_le, UInt64.lt_iff_toNat_lt] at heard later ⊢
    omega

def authored (replica : Replica σ) (timestamp : UInt64) (cause : Option AtomId) (payload : Payload)
    (priority : Int32) : Atom where
  id := { site := replica.site, timestamp, priority }
  cause
  payload

variable [Observer σ]

/-- What creating an atom answers, by what becomes of the atom when it is received. -/
def creation (atom : Atom) : Except Refusal Reception → Except Refusal Atom
  | .ok .duplicate => .error (.identityCollision atom.id)
  | .ok _ => .ok atom
  | .error why => .error why

theorem create_of_tick {replica : Replica σ} {timestamp : UInt64} {clock : LamportClock}
    (tick : replica.clock.tick = some (timestamp, clock)) (cause : Option AtomId) (payload : Payload)
    (priority : Int32) :
    replica.create cause payload priority =
      (creation (replica.authored timestamp cause payload priority)
          ((replica.ticked timestamp).receive (replica.authored timestamp cause payload priority)).1,
        ((replica.ticked timestamp).receive (replica.authored timestamp cause payload priority)).2) := by
  obtain ⟨_, rfl⟩ := LamportClock.lt_of_tick tick
  simp only [create, tick, ticked, authored]
  split <;> simp_all [creation]

section Authored

variable {replica : Replica σ} (sound : replica.Sound) (later : replica.clock.latest < timestamp)
  {cause : Option AtomId} {payload : Payload} {priority : Int32}

include sound later

omit [Observer σ] in
theorem Sound.authored_fresh : ∀ other ∈ replica.held,
    other.id.key ≠ (replica.authored timestamp cause payload priority).id.key := by
  intro other held same
  have earlier := sound.heard other held
  rw [show other.id.timestamp = timestamp from congrArg Prod.snd same] at earlier
  exact absurd (UInt64.lt_iff_toNat_lt.mp later)
    (Nat.not_lt.mpr (UInt64.le_iff_toNat_le.mp earlier))

/-- A new atom is woven if its cause is. -/
theorem Sound.weaves_authored (causal : ∀ id ∈ cause, replica.weave.contains id = true)
    (payload : Payload) (priority : Int32) :
    ∃ position released after,
      (replica.ticked timestamp).receive (replica.authored timestamp cause payload priority) =
          (.ok (.woven position released), after) ∧
        replica.authored timestamp cause payload priority ∈ after.weave.toList := by
  have fresh : ∀ other ∈ replica.held,
      other.id.key ≠ (replica.authored timestamp cause payload priority).id.key :=
    sound.authored_fresh later
  have apart : (replica.authored timestamp cause payload priority).cause ≠
      some (replica.authored timestamp cause payload priority).id := by
    intro circular
    obtain ⟨other, woven, same⟩ := sound.weave.contains_iff.mp (causal _ circular)
    exact fresh other (List.mem_append_left _ woven) (congrArg AtomId.key same)
  have encounter := (sound.ticked later).encounter
    (replica.authored timestamp cause payload priority)
  rcases encounter.weaves (sound.ticked later) (fun other held same => absurd same (fresh other held))
    apart causal with ⟨other, woven, same, _⟩ | ⟨position, released, outcome, woven⟩
  · exact absurd (congrArg AtomId.key (Atom.id_eq_of_same same))
      (fresh other (List.mem_append_left _ woven))
  · exact ⟨position, released, _, Prod.ext outcome rfl, woven⟩

end Authored

/-- Creating an atom below a woven cause, or a root, weaves it while a timestamp is left. -/
theorem Sound.create {replica : Replica σ} (sound : replica.Sound) {cause : Option AtomId}
    (causal : ∀ id ∈ cause, replica.weave.contains id = true) (payload : Payload)
    (priority : Int32) :
    (replica.clock.isExhausted = true ∧
        replica.create cause payload priority = (.error (.clockExhausted replica.site), replica)) ∨
      ∃ timestamp position released later, replica.clock.latest < timestamp ∧
        (replica.ticked timestamp).Encounter (replica.authored timestamp cause payload priority)
          (.ok (.woven position released), later) ∧
        replica.create cause payload priority =
          (.ok (replica.authored timestamp cause payload priority), later) ∧
        replica.authored timestamp cause payload priority ∈ later.weave.toList := by
  cases tick : replica.clock.tick with
  | none =>
    left
    have exhausted := (LamportClock.tick_eq_none_iff _).mp tick
    exact ⟨by simp [LamportClock.isExhausted, exhausted], by simp [Replica.create, tick]⟩
  | some next =>
    right
    obtain ⟨timestamp, clock⟩ := next
    obtain ⟨later, _⟩ := LamportClock.lt_of_tick tick
    obtain ⟨position, released, after, received, woven⟩ :=
      sound.weaves_authored later causal payload priority
    have encounter := (sound.ticked later).encounter
      (replica.authored timestamp cause payload priority)
    have created := create_of_tick tick cause payload priority
    rw [received] at encounter
    simp only [received, creation] at created
    exact ⟨timestamp, position, released, after, later, encounter, created, woven⟩

end Replica
end CausalWeave
