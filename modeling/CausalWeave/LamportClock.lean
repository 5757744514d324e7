namespace CausalWeave

structure LamportClock where
  /-- The latest timestamp issued or observed. -/
  latest : UInt64 := 0
deriving DecidableEq

namespace LamportClock

/-- No timestamp is left after the largest one. -/
def isExhausted (clock : LamportClock) : Bool :=
  clock.latest.toNat = UInt64.size - 1

/-- The next timestamp and the clock that has issued it; an exhausted clock issues none rather
than repeat one. -/
def tick (clock : LamportClock) : Option (UInt64 × LamportClock) :=
  if clock.isExhausted then none else some (clock.latest + 1, { latest := clock.latest + 1 })

/-- The clock after a timestamp arrived from elsewhere; it never moves backwards. -/
def observe (clock : LamportClock) (timestamp : UInt64) : LamportClock where
  latest := if clock.latest ≤ timestamp then timestamp else clock.latest

theorem toNat_latest_observe (clock : LamportClock) (timestamp : UInt64) :
    (clock.observe timestamp).latest.toNat = max clock.latest.toNat timestamp.toNat := by
  simp only [observe, UInt64.le_iff_toNat_le]
  split <;> omega

/-- A timestamp that is not later than the clock's tells it nothing. -/
theorem observe_eq_self {clock : LamportClock} {timestamp : UInt64}
    (heard : timestamp ≤ clock.latest) : clock.observe timestamp = clock := by
  unfold observe
  split
  · rename_i later
    rw [UInt64.le_antisymm heard later]
  · rfl

theorem tick_eq_none_iff (clock : LamportClock) :
    clock.tick = none ↔ clock.latest.toNat = UInt64.size - 1 := by
  simp [tick, isExhausted]

end LamportClock
end CausalWeave
