import CausalWeave.Proofs.PendingBuffer.Bookkeeping

namespace CausalWeave.PendingBuffer

variable {buffer : PendingBuffer}

theorem Orderly.reaches_iff (orderly : buffer.Orderly) {steps : Nat}
    (enough : buffer.size ≤ steps) {cause id : AtomId} :
    buffer.reaches id steps cause = true ↔ Descends buffer.atoms cause id := by
  constructor
  · exact orderly.sound.transGen_of_reaches
  · intro descends
    apply orderly.sound.reaches_of_descends orderly.acyclic _ descends
    exact (chainLength_le cause).trans (orderly.sound.size_eq ▸ enough)

/-- The test for cycles comes before the limit, so it does not matter how many atoms may wait. -/
theorem hold_eq_causalCycle_iff {atom : Atom} (caused : atom.cause = some cause)
    (apart : cause ≠ atom.id) (unheld : buffer.contains atom.id = false) :
    buffer.hold atom = .error (.causalCycle atom.id cause) ↔ buffer.leadsTo cause atom.id = true := by
  cases onward : buffer.leadsTo cause atom.id with
  | true => simp [hold, caused, apart, unheld, onward]
  | false =>
    simp only [hold, caused, apart, unheld, onward, if_false, Bool.false_eq_true, iff_false]
    split <;> simp

/-- The causes of held atoms form no cycle, and an atom that is not held is refused as part of one
exactly if its cause leads back to it. A walk of any greater length would find the same. -/
theorem Reachable.refuses_cycles (reachable : buffer.Reachable) :
    Acyclic buffer.atoms ∧ ∀ (atom : Atom) (cause : AtomId), atom.cause = some cause →
      cause ≠ atom.id → buffer.contains atom.id = false →
        (buffer.hold atom = .error (.causalCycle atom.id cause) ↔
            Descends buffer.atoms cause atom.id) ∧
          ∀ steps, buffer.size ≤ steps →
            buffer.reaches atom.id steps cause = buffer.leadsTo cause atom.id := by
  have orderly := reachable.orderly
  refine ⟨orderly.acyclic, ?_⟩
  intro atom cause caused apart unheld
  constructor
  · rw [hold_eq_causalCycle_iff caused apart unheld]
    exact orderly.sound.leadsTo_iff orderly.acyclic
  · intro steps enough
    rw [Bool.eq_iff_iff, orderly.reaches_iff enough, orderly.sound.leadsTo_iff orderly.acyclic]

theorem refuses_cycle_through_all :
    let first : AtomId := { site := ⟨"a"⟩, timestamp := 1 }
    let second : Atom := { id := { site := ⟨"b"⟩, timestamp := 2 }, cause := some first }
    let third : Atom := { id := { site := ⟨"c"⟩, timestamp := 3 }, cause := some second.id }
    let closing : Atom := { id := first, cause := some third.id }
    let buffer := after (some 2) [.hold second, .hold third]
    buffer.size = 2 ∧ third.id ≠ closing.id ∧ buffer.contains closing.id = false ∧
      buffer.hold closing = .error (.causalCycle first third.id) := by
  intro first second third closing buffer
  have reachable : buffer.Reachable := ⟨_, _, rfl⟩
  have order : arrivals (some 2) [.hold second, .hold third] = [second, third] :=
    arrivals_offered [second, third] (by decide) (by decide) (by simp)
  have held : [second, third].Perm buffer.atoms := order ▸ arrivals_perm _ _
  have unheld : buffer.contains closing.id = false := by
    rw [← Bool.not_eq_true, reachable.orderly.sound.contains_iff]
    rintro ⟨other, member, same⟩
    simp only [← held.mem_iff, List.mem_cons, List.not_mem_nil, or_false] at member
    rcases member with rfl | rfl <;> exact absurd same (by decide)
  have apart : third.id ≠ closing.id := by decide
  have chain : Descends buffer.atoms third.id closing.id :=
    .head ⟨third, by simp [← held.mem_iff], rfl, rfl⟩
      (.single ⟨second, by simp [← held.mem_iff], rfl, rfl⟩)
  have refused := (reachable.refuses_cycles.2 closing third.id rfl apart unheld).1.mpr chain
  have full : buffer.size = 2 := by
    rw [reachable.orderly.sound.size_eq, ← held.length_eq]
    rfl
  exact ⟨full, apart, unheld, refused⟩

end CausalWeave.PendingBuffer
