import CausalWeave.Proofs.Oracle.Findings
import CausalWeave.Proofs.Refusal
import CausalWeave.Proofs.Replica.Reachable
import CausalWeave.Proofs.Simulation.History

namespace CausalWeave

theorem tombstone_injective : Function.Injective Simulation.Participant.tombstone := by
  intro first second same
  simp only [Simulation.Participant.tombstone, Payload.json.injEq, Json.object.injEq, List.cons.injEq,
    Prod.mk.injEq, Json.text.injEq, true_and, and_true] at same
  exact AtomId.shown_injective same

theorem Simulation.siteOf_bare (number : Nat) : (Simulation.siteOf number).Bare := by
  rw [Site.Bare, siteOf, Nat.toString_eq_repr, String.toList_append, Nat.toList_repr]
  intro present
  rcases List.mem_append.mp present with letter | digit
  · exact absurd letter (by decide)
  · exact AtomId.notMem_toDigits rfl number digit

/-- A shown id is that of one atom, alone and as the target of a tombstone. Two messages are the same where
what stands between their two ids also stands in the name of a site. -/
theorem AtomId.shown_identifies :
    Function.Injective AtomId.shown ∧
      Function.Injective Simulation.Participant.tombstone ∧
      (∀ first second : Refusal,
        (first.message = second.message ↔
          first = second ∨ first.Reread second ∨ second.Reread first) ∧
        ((∀ id ∈ first.ids, id.site.Bare) → first.message = second.message → first = second)) ∧
      (∀ first second : Oracle.Violation, first.HasWholeDigests → second.HasWholeDigests →
        (first.message = second.message ↔
          first = second ∨ first.Reread second ∨ second.Reread first) ∧
        ((∀ id ∈ first.ids ++ second.ids, id.site.Bare) →
          first.message = second.message → first = second)) ∧
      (∀ snapshots atoms generator,
        (∀ snapshot ∈ snapshots, ∃ weave : Weave, snapshot.digest = weave.digest) →
          ∀ violation ∈ (Oracle.judge snapshots atoms generator).1.violations,
            violation.Concerns (snapshots.flatMap (·.sequence) ++ atoms)) ∧
      ∀ number, (Simulation.siteOf number).Bare := by
  refine ⟨shown_injective, tombstone_injective, ?_, ?_, ?_, Simulation.siteOf_bare⟩
  · intro first second
    exact ⟨Refusal.message_eq_iff first second, Refusal.eq_of_message⟩
  · intro first second whole whole'
    exact ⟨Oracle.Violation.message_eq_iff whole whole', Oracle.Violation.eq_of_message whole whole'⟩
  · intro snapshots atoms generator taken
    apply Oracle.concerns_judge generator
    intro snapshot member
    obtain ⟨weave, digest⟩ := taken snapshot member
    rw [digest]
    exact weave.blank_notMem_digest

/-- Sites that are named like ids, with numbers that would read the same without their marks, and three ids
in a row. -/
theorem AtomId.shown_identifies_nested :
    let plain : AtomId := { site := ⟨"r1@2"⟩, timestamp := 1, priority := -1 }
    let nested : AtomId := { site := ⟨"r1@2@1^-1"⟩, timestamp := 1 }
    let first : AtomId := { site := ⟨"a"⟩, timestamp := 1 }
    let middle : AtomId := { site := ⟨"b"⟩, timestamp := 2 }
    let last : AtomId := { site := ⟨"c"⟩, timestamp := 3 }
    let effect : Atom := { id := first, cause := some last }
    let snapshot : Simulation.Snapshot :=
      { number := 0, site := ⟨"x"⟩, digest := ({} : Weave).digest, sequence := [effect], pending := 0 }
    plain.shown ≠ nested.shown ∧
      Simulation.Participant.tombstone plain ≠ Simulation.Participant.tombstone nested ∧
      (Refusal.causalCycle first last).message ≠ (Refusal.causalCycle nested last).message ∧
      (Refusal.pendingBufferFull 1 first (last.behind (middle.shown ++ " waiting on "))).message =
        (Refusal.pendingBufferFull 1 (middle.behind (first.shown ++ " waiting on ")) last).message ∧
      (Oracle.Violation.convergence 0 1 "blake3:0" "blake3:1" [first] []).message ≠
        (Oracle.Violation.convergence 0 1 "blake3:0" "blake3:1" [] [first]).message ∧
      (Oracle.Violation.causalOrder 0 first (last.behind (middle.shown ++ " without "))).message =
        (Oracle.Violation.causalOrder 0 (middle.behind (first.shown ++ " without ")) last).message ∧
      ∀ violation ∈ (Oracle.judge [snapshot] [effect] (.ofSeed 0)).1.violations,
        violation.Concerns [effect, effect] := by
  intro plain nested first middle last effect snapshot
  obtain ⟨shown, tombstone, refusals, violations, found, _⟩ := shown_identifies
  have distinct : plain ≠ nested := by decide
  refine ⟨fun same => distinct (shown same), fun same => distinct (tombstone same), ?_, ?_, ?_, ?_, ?_⟩
  · intro same
    have equal := (refusals _ _).2 (by decide) same
    exact absurd equal (by decide)
  · exact (refusals _ _).1.mpr (.inr (.inl (.full 1 (.intro first middle last))))
  · intro same
    have equal := (violations _ _ (by decide) (by decide)).2 (by decide) same
    exact absurd equal (by decide)
  · exact (violations _ _ (by decide) (by decide)).1.mpr
      (.inr (.inl (.causalOrder 0 (.intro first middle last))))
  · exact found [snapshot] [effect] _ (by simpa using ⟨{}, rfl⟩)

/-- The sites of the atoms that a full buffer refuses are named like ids with its words behind them, and so
are those of two sequences in which the causes are missing. -/
theorem AtomId.pairs_shown_alike :
    let filler : Atom :=
      { id := { site := ⟨"z"⟩, timestamp := 9 }, cause := some { site := ⟨"y"⟩, timestamp := 8 } }
    let first : AtomId := { site := ⟨"a"⟩, timestamp := 1 }
    let last : AtomId := { site := ⟨"c"⟩, timestamp := 3 }
    let refused : Atom := { id := first, cause := some { site := ⟨"b@2 waiting on c"⟩, timestamp := 3 } }
    let refused' : Atom := { id := { site := ⟨"a@1 waiting on b"⟩, timestamp := 2 }, cause := some last }
    let replica := Replica.after ⟨"x"⟩ { pendingLimit := 1 } () [.receive filler]
    let effect : Atom := { id := first, cause := some { site := ⟨"b@2 without c"⟩, timestamp := 3 } }
    let effect' : Atom := { id := { site := ⟨"a@1 without b"⟩, timestamp := 2 }, cause := some last }
    let states (atom : Atom) : List Simulation.Snapshot :=
      [{ number := 0, site := ⟨"x"⟩, digest := digestOfIds [atom.id], sequence := [atom], pending := 0 }]
    (∃ refusal refusal', (replica.receive refused).1 = .error refusal ∧
        (replica.receive refused').1 = .error refusal' ∧ refusal.ids ≠ refusal'.ids ∧
          refusal.message = refusal'.message) ∧
      ∃ violation violation', Oracle.causality (states effect) = [violation] ∧
        Oracle.causality (states effect') = [violation'] ∧ violation.ids ≠ violation'.ids ∧
          violation.message = violation'.message := by
  intro filler first last refused refused' replica effect effect' states
  refine ⟨⟨.pendingBufferFull 1 first { site := ⟨"b@2 waiting on c"⟩, timestamp := 3 },
    .pendingBufferFull 1 { site := ⟨"a@1 waiting on b"⟩, timestamp := 2 } last, ?_, ?_, by decide, ?_⟩,
    .causalOrder 0 first { site := ⟨"b@2 without c"⟩, timestamp := 3 },
    .causalOrder 0 { site := ⟨"a@1 without b"⟩, timestamp := 2 } last, rfl, rfl, by decide, ?_⟩
  · dsimp +zetaDelta only
    cbv
  · dsimp +zetaDelta only
    cbv
  · decide
  · decide

end CausalWeave
