import CausalWeave.Generator
import Mathlib.Data.Nat.ModEq
import Mathlib.NumberTheory.Multiplicity
import Mathlib.Tactic.LinearCombination

/-! The states of a congruential generator whose multiplier is one more than a multiple of four and whose
increment is odd come back after the multiples of 2^64 draws and not before. -/

namespace CausalWeave.Generator

def after (generator : Generator) : Nat → Generator
  | 0 => generator
  | draws + 1 => (generator.after draws).next.2

def word (generator : Generator) (draws : Nat) : UInt64 :=
  (generator.after draws).next.1

theorem after_add (generator : Generator) (first second : Nat) :
    generator.after (first + second) = (generator.after first).after second := by
  induction second with
  | zero => rfl
  | succ second ih => rw [← Nat.add_assoc, after, ih, after]

section Unreduced

variable (multiplier increment : Int)

/-- The states of a congruential generator as whole numbers that are never reduced. -/
def unreduced (start : Int) : Nat → Int
  | 0 => start
  | draws + 1 => multiplier * unreduced start draws + increment

/-- Multiplied by one less than the multiplier and moved by the increment, the states are a geometric
sequence. -/
theorem unreduced_geometric (start : Int) (draws : Nat) :
    (multiplier - 1) * unreduced multiplier increment start draws + increment =
      multiplier ^ draws * ((multiplier - 1) * start + increment) := by
  induction draws with
  | zero => simp [unreduced]
  | succ draws ih =>
    calc (multiplier - 1) * (multiplier * unreduced multiplier increment start draws + increment) +
          increment
        = multiplier * ((multiplier - 1) * unreduced multiplier increment start draws +
            increment) := by ring
      _ = multiplier ^ (draws + 1) * ((multiplier - 1) * start + increment) := by rw [ih]; ring

variable {multiplier increment}

/-- What some draws add to a state is divided by the same powers of two as the number of draws. -/
theorem two_pow_dvd_unreduced_sub (four : 4 ∣ multiplier - 1) (proper : multiplier ≠ 1)
    (odd : ¬ 2 ∣ increment) (start : Int) (draws exponent : Nat) :
    2 ^ exponent ∣ unreduced multiplier increment start draws - start ↔
      2 ^ exponent ∣ (draws : Int) := by
  have even : 2 ∣ multiplier - 1 := Int.dvd_trans (by decide) four
  have product : (multiplier - 1) * (unreduced multiplier increment start draws - start) =
      (multiplier ^ draws - 1 ^ draws) * ((multiplier - 1) * start + increment) := by
    linear_combination unreduced_geometric multiplier increment start draws
  have oddFactor : emultiplicity 2 ((multiplier - 1) * start + increment) = 0 := by
    apply emultiplicity_eq_zero.mpr
    intro divides
    exact odd ((Int.dvd_add_right (even.mul_right start)).mp divides)
  have lifted : emultiplicity 2 (multiplier ^ draws - 1 ^ draws) =
      emultiplicity 2 (multiplier - 1) + emultiplicity 2 (draws : Int) :=
    Int.two_pow_sub_pow' draws four (by omega)
  have finite : emultiplicity 2 (multiplier - 1) ≠ ⊤ := by
    apply finiteMultiplicity_iff_emultiplicity_ne_top.mp
    exact Int.finiteMultiplicity_iff.mpr ⟨by decide, sub_ne_zero.mpr proper⟩
  have same : emultiplicity 2 (unreduced multiplier increment start draws - start) =
      emultiplicity 2 (draws : Int) := by
    have counted := congrArg (emultiplicity 2) product
    rw [emultiplicity_mul Int.prime_two, emultiplicity_mul Int.prime_two, oddFactor, lifted,
      add_zero] at counted
    exact (WithTop.add_left_inj finite).mp counted
  rw [pow_dvd_iff_le_emultiplicity, same, ← pow_dvd_iff_le_emultiplicity]

end Unreduced

theorem toNat_advance (state : UInt64) :
    (advance state).toNat ≡ 6364136223846793005 * state.toNat + 1442695040888963407
      [MOD UInt64.size] := by
  rw [advance, UInt64.toNat_add, UInt64.toNat_mul, Nat.mul_comm]
  exact (Nat.mod_modEq _ _).trans ((Nat.mod_modEq _ _).add_right _)

theorem toNat_state_after (generator : Generator) (draws : Nat) :
    ((generator.after draws).state.toNat : Int) ≡
      unreduced 6364136223846793005 1442695040888963407 generator.state.toNat draws
        [ZMOD UInt64.size] := by
  induction draws with
  | zero => exact Int.ModEq.refl _
  | succ draws ih =>
    have step := Int.natCast_modEq_iff.mpr (toNat_advance (generator.after draws).state)
    push_cast at step
    exact step.trans ((ih.mul_left _).add_right _)

/-- A generator is where it was after the multiples of 2^64 draws, and at no other time. -/
theorem after_eq_self_iff (generator : Generator) (draws : Nat) :
    generator.after draws = generator ↔ UInt64.size ∣ draws := by
  have period : (2 : Int) ^ 64 ∣ unreduced 6364136223846793005 1442695040888963407
      generator.state.toNat draws - generator.state.toNat ↔ 2 ^ 64 ∣ (draws : Int) :=
    two_pow_dvd_unreduced_sub (by decide) (by decide) (by decide) _ draws 64
  rw [show (2 : Int) ^ 64 = UInt64.size by decide, Int.natCast_dvd_natCast,
    ← Int.modEq_iff_dvd] at period
  have reduced := generator.toNat_state_after draws
  rw [← period]
  constructor
  · intro same
    rwa [same] at reduced
  · intro same
    have states : (generator.after draws).state.toNat = generator.state.toNat := by
      apply Nat.ModEq.eq_of_lt_of_lt _ (UInt64.toNat_lt_size _) (UInt64.toNat_lt_size _)
      exact Int.natCast_modEq_iff.mp (reduced.trans same.symm)
    exact congrArg Generator.mk (UInt64.toNat_inj.mp states)

theorem after_eq_after_iff (generator : Generator) (first second : Nat) :
    generator.after first = generator.after second ↔ first ≡ second [MOD UInt64.size] := by
  wlog sooner : first ≤ second
  · rw [eq_comm, Nat.ModEq.comm]
    exact this generator second first (Nat.le_of_not_le sooner)
  obtain ⟨more, rfl⟩ := Nat.exists_eq_add_of_le sooner
  rw [after_add, eq_comm, after_eq_self_iff, Nat.modEq_iff_dvd' sooner, Nat.add_sub_cancel_left]

/-- Draws are undone by the draws that are left until the states repeat. -/
theorem after_injective (draws : Nat) : Function.Injective (after · draws) := by
  have undone (generator : Generator) :
      (generator.after draws).after (UInt64.size * draws - draws) = generator := by
    have later : draws ≤ UInt64.size * draws := Nat.le_mul_of_pos_left draws (by decide)
    rw [← after_add, Nat.add_sub_cancel' later, after_eq_self_iff]
    exact Nat.dvd_mul_right _ _
  exact Function.LeftInverse.injective (g := (after · (UInt64.size * draws - draws))) undone

/-- Folding the high half of a state onto the low one is undone by doing it again. -/
theorem output_output (state : UInt64) : output (output state) = state := by
  have gone : state >>> 33 >>> 33 = 0 := by
    have shifted : (state >>> 33 >>> 33).toNat = state.toNat / 2 ^ 33 / 2 ^ 33 := by
      simp [Nat.shiftRight_eq_div_pow]
    have bounded := state.toNat_lt
    apply UInt64.toNat_inj.mp
    rw [shifted, UInt64.toNat_zero]
    omega
  calc output (output state)
      = state ^^^ state >>> 33 ^^^ (state >>> 33 ^^^ state >>> 33 >>> 33) := by
        rw [output, output, UInt64.shiftRight_xor]
    _ = state := by rw [gone, UInt64.xor_zero, UInt64.xor_assoc, UInt64.xor_self, UInt64.xor_zero]

/-- A word shows the whole state before it. -/
theorem word_inj {generator other : Generator} {first second : Nat} :
    generator.word first = other.word second ↔ generator.after first = other.after second := by
  constructor
  · intro same
    have states : (generator.after (first + 1)).state = (other.after (second + 1)).state :=
      Function.LeftInverse.injective output_output same
    apply after_injective 1
    exact congrArg Generator.mk states
  · intro same
    rw [word, word, same]

/-- Words do not repeat within a period, and there are as many of them as draws. -/
theorem existsUnique_word (generator : Generator) (word : UInt64) :
    ∃! draws, draws < UInt64.size ∧ generator.word draws = word := by
  have apart : Function.Injective fun draws : Fin UInt64.size => (generator.word draws).toFin := by
    intro first second same
    rw [UInt64.toFin_inj, word_inj, after_eq_after_iff] at same
    exact Fin.ext (same.eq_of_lt_of_lt first.isLt second.isLt)
  obtain ⟨draws, shown⟩ := Finite.injective_iff_surjective.mp apart word.toFin
  rw [UInt64.toFin_inj] at shown
  refine ⟨draws, ⟨draws.isLt, shown⟩, ?_⟩
  rintro other ⟨inside, same⟩
  rw [← shown, word_inj, after_eq_after_iff] at same
  exact same.eq_of_lt_of_lt inside draws.isLt

/-- Two seeds never draw the same word at the same time. Whatever the seed, the states are all different
until they repeat after 2^64 draws, and until then every word is drawn once. -/
theorem never_degenerates :
    (∀ seed other, seed ≠ other → ∀ draws, (ofSeed seed).word draws ≠ (ofSeed other).word draws) ∧
      ∀ seed,
        (∀ first < UInt64.size, ∀ second < UInt64.size, first ≠ second →
          (ofSeed seed).after first ≠ (ofSeed seed).after second) ∧
        (ofSeed seed).after UInt64.size = ofSeed seed ∧
        ∀ word, ∃! draws, draws < UInt64.size ∧ (ofSeed seed).word draws = word := by
  refine ⟨?_, fun seed => ⟨?_, ?_, (ofSeed seed).existsUnique_word⟩⟩
  · intro seed other different draws same
    have start : ofSeed seed = ofSeed other := after_injective draws (word_inj.mp same)
    exact different ((UInt64.xor_left_inj _).mp (congrArg state start))
  · intro first inside second inside' different same
    rw [after_eq_after_iff] at same
    exact different (same.eq_of_lt_of_lt inside inside')
  · exact (after_eq_self_iff _ _).mpr (Nat.dvd_refl _)

/-- Two seeds that differ in the top bit only, late in the period, and two states half a period apart,
which differ in the top bit only. -/
theorem never_degenerates_top_bit :
    (ofSeed 0).word 18446744073709551615 ≠ (ofSeed 0x8000000000000000).word 18446744073709551615 ∧
      (ofSeed 0).after 0 ≠ (ofSeed 0).after 9223372036854775808 := by
  obtain ⟨apart, periods⟩ := never_degenerates
  exact ⟨apart 0 0x8000000000000000 (by decide) _,
    (periods 0).1 0 (by decide) 9223372036854775808 (by decide) (by decide)⟩

end CausalWeave.Generator
