import CausalWeave.Generator

namespace CausalWeave.Generator

private theorem swapIfInBounds_perm (items : Array α) (first second : Nat) :
    (items.swapIfInBounds first second).Perm items := by
  rw [Array.swapIfInBounds_def]
  split
  · split
    · exact Array.swap_perm _ _
    · exact .refl items
  · exact .refl items

private theorem shuffleUpTo_perm (generator : Generator) (items : Array α) (last : Nat) :
    (generator.shuffleUpTo items last).1.Perm items := by
  induction last generalizing generator items with
  | zero => exact .refl items
  | succ last ih => exact (ih _ _).trans (swapIfInBounds_perm _ _ _)

theorem shuffle_perm (generator : Generator) (items : Array α) :
    (generator.shuffle items).1.toList.Perm items.toList :=
  (shuffleUpTo_perm generator items _).toList

/-- A single item is not moved, and nothing is drawn for it. -/
theorem shuffle_of_size_le_one (generator : Generator) {items : Array α} (alone : items.size ≤ 1) :
    generator.shuffle items = (items, generator) := by
  rw [shuffle, Nat.sub_eq_zero_of_le alone, shuffleUpTo]

theorem mem_of_choose {generator : Generator} {items : Array α}
    (chosen : (generator.choose items).1 = some item) : item ∈ items := by
  unfold choose at chosen
  split at chosen
  · simp at chosen
  · exact Array.mem_of_getElem? chosen

theorem toNat_below_lt (generator : Generator) {bound : UInt64} (positive : 0 < bound.toNat) :
    (generator.below bound).1.toNat < bound.toNat := by
  unfold below
  split
  · exact positive
  · rw [UInt64.toNat_mod]
    exact Nat.mod_lt _ positive

end CausalWeave.Generator
