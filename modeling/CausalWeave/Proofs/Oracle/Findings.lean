import CausalWeave.Oracle
import CausalWeave.Proofs.Oracle.Messages
import CausalWeave.Proofs.Weave.Digest

namespace CausalWeave

theorem Json.hexDigit_ne_blank : ∀ digit < 16, Json.hexDigit digit ≠ ' ' := by
  decide

theorem blank_notMem_hexText (bytes : List UInt8) : ' ' ∉ hexText bytes := by
  intro present
  obtain ⟨byte, _, blank⟩ := List.mem_flatMap.mp present
  have bounded := byte.toNat_lt
  have high := Json.hexDigit_ne_blank (byte.toNat / 16) (by omega)
  have low := Json.hexDigit_ne_blank (byte.toNat % 16) (by omega)
  simp [high.symm, low.symm] at blank

theorem Weave.blank_notMem_digest (weave : Weave) : ' ' ∉ weave.digest.toList := by
  rw [digest_eq, String.toList_append]
  intro blank
  rcases List.mem_append.mp blank with mark | digit
  · exact absurd mark (by decide)
  · rw [String.toList_ofList] at digit
    exact blank_notMem_hexText _ digit

namespace Oracle

open CausalWeave.Simulation (Snapshot)

/-- The violation shows whole digests, and of ids only those of the atoms and of their causes. -/
structure Violation.Concerns (atoms : List Atom) (violation : Violation) : Prop where
  digests : violation.HasWholeDigests
  ids : ∀ id ∈ violation.ids, ∃ atom ∈ atoms, id = atom.id ∨ atom.cause = some id

theorem Violation.Concerns.mono {atoms atoms' : List Atom} {violation : Violation}
    (concerns : violation.Concerns atoms) (kept : atoms ⊆ atoms') : violation.Concerns atoms' := by
  refine ⟨concerns.digests, ?_⟩
  intro id present
  obtain ⟨atom, member, names⟩ := concerns.ids id present
  exact ⟨atom, kept member, names⟩

theorem ite_subset_cons (quiet : Prop) [Decidable quiet] (violation : Violation) (later : List Violation) :
    (if quiet then later else violation :: later) ⊆ violation :: later := by
  split
  · exact List.subset_cons_self violation later
  · exact List.Subset.refl _

theorem concerns_divergence? {first second : Snapshot} (whole : ' ' ∉ first.digest.toList)
    (whole' : ' ' ∉ second.digest.toList) {violation : Violation}
    (found : divergence? first second = some violation) :
    violation.Concerns (first.sequence ++ second.sequence) := by
  unfold divergence? at found
  split at found
  · exact absurd found (by simp)
  · cases found
    refine ⟨by simp [Violation.HasWholeDigests, Violation.digests, whole, whole'], ?_⟩
    intro id present
    simp only [Violation.ids, lacking, List.mem_append, List.mem_filter, List.mem_map] at present
    rcases present with ⟨⟨atom, member, rfl⟩, _⟩ | ⟨⟨atom, member, rfl⟩, _⟩
    · exact ⟨atom, List.mem_append_left _ member, .inl rfl⟩
    · exact ⟨atom, List.mem_append_right _ member, .inl rfl⟩

theorem concerns_convergence {snapshots : List Snapshot}
    (whole : ∀ snapshot ∈ snapshots, ' ' ∉ snapshot.digest.toList) :
    ∀ violation ∈ convergence snapshots, violation.Concerns (snapshots.flatMap (·.sequence)) := by
  induction snapshots with
  | nil => simp [convergence]
  | cons first others ih =>
    intro violation found
    rcases List.mem_append.mp found with apart | later
    · obtain ⟨second, member, found⟩ := List.mem_filterMap.mp apart
      refine (concerns_divergence? (whole first (by simp)) (whole second (by simp [member])) found).mono ?_
      intro atom present
      rcases List.mem_append.mp present with here | there
      · exact List.mem_flatMap.mpr ⟨first, by simp, here⟩
      · exact List.mem_flatMap.mpr ⟨second, by simp [member], there⟩
    · refine (ih (fun snapshot member => whole snapshot (by simp [member])) violation later).mono ?_
      simp

theorem concerns_commutativityFrom {atoms : List Atom} {expected : String} (generator : Generator)
    (permutation count : Nat) (whole : ' ' ∉ expected.toList) :
    ∀ violation ∈ (commutativityFrom atoms expected generator permutation count).1,
      violation.Concerns atoms := by
  induction count generalizing generator permutation with
  | zero => simp [commutativityFrom]
  | succ count ih =>
    intro violation found
    rcases List.mem_cons.mp (ite_subset_cons _ _ _ found) with rfl | later
    · exact ⟨by simp [Violation.HasWholeDigests, Violation.digests, whole, Weave.blank_notMem_digest],
        by simp [Violation.ids]⟩
    · exact ih _ _ violation later

theorem concerns_idempotenceFrom {replica : Replica Unit} {before : String} {atoms : List Atom}
    (whole : ' ' ∉ before.toList) :
    ∀ violation ∈ idempotenceFrom replica before atoms, violation.Concerns atoms := by
  induction atoms generalizing replica before with
  | nil => simp [idempotenceFrom]
  | cons atom rest ih =>
    intro violation found
    rcases List.mem_cons.mp (ite_subset_cons _ _ _ found) with rfl | later
    · exact ⟨by simp [Violation.HasWholeDigests, Violation.digests, whole, Weave.blank_notMem_digest],
        by simp [Violation.ids]⟩
    · exact (ih (Weave.blank_notMem_digest _) violation later).mono (by simp)

theorem concerns_causalityOf (snapshot : Snapshot) :
    ∀ violation ∈ causalityOf snapshot, violation.Concerns snapshot.sequence := by
  intro violation found
  obtain ⟨⟨atom, index⟩, member, found⟩ := List.mem_filterMap.mp found
  have present : atom ∈ snapshot.sequence := (List.mem_zipIdx' member).2 ▸ List.getElem_mem _
  cases caused : atom.cause with
  | none => simp [caused] at found
  | some cause =>
    simp only [caused] at found
    split at found
    · exact absurd found (by simp)
    · cases found
      refine ⟨by simp [Violation.HasWholeDigests, Violation.digests], ?_⟩
      intro id named
      simp only [Violation.ids, List.mem_cons, List.not_mem_nil, or_false] at named
      rcases named with rfl | rfl
      · exact ⟨atom, present, .inl rfl⟩
      · exact ⟨atom, present, .inr caused⟩

theorem concerns_contiguityFrom {replica : Nat} {ancestors : List AtomId} {atoms : List Atom} :
    ∀ violation ∈ contiguityFrom replica ancestors atoms, violation.Concerns atoms := by
  induction atoms generalizing ancestors with
  | nil => simp [contiguityFrom]
  | cons atom rest ih =>
    intro violation found
    have later : ∀ ancestors, violation ∈ contiguityFrom replica ancestors rest →
        violation.Concerns (atom :: rest) :=
      fun ancestors found => (ih violation found).mono (by simp)
    cases caused : atom.cause with
    | none => exact later [atom.id] (by simpa only [contiguityFrom, caused] using found)
    | some cause =>
      simp only [contiguityFrom, caused] at found
      split at found
      · rcases List.mem_cons.mp found with rfl | found
        · refine ⟨by simp [Violation.HasWholeDigests, Violation.digests], ?_⟩
          intro id named
          simp only [Violation.ids, List.mem_cons, List.not_mem_nil, or_false] at named
          rcases named with rfl | rfl
          · exact ⟨atom, by simp, .inl rfl⟩
          · exact ⟨atom, by simp, .inr caused⟩
        · exact later _ found
      · exact later _ found

/-- What the oracle finds shows the digests of weaves, and ids of the atoms that it has looked at. -/
theorem concerns_judge {snapshots : List Snapshot} {atoms : List Atom} (generator : Generator)
    (whole : ∀ snapshot ∈ snapshots, ' ' ∉ snapshot.digest.toList) :
    ∀ violation ∈ (judge snapshots atoms generator).1.violations,
      violation.Concerns (snapshots.flatMap (·.sequence) ++ atoms) := by
  intro violation found
  simp only [judge, List.mem_append] at found
  rcases found with ((((apart | permuted) | repeated) | uncaused) | scattered) | waiting
  · exact (concerns_convergence whole violation apart).mono (by simp)
  · have found : violation.Concerns atoms := by
      unfold commutativity at permuted
      split at permuted
      · simp at permuted
      · exact concerns_commutativityFrom _ _ _ (Weave.blank_notMem_digest _) violation permuted
    exact found.mono (by simp)
  · exact (concerns_idempotenceFrom (Weave.blank_notMem_digest _) violation repeated).mono (by simp)
  · obtain ⟨snapshot, member, found⟩ := List.mem_flatMap.mp uncaused
    refine (concerns_causalityOf snapshot violation found).mono fun atom present => ?_
    exact List.mem_append_left _ (List.mem_flatMap.mpr ⟨snapshot, member, present⟩)
  · obtain ⟨snapshot, member, found⟩ := List.mem_flatMap.mp scattered
    refine (concerns_contiguityFrom violation found).mono fun atom present => ?_
    exact List.mem_append_left _ (List.mem_flatMap.mpr ⟨snapshot, member, present⟩)
  · obtain ⟨snapshot, _, rfl⟩ := List.mem_map.mp waiting
    exact ⟨by simp [Violation.HasWholeDigests, Violation.digests], by simp [Violation.ids]⟩

end Oracle
end CausalWeave
