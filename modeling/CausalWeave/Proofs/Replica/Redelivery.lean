import CausalWeave.Proofs.Replica.Convergence
import CausalWeave.Proofs.Replica.Reachable
import Mathlib.Order.Lattice.Nat

/-! However few atoms may wait, each delivery of all atoms weaves those whose causes are woven. -/

namespace CausalWeave

open Relation

/-- A chain of atoms of a list, each of which names the next one as its cause. -/
structure CauseChain (atoms chain : List Atom) : Prop where
  subset : ∀ atom ∈ chain, atom ∈ atoms
  linked : chain.IsChain fun effect cause => effect.cause = some cause.id

theorem CauseChain.cons {atoms chain : List Atom} {atom cause : Atom}
    (member : atom ∈ atoms) (caused : atom.cause = some cause.id)
    (linked : CauseChain atoms (cause :: chain)) : CauseChain atoms (atom :: cause :: chain) where
  subset := List.forall_mem_cons.mpr ⟨member, linked.subset⟩
  linked := List.isChain_cons_cons.mpr ⟨caused, linked.linked⟩

def Weave.missing (weave : Weave) (atoms : List Atom) : Nat :=
  atoms.countP fun atom => !weave.contains atom.id

section Longest

variable {atoms : List Atom}

theorem chainLength_pos {atom : Atom} (member : atom ∈ atoms) : 0 < chainLength atoms atom.id := by
  classical
  apply Finset.card_pos.mpr
  exact ⟨atom.id, by simpa using ⟨⟨atom, member, rfl⟩, ReflTransGen.refl⟩⟩

variable (acyclic : Acyclic atoms)

include acyclic

theorem CauseChain.length_le {atom : Atom} {chain : List Atom}
    (linked : CauseChain atoms (atom :: chain)) :
    (atom :: chain).length ≤ chainLength atoms atom.id := by
  induction chain generalizing atom with
  | nil => exact chainLength_pos (linked.subset atom (by simp))
  | cons cause chain ih =>
    have named := List.isChain_cons_cons.mp linked.linked
    have rest := ih ⟨fun other member => linked.subset other (List.mem_cons_of_mem _ member), named.2⟩
    have shorter := acyclic.chainLength_lt ⟨atom, linked.subset atom (by simp), rfl, named.1⟩
    rw [List.length_cons]
    omega

theorem CauseChain.missing_le {chain : List Atom} (linked : CauseChain atoms chain) (weave : Weave) :
    weave.missing chain ≤ atoms.length := by
  cases chain with
  | nil => simp [Weave.missing]
  | cons atom chain =>
    calc weave.missing (atom :: chain) ≤ (atom :: chain).length := List.countP_le_length
      _ ≤ chainLength atoms atom.id := linked.length_le acyclic
      _ ≤ atoms.length := chainLength_le atom.id

/-- Without cycles some chain has the most atoms that are not woven. -/
theorem exists_isGreatest_missing (weave : Weave) :
    ∃ depth, IsGreatest {count | ∃ chain, CauseChain atoms chain ∧ weave.missing chain = count}
      depth := by
  have bounded : BddAbove {count | ∃ chain, CauseChain atoms chain ∧ weave.missing chain = count} := by
    refine ⟨atoms.length, ?_⟩
    rintro _ ⟨chain, linked, rfl⟩
    exact linked.missing_le acyclic weave
  have nonempty : {count | ∃ chain, CauseChain atoms chain ∧ weave.missing chain = count}.Nonempty :=
    ⟨0, [], ⟨by simp, .nil⟩, rfl⟩
  exact ⟨_, Nat.sSup_mem nonempty bounded, fun _ member => le_csSup bounded member⟩

end Longest

namespace Replica

variable [Observer σ] {replica : Replica σ}

def receivePasses (replica : Replica σ) (passes : List (List Atom)) : Replica σ :=
  passes.foldl (fun replica pass => (replica.receiveAll pass).2) replica

theorem receivePasses_concat (replica : Replica σ) (passes : List (List Atom)) (pass : List Atom) :
    replica.receivePasses (passes ++ [pass]) = ((replica.receivePasses passes).receiveAll pass).2 := by
  simp [receivePasses]

omit [Observer σ] in
/-- How a replica stands that has received atoms of a list: it holds nothing else that is new, and what
was woven still is. -/
structure Advanced (replica : Replica σ) (atoms : List Atom) (later : Replica σ) : Prop where
  sound : later.Sound
  drawn : Within later.held (atoms ++ replica.held)
  grown : ∀ atom ∈ replica.weave.toList, atom ∈ later.weave.toList

/-- An atom of this content is woven. -/
def Weaves (replica : Replica σ) (atom : Atom) : Prop :=
  ∃ other ∈ replica.weave.toList, other.same atom = true

namespace Advanced

variable {atoms : List Atom} {later : Replica σ} (advanced : Advanced replica atoms later)

omit [Observer σ] in
theorem refl (sound : replica.Sound) (atoms : List Atom) : Advanced replica atoms replica where
  sound
  drawn := within_of_subset fun _ held => List.mem_append_right _ held
  grown _ woven := woven

include advanced

omit [Observer σ] in
theorem weaves {atom : Atom} (weaves : replica.Weaves atom) : later.Weaves atom := by
  obtain ⟨other, woven, same⟩ := weaves
  exact ⟨other, advanced.grown other woven, same⟩

omit [Observer σ] in
theorem contains (sound : replica.Sound) {id : AtomId} (woven : replica.weave.contains id = true) :
    later.weave.contains id = true := by
  obtain ⟨atom, member, same⟩ := sound.weave.contains_iff.mp woven
  exact advanced.sound.weave.contains_iff.mpr ⟨atom, advanced.grown atom member, same⟩

theorem receive {atom : Atom} (known : ∃ other ∈ atoms, atom.same other = true) :
    Advanced replica atoms (later.receive atom).2 := by
  have encounter := advanced.sound.encounter atom
  constructor
  case sound => exact advanced.sound.receive atom
  case drawn =>
    intro other member
    rcases List.mem_cons.mp (encounter.held_subset other member) with here | held
    · obtain ⟨twin, present, same⟩ := known
      exact ⟨twin, List.mem_append_left _ present, here ▸ same⟩
    · exact advanced.drawn other held
  case grown =>
    intro other woven
    exact encounter.woven_subset other (advanced.grown other woven)

theorem receiveAll {received : List Atom} (within : Within received atoms) :
    Advanced replica atoms (later.receiveAll received).2 := by
  induction received using List.reverseRecOn with
  | nil => exact advanced
  | append_singleton received atom ih =>
    rw [receiveAll_concat]
    have earlier : Within received atoms := fun other member => within other (by simp [member])
    exact (ih earlier).receive (within atom (by simp))

/-- An atom is woven when it arrives and its cause is woven. -/
theorem weaves_receive (acyclic : Acyclic atoms) (coherent : Coherent (atoms ++ replica.held))
    {atom : Atom} (known : ∃ other ∈ atoms, atom.same other = true)
    (causal : ∀ cause ∈ atom.cause, later.weave.contains cause = true) :
    (later.receive atom).2.Weaves atom := by
  obtain ⟨twin, present, same⟩ := known
  have apart : atom.cause ≠ some atom.id := by
    rw [Atom.cause_eq_of_same same, Atom.id_eq_of_same same]
    exact fun circular => acyclic _ (onCycle_of_self present circular)
  have agrees : ∀ other ∈ later.held, other.id.key = atom.id.key → other.same atom = true := by
    have here : Within (atom :: later.held) (atoms ++ replica.held) := by
      rintro other member
      rcases List.mem_cons.mp member with rfl | held
      · exact ⟨twin, List.mem_append_left _ present, same⟩
      · exact advanced.drawn other held
    intro other held
    exact coherent.of_within here other (List.mem_cons_of_mem _ held) atom (List.mem_cons_self ..)
  have encounter := advanced.sound.encounter atom
  rcases encounter.weaves advanced.sound agrees apart causal with
    ⟨other, woven, same, _⟩ | ⟨_, _, _, woven⟩
  · exact ⟨other, encounter.woven_subset other woven, same⟩
  · exact ⟨atom, woven, atom.same_refl⟩

/-- Atoms are woven by the time at which all have arrived if their causes were woven before. -/
theorem weaves_receiveAll (acyclic : Acyclic atoms) (coherent : Coherent (atoms ++ replica.held))
    {received : List Atom} (within : Within received atoms) {atom : Atom} (member : atom ∈ received)
    (causal : ∀ cause ∈ atom.cause, later.weave.contains cause = true) :
    (later.receiveAll received).2.Weaves atom := by
  induction received using List.reverseRecOn with
  | nil => simp at member
  | append_singleton received last ih =>
    have earlier : Within received atoms := fun other member => within other (by simp [member])
    have midway := advanced.receiveAll earlier
    rw [receiveAll_concat]
    rcases List.mem_append.mp member with before | here
    · obtain ⟨other, woven, same⟩ := ih earlier before
      exact ⟨other, (midway.sound.encounter last).woven_subset other woven, same⟩
    · rw [List.mem_singleton.mp here] at causal ⊢
      apply midway.weaves_receive acyclic coherent (within last (by simp))
      intro cause caused
      exact ((refl advanced.sound atoms).receiveAll earlier).contains advanced.sound (causal cause caused)

end Advanced

section Passes

variable {atoms : List Atom} {passes : List (List Atom)} (sound : replica.Sound)
  (coherent : Coherent (atoms ++ replica.held))

include sound

omit [Observer σ] in
include coherent in
theorem Sound.weaves_of_contains {atom : Atom} (member : atom ∈ atoms)
    (known : replica.weave.contains atom.id = true) : replica.Weaves atom := by
  obtain ⟨other, woven, same⟩ := sound.weave.contains_iff.mp known
  refine ⟨other, woven, ?_⟩
  exact coherent other (by simp [held, woven]) atom (by simp [member]) (congrArg AtomId.key same)

theorem Sound.advanced_receivePasses (whole : ∀ pass ∈ passes, Delivers pass atoms) :
    Advanced replica atoms (replica.receivePasses passes) := by
  induction passes using List.reverseRecOn with
  | nil => exact .refl sound atoms
  | append_singleton passes pass ih =>
    rw [receivePasses_concat]
    exact (ih fun other before => whole other (by simp [before])).receiveAll (whole pass (by simp)).1

include coherent in
/-- After some deliveries an atom is woven if no chain of causes that begins with it has more atoms that
were not woven at first. -/
theorem Sound.weaves_receivePasses (acyclic : Acyclic atoms)
    (causal : ∀ atom ∈ atoms, ∀ cause ∈ atom.cause,
      replica.weave.contains cause = true ∨ ∃ parent ∈ atoms, parent.id = cause)
    (whole : ∀ pass ∈ passes, Delivers pass atoms) {atom : Atom} (member : atom ∈ atoms)
    (enough : ∀ chain, CauseChain atoms (atom :: chain) →
      replica.weave.missing (atom :: chain) ≤ passes.length) :
    (replica.receivePasses passes).Weaves atom := by
  induction passes using List.reverseRecOn generalizing atom with
  | nil =>
    apply sound.weaves_of_contains coherent member
    simpa [Weave.missing] using enough [] ⟨by simpa using member, .singleton _⟩
  | append_singleton passes pass ih =>
    have earlier : ∀ other ∈ passes, Delivers other atoms := by
      intro other before
      exact whole other (by simp [before])
    have midway := sound.advanced_receivePasses earlier
    by_cases known : replica.weave.contains atom.id = true
    · have advanced := sound.advanced_receivePasses whole
      exact advanced.weaves (sound.weaves_of_contains coherent member known)
    have woven : ∀ cause ∈ atom.cause,
        (replica.receivePasses passes).weave.contains cause = true := by
      intro cause caused
      rcases causal atom member cause caused with known | ⟨parent, present, rfl⟩
      · exact midway.contains sound known
      · -- The chains that begin with the cause lack the atom, which was not woven.
        have fewer : ∀ chain, CauseChain atoms (parent :: chain) →
            replica.weave.missing (parent :: chain) ≤ passes.length := by
          intro chain linked
          have longer := enough (parent :: chain) (linked.cons member caused)
          simpa [Weave.missing, known] using longer
        obtain ⟨other, present, same⟩ := ih earlier present fewer
        exact midway.sound.weave.contains_iff.mpr ⟨other, present, Atom.id_eq_of_same same⟩
    rw [receivePasses_concat]
    obtain ⟨twin, delivered, same⟩ := (whole pass (by simp)).2 atom member
    rw [Atom.cause_eq_of_same same] at woven
    obtain ⟨other, present, agree⟩ := midway.weaves_receiveAll acyclic coherent
      (whole pass (by simp)).1 delivered woven
    exact ⟨other, present, Atom.same_trans agree (Atom.same_symm same)⟩

end Passes

/-- A replica has woven all of some atoms once they have been delivered, each time in any order and with
any repetitions, as many times as a chain of causes among them has atoms that were not woven at first. -/
theorem Reachable.redelivery_completes (reachable : replica.Reachable) {atoms : List Atom}
    (causal : ∀ atom ∈ atoms, ∀ cause ∈ atom.cause,
      replica.weave.contains cause = true ∨ ∃ parent ∈ atoms, parent.id = cause)
    (acyclic : Acyclic atoms) (coherent : Coherent (atoms ++ replica.held)) :
    ∃ depth, IsGreatest {count | ∃ chain, CauseChain atoms chain ∧ replica.weave.missing chain = count}
        depth ∧
      ∀ passes : List (List Atom), passes.length = depth → (∀ pass ∈ passes, Delivers pass atoms) →
        ∀ atom ∈ atoms, (replica.receivePasses passes).Weaves atom := by
  obtain ⟨depth, greatest⟩ := exists_isGreatest_missing acyclic replica.weave
  refine ⟨depth, greatest, ?_⟩
  rintro passes rfl whole atom member
  apply reachable.sound.weaves_receivePasses coherent acyclic causal whole member
  intro chain linked
  exact greatest.2 ⟨_, linked, rfl⟩

theorem acyclic_of_rooted {atoms : List Atom} (unique : (atoms.map (·.id.key)).Nodup)
    (rooted : ∀ atom ∈ atoms, Rooted atoms atom) : Acyclic atoms := by
  intro id cycle
  obtain ⟨_, ⟨atom, member, rfl, _⟩, _⟩ := TransGen.head'_iff.mp cycle
  exact (rooted atom member).not_onCycle (nodup_ids_of_keys unique) cycle

/-- Three atoms that come in the wrong order three times, to a replica on which an atom waits that leaves
no room for another. -/
theorem redelivery_completes_backwards :
    let orphan : Atom :=
      { id := { site := ⟨"d"⟩, timestamp := 9 }, cause := some { site := ⟨"d"⟩, timestamp := 8 } }
    let root : Atom := { id := { site := ⟨"a"⟩, timestamp := 1 } }
    let child : Atom := { id := { site := ⟨"b"⟩, timestamp := 2 }, cause := some root.id }
    let grandchild : Atom := { id := { site := ⟨"c"⟩, timestamp := 3 }, cause := some child.id }
    let replica := after ⟨"x"⟩ { pendingLimit := 1 } () [.receive orphan]
    let pass := [grandchild, child, root]
    replica.weave.missing pass = 3 ∧
      ∀ atom ∈ pass, (replica.receivePasses [pass, pass, pass]).Weaves atom := by
  intro orphan root child grandchild replica pass
  have reachable : replica.Reachable := ⟨_, _, _, _, rfl⟩
  have drawn : ∀ atom ∈ replica.held, atom ∈ [orphan] := mem_of_held_after _ _ _ [orphan]
  have unique : ((pass ++ [orphan]).map (·.id.key)).Nodup := by decide
  have coherent : Coherent (pass ++ replica.held) :=
    (coherent_of_unique unique).of_within
      ((within_of_subset fun _ => id).append (within_of_subset drawn))
  have unwoven : ∀ atom ∈ pass, replica.weave.contains atom.id = false := by
    intro atom member
    rw [← Bool.not_eq_true, reachable.sound.weave.contains_iff]
    rintro ⟨other, woven, same⟩
    rw [List.mem_singleton.mp (drawn other (List.mem_append_left _ woven))] at same
    revert atom
    decide
  clear_value replica
  have acyclic : Acyclic pass := by
    have first : Rooted pass root := .root (by simp [pass]) rfl
    have second : Rooted pass child := first.effect (by simp [pass]) rfl
    have third : Rooted pass grandchild := second.effect (by simp [pass]) rfl
    apply acyclic_of_rooted (by decide)
    simpa [pass] using ⟨third, second, first⟩
  have missing : replica.weave.missing pass = 3 := by
    simp [Weave.missing, pass, unwoven grandchild, unwoven child, unwoven root]
  have causal : ∀ atom ∈ pass, ∀ cause ∈ atom.cause,
      replica.weave.contains cause = true ∨ ∃ parent ∈ pass, parent.id = cause := by
    simp [pass, grandchild, child, root]
  obtain ⟨depth, greatest, completes⟩ := reachable.redelivery_completes causal acyclic coherent
  have linked : CauseChain pass pass := by
    refine ⟨fun _ => id, ?_⟩
    simp [pass, grandchild, child]
  have most : depth = 3 := by
    apply greatest.unique ⟨⟨pass, linked, missing⟩, ?_⟩
    rintro _ ⟨chain, linked, rfl⟩
    exact linked.missing_le acyclic replica.weave
  refine ⟨missing, completes [pass, pass, pass] most.symm ?_⟩
  intro other member
  rw [show other = pass by simpa using member]
  exact .refl pass

end Replica
end CausalWeave
