import CausalWeave.Proofs.Replica.Reception
import Mathlib.Data.List.Induction

namespace CausalWeave

theorem Weave.Sound.rooted {weave : Weave} (sound : weave.Sound) {atom : Atom}
    (woven : atom ∈ weave.toList) : Rooted weave.toList atom := by
  obtain ⟨before, after, order⟩ := List.append_of_mem woven
  induction length : before.length using Nat.strongRecOn generalizing before after atom with
  | ind count ih =>
    cases caused : atom.cause with
    | none => exact .root woven caused
    | some cause =>
      obtain ⟨parent, present, rfl⟩ := sound.cause_before order caused
      obtain ⟨first, last, rfl⟩ := List.append_of_mem present
      have stands : weave.toList = first ++ parent :: (last ++ atom :: after) := by simpa using order
      have shorter : first.length < count := by
        rw [← length, List.length_append, List.length_cons]
        omega
      exact .effect (ih first.length shorter (by simp [stands]) first _ stands rfl) woven caused

/-- The list has the atoms of a set in it and no others, in any order and any number of times. Atoms
of the same content count as one. -/
def Delivers (list atoms : List Atom) : Prop :=
  Within list atoms ∧ Within atoms list

theorem delivers_of_mem_iff {list atoms : List Atom} (same : ∀ atom, atom ∈ list ↔ atom ∈ atoms) :
    Delivers list atoms :=
  ⟨within_of_subset fun atom => (same atom).mp, within_of_subset fun atom => (same atom).mpr⟩

theorem Delivers.refl (list : List Atom) : Delivers list list :=
  delivers_of_mem_iff fun _ => Iff.rfl

theorem Delivers.symm (delivers : Delivers first second) : Delivers second first :=
  ⟨delivers.2, delivers.1⟩

theorem Delivers.trans (delivers : Delivers first second) (also : Delivers second third) :
    Delivers first third :=
  ⟨delivers.1.trans also.1, also.2.trans delivers.2⟩

theorem Delivers.append {list atoms others : List Atom} (delivers : Delivers list atoms)
    (also : Delivers rest others) : Delivers (list ++ rest) (atoms ++ others) :=
  ⟨delivers.1.append also.1, delivers.2.append also.2⟩

open Classical in
/-- The atoms of a set whose chain of causes stays in the set and ends at a root. -/
noncomputable def rootedAtoms (atoms : List Atom) : List Atom :=
  atoms.filter fun atom => decide (Rooted atoms atom)

open Classical in
noncomputable def unrootedAtoms (atoms : List Atom) : List Atom :=
  atoms.filter fun atom => !decide (Rooted atoms atom)

theorem rootedAtoms_sublist {atoms : List Atom} : (rootedAtoms atoms).Sublist atoms :=
  List.filter_sublist

theorem unrootedAtoms_sublist {atoms : List Atom} : (unrootedAtoms atoms).Sublist atoms :=
  List.filter_sublist

theorem mem_rootedAtoms : atom ∈ rootedAtoms atoms ↔ Rooted atoms atom := by
  simpa [rootedAtoms] using fun rooted : Rooted atoms atom => rooted.mem

theorem Rooted.in_rootedAtoms (rooted : Rooted atoms atom) : Rooted (rootedAtoms atoms) atom := by
  induction rooted with
  | root member uncaused => exact .root (mem_rootedAtoms.mpr (.root member uncaused)) uncaused
  | effect parent_rooted member caused ih =>
    exact .effect ih (mem_rootedAtoms.mpr (.effect parent_rooted member caused)) caused

theorem rootedAtoms_eq_self {atoms : List Atom} (rooted : ∀ atom ∈ atoms, Rooted atoms atom) :
    rootedAtoms atoms = atoms := by
  simpa [rootedAtoms] using rooted

theorem mem_unrootedAtoms : atom ∈ unrootedAtoms atoms ↔ atom ∈ atoms ∧ ¬ Rooted atoms atom := by
  simp [unrootedAtoms]

/-- The sequences have atoms of the same content in the same order. -/
abbrev SameSequence (first second : List Atom) : Prop :=
  List.Forall₂ (fun atom other => atom.same other = true) first second

theorem SameSequence.symm (agree : SameSequence first second) : SameSequence second first :=
  List.Forall₂.flip (agree.imp fun _ _ => Atom.same_symm)

theorem SameSequence.trans (agree : SameSequence first second)
    (also : SameSequence second third) : SameSequence first third := by
  induction agree generalizing third with
  | nil => exact also
  | cons same _ ih =>
    cases also with
    | cons same' also => exact .cons (Atom.same_trans same same') (ih also)

theorem SameSequence.eq_of_subset (agree : SameSequence first second) {atoms : List Atom}
    (unique : (atoms.map (·.id.key)).Nodup) (subset : ∀ atom ∈ first, atom ∈ atoms)
    (subset' : ∀ atom ∈ second, atom ∈ atoms) : first = second := by
  induction agree with
  | nil => rfl
  | cons same _ ih =>
    simp only [List.mem_cons, forall_eq_or_imp] at subset subset'
    rw [ih subset.2 subset'.2, eq_of_key unique subset.1 subset'.1
      (congrArg AtomId.key (Atom.id_eq_of_same same))]

theorem Delivers.sameSequence (delivers : Delivers first second)
    (distinct : (first.map (·.id)).Nodup) (distinct' : (second.map (·.id)).Nodup) :
    SameSequence (canonicalOrder first) (canonicalOrder second) := by
  apply forall₂_canonicalOrder Atom.id_eq_of_same Atom.cause_eq_of_same distinct distinct'
  refine ⟨delivers.1, ?_⟩
  intro atom member
  obtain ⟨other, present, same⟩ := delivers.2 atom member
  exact ⟨other, present, Atom.same_symm same⟩

namespace Replica

/-- A sound replica has woven the rooted ones of the atoms that it holds. -/
theorem Sound.woven_iff {replica : Replica σ} (sound : replica.Sound) {atoms : List Atom}
    (held : ∀ atom, atom ∈ replica.held ↔ atom ∈ atoms) :
    atom ∈ replica.weave.toList ↔ Rooted atoms atom := by
  constructor
  · intro woven
    apply (sound.weave.rooted woven).mono
    intro other member
    exact (held other).mp (List.mem_append_left _ member)
  · intro rooted
    have member := (held atom).mpr rooted.mem
    induction rooted with
    | root _ uncaused =>
      rcases List.mem_append.mp member with woven | waiting
      · exact woven
      · obtain ⟨cause, caused⟩ := sound.pending.exists_cause waiting
        simp [uncaused] at caused
    | effect parent_rooted _ caused ih =>
      rcases List.mem_append.mp member with woven | waiting
      · exact woven
      · have parent := ih ((held _).mpr parent_rooted.mem)
        have early := sound.weave.contains_iff.mpr ⟨_, parent, rfl⟩
        simp [sound.absent _ waiting _ caused] at early

variable [Observer σ]

/-- A refusal of an atom whose chain of causes comes back to it, and what it says of the atom. -/
def RefusesCycle (atoms : List Atom) (why : Refusal) : Prop :=
  ∃ atom ∈ atoms, OnCycle atoms atom.id ∧ (why = .selfCausation atom.id ∨
    ∃ cause, atom.cause = some cause ∧ why = .causalCycle atom.id cause)

/-- Where a replica stands that has received a part of the atoms of a set. -/
structure Collected (atoms received : List Atom) (state : Intake × Replica σ) : Prop where
  sound : state.2.Sound
  unlimited : state.2.config.bound = none
  drawn : ∀ atom ∈ state.2.held, atom ∈ received
  kept : ∀ atom ∈ received, ¬ OnCycle atoms atom.id → ∃ other ∈ state.2.held, other.same atom = true
  refusals : ∀ why ∈ state.1.rejected, RefusesCycle atoms why

/-- Without a limit an atom is refused only if its chain of causes comes back to it. -/
theorem Encounter.refusesCycle {replica : Replica σ} (sound : replica.Sound)
    (unlimited : replica.config.bound = none) {atoms : List Atom}
    (unique : (atoms.map (·.id.key)).Nodup) (within : Within (atom :: replica.held) atoms)
    (encounter : replica.Encounter atom result) (refused : result.1 = .error why) :
    RefusesCycle atoms why ∧ OnCycle atoms atom.id := by
  obtain ⟨other, present, same⟩ := within atom (by simp)
  have id := Atom.id_eq_of_same same
  have cause_eq := Atom.cause_eq_of_same same
  cases encounter with
  | selfCausation caused =>
    cases refused
    have cycle : OnCycle atoms other.id := onCycle_of_self present (by rw [← cause_eq, caused, id])
    exact ⟨⟨other, present, cycle, .inl (by rw [id])⟩, id ▸ cycle⟩
  | identityCollision holder held key different =>
    have agree := within.coherent unique holder (by simp [held]) atom (by simp) key
    simp [agree] at different
  | causalCycle cause caused missing cycle =>
    cases refused
    have waiting : Within replica.pending.atoms atoms := by
      intro waiting member
      exact within waiting (by simp [Replica.held, member])
    have names : NamesCause atoms other.id cause := ⟨other, present, rfl, by rw [← cause_eq, caused]⟩
    have back := cycle.lift (fun id => id) fun _ _ => waiting.namesCause
    rw [id] at back
    have cycle : OnCycle atoms other.id := .head names back
    exact ⟨⟨other, present, cycle, .inr ⟨cause, by rw [← cause_eq, caused], by rw [id]⟩⟩, id ▸ cycle⟩
  | full cause caused missing fresh limit bounded reached =>
    simp [sound.limit, unlimited] at bounded
  | _ => simp at refused

theorem rejected_add (intake : Intake) (outcome : Except Refusal Reception) :
    (intake.add outcome).rejected = intake.rejected ∨
      ∃ why, outcome = .error why ∧ (intake.add outcome).rejected = intake.rejected ++ [why] := by
  rcases outcome with why | (_ | _ | _) <;> simp [Intake.add]

theorem Collected.receive {atoms received : List Atom} {state : Intake × Replica σ}
    (collected : Collected atoms received state) (unique : (atoms.map (·.id.key)).Nodup)
    (within : Within (received ++ [atom]) atoms) :
    Collected atoms (received ++ [atom])
      (state.1.add (state.2.receive atom).1, (state.2.receive atom).2) := by
  have encounter := collected.sound.encounter atom
  have known : Within (atom :: state.2.held) atoms := by
    intro other member
    apply within
    rcases List.mem_cons.mp member with here | held
    · simp [here]
    · simp [collected.drawn other held]
  have coherent := known.coherent unique
  have refuses : ∀ why, (state.2.receive atom).1 = .error why →
      RefusesCycle atoms why ∧ OnCycle atoms atom.id := by
    intro why
    exact encounter.refusesCycle collected.sound collected.unlimited unique known
  refine
    { sound := collected.sound.receive atom
      unlimited := by rw [encounter.config, collected.unlimited]
      drawn := ?drawn
      kept := ?kept
      refusals := ?refusals }
  case drawn =>
    intro other member
    rcases List.mem_cons.mp (encounter.held_subset other member) with here | held
    · simp [here]
    · simp [collected.drawn other held]
  case kept =>
    intro other member acyclic
    rcases List.mem_append.mp member with earlier | here
    · obtain ⟨kept, held, same⟩ := collected.kept other earlier acyclic
      exact ⟨kept, encounter.held_kept collected.sound coherent kept held, same⟩
    · rw [List.mem_singleton.mp here] at acyclic ⊢
      cases outcome : (state.2.receive atom).1 with
      | error why => exact absurd (refuses why outcome).2 acyclic
      | ok reception => exact encounter.holds_atom outcome
  case refusals =>
    intro why member
    rcases rejected_add state.1 (state.2.receive atom).1 with same | ⟨last, outcome, longer⟩
    · exact collected.refusals why (same ▸ member)
    · rw [longer] at member
      rcases List.mem_append.mp member with earlier | here
      · exact collected.refusals why earlier
      · exact List.mem_singleton.mp here ▸ (refuses last outcome).1

theorem collected_receiveAll {atoms received : List Atom} (unique : (atoms.map (·.id.key)).Nodup)
    (within : Within received atoms) (site : Site) (config : Replica.Config)
    (unlimited : config.bound = none) (observer : σ) :
    Collected atoms received ((fresh site config observer).receiveAll received) := by
  induction received using List.reverseRecOn with
  | nil =>
    exact
      { sound := sound_fresh site config observer
        unlimited := unlimited
        drawn := by simp [receiveAll, held_fresh]
        kept := by simp
        refusals := by simp [receiveAll] }
  | append_singleton received atom ih =>
    have earlier : Within received atoms := by
      intro other member
      exact within other (by simp [member])
    rw [receiveAll_concat]
    exact (ih earlier).receive unique within

namespace Collected

variable {atoms received : List Atom} {state : Intake × Replica σ}
  (collected : Collected atoms received state) (unique : (atoms.map (·.id.key)).Nodup)
  (whole : Delivers received atoms)

include collected unique whole

omit [Observer σ]

omit unique in
theorem within_held : Within state.2.held atoms :=
  fun atom held => whole.1 atom (collected.drawn atom held)

/-- Every rooted atom is woven, since the atoms of its chain are held. -/
theorem woven_of_rooted (rooted : Rooted atoms atom) :
    ∃ other ∈ state.2.weave.toList, atom.same other = true := by
  have within : Within (rootedAtoms atoms) state.2.held := by
    intro atom member
    have rooted := mem_rootedAtoms.mp member
    obtain ⟨first, member, same⟩ := whole.2 atom rooted.mem
    have acyclic := rooted.not_onCycle (nodup_ids_of_keys unique)
    rw [Atom.id_eq_of_same same] at acyclic
    obtain ⟨second, held, same'⟩ := collected.kept first member acyclic
    exact ⟨second, held, Atom.same_trans same (Atom.same_symm same')⟩
  obtain ⟨other, same, rooted⟩ := within.rooted rooted.in_rootedAtoms
  exact ⟨other, (collected.sound.woven_iff fun _ => Iff.rfl).mpr rooted, same⟩

omit unique in
theorem rooted_of_woven (woven : atom ∈ state.2.weave.toList) :
    ∃ other, atom.same other = true ∧ Rooted atoms other := by
  have within : Within state.2.weave.toList atoms := by
    intro atom member
    exact collected.within_held whole atom (List.mem_append_left _ member)
  exact within.rooted (collected.sound.weave.rooted woven)

theorem sameSequence : SameSequence state.2.weave.toList (canonicalOrder (rootedAtoms atoms)) := by
  have distinct : ((rootedAtoms atoms).map (·.id)).Nodup :=
    (nodup_ids_of_keys unique).sublist (rootedAtoms_sublist.map _)
  rw [← collected.sound.weave.canonicalOrder_toList]
  apply Delivers.sameSequence _ collected.sound.weave.nodup_ids distinct
  constructor
  · intro atom woven
    obtain ⟨other, same, rooted⟩ := collected.rooted_of_woven whole woven
    exact ⟨other, mem_rootedAtoms.mpr rooted, same⟩
  · intro atom rooted
    exact collected.woven_of_rooted unique whole (mem_rootedAtoms.mp rooted)

/-- Without a cycle every atom is held, and those that are not rooted wait. -/
theorem delivers_pending (acyclic : ∀ atom ∈ atoms, ¬ OnCycle atoms atom.id) :
    Delivers state.2.pending.atoms (unrootedAtoms atoms) := by
  have within := collected.within_held whole
  constructor
  · intro atom waiting
    obtain ⟨other, present, same⟩ := within atom (List.mem_append_right _ waiting)
    refine ⟨other, mem_unrootedAtoms.mpr ⟨present, ?_⟩, same⟩
    intro rooted
    obtain ⟨twin, woven, agree⟩ := collected.woven_of_rooted unique whole rooted
    have apart := collected.sound.not_woven_of_waiting waiting woven
    simp [Atom.same_symm (Atom.same_trans same agree)] at apart
  · intro atom member
    obtain ⟨present, unrooted⟩ := mem_unrootedAtoms.mp member
    obtain ⟨first, delivered, same⟩ := whole.2 atom present
    obtain ⟨other, held, same'⟩ := collected.kept first delivered
      (Atom.id_eq_of_same same ▸ acyclic atom present)
    have agree := Atom.same_trans same (Atom.same_symm same')
    rcases List.mem_append.mp held with woven | waiting
    · obtain ⟨twin, agree', rooted⟩ := collected.rooted_of_woven whole woven
      have twins := Atom.id_eq_of_same (Atom.same_trans agree agree')
      rw [eq_of_key unique present rooted.mem (congrArg AtomId.key twins)] at unrooted
      exact absurd rooted unrooted
    · exact ⟨other, waiting, agree⟩

/-- The sequence has the very atoms of the set when they were delivered themselves. -/
theorem eq_canonicalOrder (verbatim : ∀ atom ∈ received, atom ∈ atoms) :
    state.2.weave.toList = canonicalOrder (rootedAtoms atoms) := by
  apply (collected.sameSequence unique whole).eq_of_subset unique
  · intro atom woven
    exact verbatim atom (collected.drawn atom (List.mem_append_left _ woven))
  · intro atom member
    exact (mem_rootedAtoms.mp (mem_of_mem_canonicalOrder member)).mem

end Collected

/-- How a replica ends that has received all atoms of a set: the rooted ones are woven in the
canonical order and none of them was refused. Without a cycle nothing was refused, and all other
atoms wait. -/
structure Gathered (atoms received : List Atom) (result : Intake × Replica σ) : Prop where
  sequence : SameSequence result.2.weave.toList (canonicalOrder (rootedAtoms atoms))
  verbatim : (∀ atom ∈ received, atom ∈ atoms) →
    result.2.weave.toList = canonicalOrder (rootedAtoms atoms)
  refusals : ∀ why ∈ result.1.rejected, ∃ atom ∈ unrootedAtoms atoms,
    why = .selfCausation atom.id ∨
      ∃ cause, atom.cause = some cause ∧ why = .causalCycle atom.id cause
  accepted : (∀ atom ∈ atoms, ¬ OnCycle atoms atom.id) → result.1.rejected = []
  waiting : (∀ atom ∈ atoms, ¬ OnCycle atoms atom.id) →
    Delivers result.2.pending.atoms (unrootedAtoms atoms) ∧
      (result.2.pending.atoms.map (·.id)).Nodup

omit [Observer σ] in
theorem Collected.gathered {atoms received : List Atom} {state : Intake × Replica σ}
    (collected : Collected atoms received state) (unique : (atoms.map (·.id.key)).Nodup)
    (whole : Delivers received atoms) : Gathered atoms received state where
  sequence := collected.sameSequence unique whole
  verbatim := collected.eq_canonicalOrder unique whole
  refusals := by
    intro why member
    obtain ⟨atom, present, cycle, stated⟩ := collected.refusals why member
    refine ⟨atom, mem_unrootedAtoms.mpr ⟨present, ?_⟩, stated⟩
    intro rooted
    exact rooted.not_onCycle (nodup_ids_of_keys unique) cycle
  accepted := by
    intro acyclic
    apply List.eq_nil_iff_forall_not_mem.mpr
    intro why member
    obtain ⟨atom, present, cycle, _⟩ := collected.refusals why member
    exact acyclic atom present cycle
  waiting := by
    intro acyclic
    exact ⟨collected.delivers_pending unique whole acyclic, collected.sound.pending.distinct⟩

/-- Two replicas without a limit that receive the same set of atoms, each in an order of its own and
with any repetitions, end with the same sequence. -/
theorem receiveAll_converges [Observer τ] (atoms : List Atom)
    (unique : (atoms.map (·.id.key)).Nodup) (first second : List Atom)
    (whole : Delivers first atoms) (whole' : Delivers second atoms) (site site' : Site)
    (config config' : Replica.Config) (unlimited : config.bound = none)
    (unlimited' : config'.bound = none) (observer : σ) (observer' : τ) :
    let one := (fresh site config observer).receiveAll first
    let other := (fresh site' config' observer').receiveAll second
    SameSequence one.2.weave.toList other.2.weave.toList ∧
      Gathered atoms first one ∧ Gathered atoms second other := by
  intro one other
  have gathered := (collected_receiveAll unique whole.1 site config unlimited observer).gathered
    unique whole
  have gathered' := (collected_receiveAll unique whole'.1 site' config' unlimited' observer').gathered
    unique whole'
  exact ⟨gathered.sequence.trans gathered'.sequence.symm, gathered, gathered'⟩

/-- A root and its child, an atom whose cause is missing, one that is its own cause and two that cause
each other, in two orders. -/
theorem receiveAll_converges_mixed :
    let root : Atom := { id := { site := ⟨"a"⟩, timestamp := 1 } }
    let child : Atom := { id := { site := ⟨"b"⟩, timestamp := 2 }, cause := some root.id }
    let orphan : Atom :=
      { id := { site := ⟨"b"⟩, timestamp := 5 }
        cause := some { site := ⟨"b"⟩, timestamp := 4 } }
    let circular : Atom :=
      { id := { site := ⟨"c"⟩, timestamp := 1 }
        cause := some { site := ⟨"c"⟩, timestamp := 1 } }
    let forth : Atom :=
      { id := { site := ⟨"d"⟩, timestamp := 1 }
        cause := some { site := ⟨"d"⟩, timestamp := 2 } }
    let back : Atom := { id := { site := ⟨"d"⟩, timestamp := 2 }, cause := some forth.id }
    SameSequence
      ((fresh ⟨"x"⟩ .unbounded ()).receiveAll
        [child, forth, circular, root, back, root, orphan]).2.weave.toList
      ((fresh ⟨"y"⟩ .unbounded ({} : Recorder)).receiveAll
        [orphan, back, forth, back, child, circular, root]).2.weave.toList := by
  intro root child orphan circular forth back
  have listed : ∀ list : List Atom,
      (∀ atom, atom ∈ list ↔ atom ∈ [root, child, orphan, circular, forth, back]) →
        Delivers list [root, child, orphan, circular, forth, back] := by
    intro list same
    exact ⟨within_of_subset fun atom => (same atom).mp, within_of_subset fun atom => (same atom).mpr⟩
  refine (receiveAll_converges [root, child, orphan, circular, forth, back] (by decide) _ _
    (listed _ fun atom => ?_) (listed _ fun atom => ?_) _ _ _ _ rfl rfl () ({} : Recorder)).1 <;>
  · simp only [List.mem_cons]
    tauto

end Replica
end CausalWeave
