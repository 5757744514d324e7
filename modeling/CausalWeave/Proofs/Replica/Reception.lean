import CausalWeave.Proofs.Cascade
import CausalWeave.Proofs.Content
import CausalWeave.Replica
import Mathlib.Data.List.Induction

namespace CausalWeave.Replica

def held (replica : Replica σ) : List Atom :=
  replica.weave.toList ++ replica.pending.atoms

def hearing (replica : Replica σ) (atom : Atom) : Replica σ :=
  { replica with clock := replica.clock.observe atom.id.timestamp }

structure Sound (replica : Replica σ) : Prop where
  weave : replica.weave.Sound
  pending : replica.pending.Sound
  limit : replica.pending.limit = replica.config.bound
  absent : ∀ atom ∈ replica.pending.atoms, ∀ cause, atom.cause = some cause →
    replica.weave.contains cause = false
  heard : ∀ atom ∈ replica.held, atom.id.timestamp ≤ replica.clock.latest

theorem sound_fresh (site : Site) (config : Replica.Config) (observer : σ) :
    (fresh site config observer).Sound where
  weave := Weave.sound_empty
  pending := PendingBuffer.sound_empty _
  limit := rfl
  absent := by simp [fresh, PendingBuffer.atoms]
  heard := by simp [held, fresh, PendingBuffer.atoms]

/-- The observer has no part in the soundness of a replica. -/
theorem Sound.observed {replica : Replica σ} (sound : replica.Sound) (observer : τ) :
    Sound { replica with observer } where
  weave := sound.weave
  pending := sound.pending
  limit := sound.limit
  absent := sound.absent
  heard := sound.heard

theorem held_fresh (site : Site) (config : Replica.Config) (observer : σ) :
    (fresh site config observer).held = [] := by
  simp [held, fresh, PendingBuffer.atoms]

/-- No atom waits that is woven, since its cause would be woven. -/
theorem Sound.not_woven_of_waiting {replica : Replica σ} (sound : replica.Sound)
    (waiting : atom ∈ replica.pending.atoms) {other : Atom} (woven : other ∈ replica.weave.toList) :
    other.same atom = false := by
  obtain ⟨cause, caused⟩ := sound.pending.exists_cause waiting
  rw [← Bool.not_eq_true]
  intro same
  have early := sound.weave.contains_cause woven ((Atom.cause_eq_of_same same).trans caused)
  simp [sound.absent atom waiting cause caused] at early

variable [Observer σ]

/-- All that taking in an atom can come to. -/
inductive Encounter (replica : Replica σ) (atom : Atom) :
    Except Refusal Reception × Replica σ → Prop where
  | selfCausation (caused : atom.cause = some atom.id) :
      Encounter replica atom (.error (.selfCausation atom.id), replica.hearing atom)
  | identityCollision (other : Atom) (held : other ∈ replica.held)
      (key : other.id.key = atom.id.key) (different : other.same atom = false) :
      Encounter replica atom (.error (.identityCollision atom.id), replica.hearing atom)
  | causalCycle (cause : AtomId) (caused : atom.cause = some cause)
      (missing : replica.weave.contains cause = false)
      (cycle : Relation.TransGen (NamesCause replica.pending.atoms) cause atom.id) :
      Encounter replica atom (.error (.causalCycle atom.id cause), replica.hearing atom)
  | full (cause : AtomId) (caused : atom.cause = some cause)
      (missing : replica.weave.contains cause = false)
      (fresh : ∀ other ∈ replica.held, other.id ≠ atom.id) (limit : Nat)
      (bounded : replica.pending.limit = some limit) (reached : limit ≤ replica.pending.size) :
      Encounter replica atom (.error (.pendingBufferFull limit atom.id cause), replica.hearing atom)
  | duplicate (other : Atom) (held : other ∈ replica.held) (same : other.same atom = true) :
      Encounter replica atom (.ok .duplicate, replica.hearing atom)
  | deferred (cause : AtomId) (caused : atom.cause = some cause) (apart : cause ≠ atom.id)
      (missing : replica.weave.contains cause = false)
      (fresh : ∀ other ∈ replica.held, other.id ≠ atom.id)
      (acyclic : replica.pending.leadsTo cause atom.id = false)
      (room : ∀ limit ∈ replica.pending.limit, replica.pending.size < limit) :
      Encounter replica atom
        (.ok .deferred, { replica.hearing atom with pending := replica.pending.push cause atom })
  | woven (fresh : ∀ other ∈ replica.weave.toList, other.id.key ≠ atom.id.key)
      (causal : ∀ cause ∈ atom.cause, replica.weave.contains cause = true) (placed : Weave)
      (before after : List Atom) (order : replica.weave.toList = before ++ after)
      (walk : placed.toList = before ++ atom :: after) (ledger : Cascade.Ledger)
      (cascade : Cascade σ)
      (accounts : ledger.Accounts
        { weave := placed
          observer := Observer.notice replica.observer (atom.placedAt before.length)
          buffer := replica.pending
          woken := [atom.id] }
        cascade [])
      (ended : cascade.woken = []) :
      Encounter replica atom
        (.ok (.woven before.length cascade.release.woven),
          { replica.hearing atom with
            weave := cascade.weave, pending := cascade.buffer, observer := cascade.observer })

/-- Taking in an atom does one of the seven things. -/
theorem Sound.encounter {replica : Replica σ} (sound : replica.Sound) (atom : Atom) :
    replica.Encounter atom (replica.receive atom) := by
  have attempt := sound.weave.attempt atom
  simp only [receive, Weave.insertObserved]
  generalize replica.weave.insert atom = result at attempt
  cases attempt with
  | selfCausation caused => exact .selfCausation caused
  | identityCollision _ other woven key different =>
    exact .identityCollision other (List.mem_append_left _ woven) key different
  | alreadyPresent _ other woven same =>
    exact .duplicate other (List.mem_append_left _ woven) same
  | causeMissing apart fresh cause caused missing =>
    have answer := sound.pending.answer atom
    generalize replica.pending.hold atom = answered at answer
    have unheld : (∀ other ∈ replica.pending.atoms, other.id ≠ atom.id) →
        ∀ other ∈ replica.held, other.id ≠ atom.id := by
      intro unbuffered other member
      rcases List.mem_append.mp member with woven | waiting
      · intro same
        exact fresh other woven (congrArg AtomId.key same)
      · exact unbuffered other waiting
    cases answer with
    | root uncaused => simp [caused] at uncaused
    | selfCausation circular => exact absurd circular apart
    | alreadyHeld other waiting same =>
      exact .duplicate other (List.mem_append_right _ waiting) same
    | identityCollision other waiting id different =>
      exact .identityCollision other (List.mem_append_right _ waiting) (congrArg AtomId.key id)
        different
    | causalCycle named caused' _ cycle =>
      rw [caused, Option.some.injEq] at caused'
      subst named
      exact .causalCycle cause caused missing (sound.pending.transGen_of_reaches cycle)
    | full named caused' unbuffered _ limit bounded reached =>
      rw [caused, Option.some.injEq] at caused'
      subst named
      exact .full cause caused missing (unheld unbuffered) limit bounded reached
    | held named caused' apart unbuffered acyclic room =>
      rw [caused, Option.some.injEq] at caused'
      subst named
      exact .deferred cause caused apart missing (unheld unbuffered) acyclic room
  | inserted _ fresh causal placed later before after order walk =>
    have woken : placed.contains atom.id = true :=
      later.contains_iff.mpr ⟨atom, by simp [walk], rfl⟩
    obtain ⟨ledger, accounts, ended⟩ := sound.pending.accounts_release later woken
      (Observer.notice replica.observer (atom.placedAt before.length))
    exact .woven fresh causal placed before after order walk ledger _ accounts ended

section Woven

variable {replica : Replica σ} {atom : Atom} {placed : Weave} {observer : σ} {before after : List Atom}
  {ledger : Cascade.Ledger} {cascade : Cascade σ} (sound : replica.Sound)
  (causal : ∀ cause ∈ atom.cause, replica.weave.contains cause = true)
  (order : replica.weave.toList = before ++ after) (walk : placed.toList = before ++ atom :: after)
  (accounts : ledger.Accounts
    { weave := placed, observer, buffer := replica.pending, woken := [atom.id] } cascade [])
  (ended : cascade.woken = [])

include order walk accounts

theorem woven_perm :
    cascade.weave.toList.Perm (atom :: replica.weave.toList ++ ledger.landings.map (·.1)) := by
  apply accounts.grown.perm.trans
  apply List.Perm.append_right
  rw [walk, order]
  exact List.perm_middle

omit accounts [Observer σ] in
private theorem held_at_start : ∀ other ∈ placed.toList ++ replica.pending.atoms,
    other ∈ atom :: replica.held := by
  intro other member
  rw [walk, List.mem_append, List.perm_middle.mem_iff, ← order] at member
  simpa [held, or_assoc] using member

private theorem held_after_woven : ∀ other ∈ cascade.weave.toList ++ cascade.buffer.atoms,
    other ∈ atom :: replica.held := by
  intro other member
  apply held_at_start order walk
  rcases List.mem_append.mp member with woven | waiting
  · exact accounts.woven_subset other woven
  · exact List.mem_append_right _ (accounts.accounted.mem_iff.mpr (by simp [waiting]))

include sound ended in
/-- At the end of the cascade nothing waits for an atom that is woven. -/
private theorem absent_after_woven : ∀ waiting ∈ cascade.buffer.atoms, ∀ cause,
    waiting.cause = some cause → cascade.weave.contains cause = false := by
  intro waiting member cause caused
  have kept : waiting ∈ replica.pending.atoms :=
    accounts.accounted.mem_iff.mpr (by simp [member])
  by_contra woven
  rw [Bool.not_eq_false] at woven
  obtain ⟨other, present, same⟩ := accounts.weave.contains_iff.mp woven
  -- Had the cause been woven before, the atom would not have waited; so the cascade has woven it.
  have waked : cause ∈ [atom.id] ∨ cause ∈ ledger.landings.map (·.1.id) := by
    rw [(woven_perm order walk accounts).mem_iff, List.mem_append, List.mem_cons] at present
    rcases present with (here | old) | landed
    · exact .inl (by simp [← same, here])
    · have early := sound.weave.contains_iff.mpr ⟨other, old, same⟩
      simp [sound.absent waiting kept cause caused] at early
    · obtain ⟨landing, inside, equal⟩ := List.mem_map.mp landed
      exact .inr (List.mem_map.mpr ⟨landing, inside, by rw [equal, same]⟩)
  have next := accounts.awaited waiting member cause caused waked
  simp [ended] at next

include sound causal in
/-- No atom that waited was woven already, since its cause was not. -/
theorem repeated_eq_nil : ledger.repeated = [] := by
  apply List.eq_nil_iff_forall_not_mem.mpr
  intro waiting member
  have kept : waiting ∈ replica.pending.atoms :=
    accounts.accounted.mem_iff.mpr (by simp [member])
  obtain ⟨cause, caused⟩ := sound.pending.exists_cause kept
  have missing := sound.absent waiting kept cause caused
  obtain ⟨other, present, same⟩ := accounts.present_at_start sound.pending waiting member
  have known : other = atom ∨ other ∈ replica.weave.toList := by
    rw [walk, List.perm_middle.mem_iff, ← order] at present
    exact List.mem_cons.mp present
  have caused' := (Atom.cause_eq_of_same same).trans caused
  rcases known with here | old
  · simp [causal cause (by rw [← here, caused']; rfl)] at missing
  · simp [sound.weave.contains_cause old caused'] at missing

private theorem refused_eq_nil (coherent : Coherent (atom :: replica.held)) :
    ledger.refused = [] := by
  exact accounts.refused_eq_nil
    (coherent.of_within (within_of_subset (held_at_start order walk)))

end Woven

/-- A replica stays sound whatever it receives. -/
theorem Encounter.sound {replica : Replica σ} (sound : replica.Sound) {atom : Atom}
    (encounter : replica.Encounter atom result) : result.2.Sound := by
  have hears : ∀ other ∈ atom :: replica.held,
      other.id.timestamp ≤ (replica.hearing atom).clock.latest := by
    intro other member
    simp only [hearing, UInt64.le_iff_toNat_le, LamportClock.toNat_latest_observe]
    rcases List.mem_cons.mp member with here | held
    · rw [here]
      exact Nat.le_max_right _ _
    · exact Nat.le_trans (UInt64.le_iff_toNat_le.mp (sound.heard other held)) (Nat.le_max_left _ _)
  have unchanged : (replica.hearing atom).Sound :=
    { weave := sound.weave
      pending := sound.pending
      limit := sound.limit
      absent := sound.absent
      heard := fun other member => hears other (List.mem_cons_of_mem _ member) }
  cases encounter with
  | selfCausation => exact unchanged
  | identityCollision => exact unchanged
  | causalCycle => exact unchanged
  | full => exact unchanged
  | duplicate => exact unchanged
  | deferred cause caused apart missing fresh =>
    have held := replica.pending.atoms_push_perm cause atom
    have unbuffered : ∀ other ∈ replica.pending.atoms, other.id ≠ atom.id := by
      intro other member
      exact fresh other (List.mem_append_right _ member)
    refine
      { weave := sound.weave
        pending := sound.pending.push caused apart unbuffered
        limit := sound.limit
        absent := ?absent
        heard := ?heard }
    case absent =>
      intro waiting member other caused'
      rcases List.mem_cons.mp (held.mem_iff.mp member) with here | old
      · rw [here, caused, Option.some.injEq] at caused'
        exact caused' ▸ missing
      · exact sound.absent waiting old other caused'
    case heard =>
      intro other member
      apply hears other
      rcases List.mem_append.mp member with woven | waiting
      · simp [Replica.held, show other ∈ replica.weave.toList from woven]
      · rcases List.mem_cons.mp (held.mem_iff.mp waiting) with here | old
        · simp [here]
        · simp [Replica.held, old]
  | woven fresh causal placed before after order walk ledger cascade accounts ended =>
    refine
      { weave := accounts.weave
        pending := accounts.buffer
        limit := accounts.limit.trans sound.limit
        absent := absent_after_woven sound order walk accounts ended
        heard := ?heard }
    case heard =>
      intro other member
      exact hears other (held_after_woven order walk accounts other member)

theorem Sound.receive {replica : Replica σ} (sound : replica.Sound) (atom : Atom) :
    (replica.receive atom).2.Sound :=
  (sound.encounter atom).sound sound

omit [Observer σ] in
/-- Atoms that do not contradict each other are held once each. -/
theorem Sound.nodup_held {replica : Replica σ} (sound : replica.Sound)
    (coherent : Coherent replica.held) : (replica.held.map (·.id)).Nodup := by
  rw [held, List.map_append, List.nodup_append']
  refine ⟨sound.weave.nodup_ids, sound.pending.distinct, ?_⟩
  intro id woven waiting
  obtain ⟨first, member, rfl⟩ := List.mem_map.mp woven
  obtain ⟨second, present, id⟩ := List.mem_map.mp waiting
  have same := coherent first (List.mem_append_left _ member) second (List.mem_append_right _ present)
    (congrArg AtomId.key id.symm)
  simp [sound.not_woven_of_waiting present member] at same

namespace Encounter

variable {replica : Replica σ} {atom : Atom} {result : Except Refusal Reception × Replica σ}
  (encounter : replica.Encounter atom result)

include encounter

theorem site : result.2.site = replica.site := by
  cases encounter <;> rfl

theorem config : result.2.config = replica.config := by
  cases encounter <;> rfl

theorem held_subset : ∀ other ∈ result.2.held, other ∈ atom :: replica.held := by
  cases encounter with
  | deferred cause _ _ _ _ =>
    intro other member
    have held := (replica.pending.atoms_push_perm cause atom).mem_iff (a := other)
    simp only [held, hearing, Replica.held, List.mem_append, List.mem_cons] at member ⊢
    exact or_left_comm.mp member
  | woven _ _ _ _ _ order walk _ _ accounts _ =>
    exact held_after_woven order walk accounts
  | _ => exact fun other member => List.mem_cons_of_mem _ member

/-- What is woven is placed into the sequence atom by atom, and the observer is told of each. -/
theorem grows : ∃ landings : List (Atom × Nat),
    Grows replica.weave.toList landings result.2.weave.toList ∧
      result.2.observer = landings.foldl
        (fun observer landing => Observer.notice observer (landing.1.placedAt landing.2))
        replica.observer := by
  cases encounter with
  | woven _ _ placed before after order walk ledger cascade accounts _ =>
    have start : Grows replica.weave.toList [] (before ++ after) := by
      rw [order]
      exact .refl
    have placing : Grows replica.weave.toList [(atom, before.length)] placed.toList := by
      rw [walk]
      exact start.place
    exact ⟨(atom, before.length) :: ledger.landings, placing.trans accounts.grown, accounts.observed⟩
  | _ => exact ⟨[], .refl, rfl⟩

/-- Refusals and repeated deliveries change nothing but the clock. -/
theorem eq_hearing (idle : result.1 = .ok .duplicate ∨ ∃ why, result.1 = .error why) :
    result.2 = replica.hearing atom := by
  cases encounter with
  | deferred => simp at idle
  | woven => simp at idle
  | _ => rfl

/-- Woven atoms stay woven. -/
theorem woven_subset : ∀ other ∈ replica.weave.toList, other ∈ result.2.weave.toList := by
  cases encounter with
  | woven _ _ _ _ _ order walk _ _ accounts _ =>
    intro other member
    exact (woven_perm order walk accounts).mem_iff.mpr (by simp [member])
  | _ => exact fun other member => member

/-- No atom is lost. -/
theorem held_kept (sound : replica.Sound) (coherent : Coherent (atom :: replica.held)) :
    ∀ other ∈ replica.held, other ∈ result.2.held := by
  cases encounter with
  | deferred cause _ _ _ _ =>
    intro other member
    have held := (replica.pending.atoms_push_perm cause atom).mem_iff (a := other)
    simp only [held, hearing, Replica.held, List.mem_append, List.mem_cons] at member ⊢
    exact member.imp_right .inr
  | woven _ causal _ _ _ order walk ledger cascade accounts _ =>
    intro other member
    have refused := refused_eq_nil order walk accounts coherent
    have repeated := repeated_eq_nil sound causal order walk accounts
    have waited : other ∈ replica.pending.atoms ↔
        other ∈ ledger.landings.map (·.1) ∨ other ∈ cascade.buffer.atoms := by
      simp [accounts.accounted.mem_iff, refused, repeated]
    have woven := (woven_perm order walk accounts).mem_iff (a := other)
    simp only [List.mem_append, List.mem_cons] at woven
    simp only [Replica.held, List.mem_append, waited, woven] at member ⊢
    rcases member with old | landed | waiting
    · exact .inl (.inl (.inr old))
    · exact .inl (.inr landed)
    · exact .inr waiting
  | _ => exact fun other member => member

theorem holds_atom (accepted : result.1 = .ok reception) :
    ∃ other ∈ result.2.held, other.same atom = true := by
  cases encounter with
  | duplicate other held same => exact ⟨other, held, same⟩
  | deferred cause _ _ _ _ =>
    have held := (replica.pending.atoms_push_perm cause atom).mem_iff (a := atom)
    exact ⟨atom, by simp [hearing, Replica.held, held], atom.same_refl⟩
  | woven _ _ _ _ _ order walk _ _ accounts _ =>
    have woven := (woven_perm order walk accounts).mem_iff (a := atom)
    exact ⟨atom, List.mem_append_left _ (by simp [woven]), atom.same_refl⟩
  | _ => simp at accepted

/-- An atom whose cause is woven is woven, now or before. -/
theorem weaves (sound : replica.Sound)
    (agrees : ∀ other ∈ replica.held, other.id.key = atom.id.key → other.same atom = true)
    (apart : atom.cause ≠ some atom.id)
    (causal : ∀ cause ∈ atom.cause, replica.weave.contains cause = true) :
    (∃ other ∈ replica.weave.toList, other.same atom = true ∧
        result = (.ok .duplicate, replica.hearing atom)) ∨
      ∃ position released, result.1 = .ok (.woven position released) ∧
        atom ∈ result.2.weave.toList := by
  cases encounter with
  | selfCausation caused => exact absurd caused apart
  | identityCollision other held key different => simp [agrees other held key] at different
  | causalCycle cause caused missing _ => simp [causal cause caused] at missing
  | full cause caused missing _ _ _ _ => simp [causal cause caused] at missing
  | duplicate other held same =>
    rcases List.mem_append.mp held with woven | waiting
    · exact .inl ⟨other, woven, same, rfl⟩
    · obtain ⟨cause, caused⟩ := sound.pending.exists_cause waiting
      have missing := sound.absent other waiting cause caused
      simp [causal cause ((Atom.cause_eq_of_same same).symm.trans caused)] at missing
  | deferred cause caused _ missing _ => simp [causal cause caused] at missing
  | woven _ _ _ _ _ order walk _ _ accounts _ =>
    have woven := (woven_perm order walk accounts).mem_iff (a := atom)
    exact .inr ⟨_, _, rfl, by simp [woven]⟩

end Encounter

/-- Another delivery of a woven atom changes nothing. Even the clock has heard of it. -/
theorem Sound.receive_of_woven {replica : Replica σ} (sound : replica.Sound) {atom other : Atom}
    (woven : other ∈ replica.weave.toList) (same : other.same atom = true) :
    replica.receive atom = (.ok .duplicate, replica) := by
  have id := Atom.id_eq_of_same same
  have heard := sound.heard other (List.mem_append_left _ woven)
  have clock : replica.clock.observe atom.id.timestamp = replica.clock :=
    LamportClock.observe_eq_self (id ▸ heard)
  have attempt := sound.weave.attempt atom
  simp only [Replica.receive, Weave.insertObserved, clock]
  generalize replica.weave.insert atom = result at attempt
  cases attempt with
  | selfCausation caused =>
    rw [← Atom.cause_eq_of_same same, ← id] at caused
    exact absurd caused (sound.weave.apart woven)
  | identityCollision _ holder present key different =>
    have twin := eq_of_key sound.weave.nodup_keys present woven (key.trans (congrArg AtomId.key id.symm))
    simp [twin, same] at different
  | alreadyPresent => rfl
  | causeMissing _ fresh => exact absurd (congrArg AtomId.key id) (fresh other woven)
  | inserted _ fresh => exact absurd (congrArg AtomId.key id) (fresh other woven)

theorem receiveAll_concat (replica : Replica σ) (received : List Atom) (atom : Atom) :
    replica.receiveAll (received ++ [atom]) =
      ((replica.receiveAll received).1.add ((replica.receiveAll received).2.receive atom).1,
        ((replica.receiveAll received).2.receive atom).2) := by
  simp [receiveAll]

theorem receiveAll_cons (replica : Replica σ) (atom : Atom) (rest : List Atom) :
    (replica.receiveAll (atom :: rest)).2 = ((replica.receive atom).2.receiveAll rest).2 := by
  induction rest using List.reverseRecOn with
  | nil => rfl
  | append_singleton rest last ih =>
    rw [← List.cons_append, receiveAll_concat, receiveAll_concat, ih]

theorem Sound.receiveAll_of_woven {replica : Replica σ} (sound : replica.Sound) {atoms : List Atom}
    (woven : ∀ atom ∈ atoms, ∃ other ∈ replica.weave.toList, other.same atom = true) :
    replica.receiveAll atoms = ({ duplicates := atoms.length }, replica) := by
  induction atoms using List.reverseRecOn with
  | nil => rfl
  | append_singleton atoms atom ih =>
    obtain ⟨other, present, same⟩ := woven atom (by simp)
    rw [receiveAll_concat, ih fun atom member => woven atom (List.mem_append_left _ member),
      sound.receive_of_woven present same]
    simp [Intake.add]

end CausalWeave.Replica
