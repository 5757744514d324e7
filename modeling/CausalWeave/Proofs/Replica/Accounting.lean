import CausalWeave.Proofs.Replica.Collision
import Mathlib.Algebra.Order.Group.Multiset
import Mathlib.Tactic.Abel

/-! Refusals are reported and lost atoms are only logged, so a report by itself balances unless two contents
share a key. -/

namespace CausalWeave

/-- The atom that was refused. -/
def Refusal.atom? : Refusal → Option AtomId
  | identityCollision id => some id
  | selfCausation id => some id
  | causalCycle id _ => some id
  | clockExhausted _ => none
  | pendingBufferFull _ id _ => some id

namespace Replica

section Log

variable [Observer σ]

/-- What the reception of an atom writes to the log: why atoms that it sets free are refused. -/
def logged (replica : Replica σ) (atom : Atom) : List Refusal :=
  match replica.weave.insertObserved replica.observer atom with
  | .ok (.inserted _, weave, observer) =>
    (replica.pending.release weave observer atom.id).release.rejected
  | _ => []

def loggedAll (replica : Replica σ) : List Atom → List Refusal
  | [] => []
  | atom :: rest => replica.logged atom ++ (replica.receive atom).2.loggedAll rest

theorem loggedAll_concat (replica : Replica σ) (atoms : List Atom) (atom : Atom) :
    replica.loggedAll (atoms ++ [atom]) =
      replica.loggedAll atoms ++ (replica.receiveAll atoms).2.logged atom := by
  induction atoms generalizing replica with
  | nil => simp [loggedAll, receiveAll]
  | cons first rest ih => rw [List.cons_append, loggedAll, ih, receiveAll_cons, loggedAll, List.append_assoc]

end Log

/-- Atoms that a replica held or was offered and does not hold in the end. -/
structure Departures where
  repeated : List Atom := []
  refused : List Atom := []
  lost : List Atom := []

namespace Departures

def atoms (departures : Departures) : List Atom :=
  departures.repeated ++ (departures.refused ++ departures.lost)

/-- The books over the reception of some atoms. -/
structure Balance (departures : Departures) (start : Replica σ) (offered : List Atom) (intake : Intake)
    (log : List Refusal) (replica : Replica σ) : Prop where
  held : (start.held ++ offered).Perm (replica.held ++ departures.atoms)
  woven : replica.weave.toList.length = start.weave.toList.length + intake.woven
  duplicates : departures.repeated.length = intake.duplicates
  copies : ∀ atom ∈ departures.repeated, ∃ other ∈ replica.held ++ departures.lost, other.same atom = true
  rejected : intake.rejected.map Refusal.atom? = departures.refused.map fun atom => some atom.id
  logged : log = departures.lost.map fun atom => .identityCollision atom.id
  collided : ∀ atom ∈ departures.lost, ∃ other ∈ replica.weave.toList,
    other.id.key = atom.id.key ∧ other.same atom = false

namespace Balance

variable {departures : Departures} {start replica : Replica σ} {offered : List Atom} {intake : Intake}
  {log : List Refusal} (balance : departures.Balance start offered intake log replica) {atom : Atom}

include balance

/-- The number of woven and waiting atoms, and of those that are gone by the report and by the log. -/
theorem count (sound : start.Sound) (later : replica.Sound) :
    replica.weave.size + replica.pending.size + intake.duplicates + intake.rejected.length + log.length =
      start.weave.size + start.pending.size + offered.length := by
  have total := balance.held.length_eq
  have refused := congrArg List.length balance.rejected
  simp only [List.length_map] at refused
  simp only [Replica.held, atoms, List.length_append] at total
  rw [later.weave.size_eq, later.pending.size_eq, sound.weave.size_eq, sound.pending.size_eq,
    balance.logged, List.length_map, refused, ← balance.duplicates]
  omega

theorem lost_eq_nil (coherent : Coherent (start.held ++ offered)) : departures.lost = [] := by
  apply List.eq_nil_iff_forall_not_mem.mpr
  intro atom lost
  obtain ⟨other, woven, key, different⟩ := balance.collided atom lost
  have known : other ∈ start.held ++ offered := balance.held.mem_iff.mpr (by simp [Replica.held, woven])
  have known' : atom ∈ start.held ++ offered := balance.held.mem_iff.mpr (by simp [atoms, lost])
  simp [coherent other known atom known' key] at different

private theorem add_refused {why : Refusal} (names : why.atom? = some atom.id) :
    { departures with refused := departures.refused ++ [atom] }.Balance start (offered ++ [atom])
      (intake.add (.error why)) log (replica.hearing atom) where
  held := by
    rw [← List.append_assoc]
    apply (balance.held.append_right [atom]).trans
    simp only [atoms, List.append_assoc, List.singleton_append]
    exact .append_left _ (.append_left _ (.append_left _ (List.perm_append_singleton _ _)))
  woven := balance.woven
  duplicates := balance.duplicates
  copies := balance.copies
  rejected := by simp [Intake.add, balance.rejected, names]
  logged := balance.logged
  collided := balance.collided

private theorem add_repeated {other : Atom} (held : other ∈ replica.held) (same : other.same atom = true) :
    { departures with repeated := departures.repeated ++ [atom] }.Balance start (offered ++ [atom])
      (intake.add (.ok .duplicate)) log (replica.hearing atom) where
  held := by
    rw [← List.append_assoc]
    apply (balance.held.append_right [atom]).trans
    simp only [atoms, List.append_assoc, List.singleton_append]
    apply List.Perm.append_left
    apply List.Perm.append_left
    rw [← List.append_assoc]
    exact List.perm_append_singleton _ _
  woven := balance.woven
  duplicates := by simp [Intake.add, balance.duplicates]
  copies := by
    intro last member
    rcases List.mem_append.mp member with earlier | here
    · exact balance.copies last earlier
    · rw [List.mem_singleton.mp here]
      exact ⟨other, List.mem_append_left _ held, same⟩
  rejected := balance.rejected
  logged := balance.logged
  collided := balance.collided

private theorem add_deferred (cause : AtomId) :
    departures.Balance start (offered ++ [atom]) (intake.add (.ok .deferred)) log
      { replica.hearing atom with pending := replica.pending.push cause atom } where
  held := by
    rw [← List.append_assoc]
    apply (balance.held.append_right [atom]).trans
    apply (List.perm_append_singleton _ _).trans
    simp only [Replica.held, List.append_assoc]
    apply List.perm_middle.symm.trans
    apply List.Perm.append_left
    exact (replica.pending.atoms_push_perm cause atom).symm.append_right _
  woven := balance.woven
  duplicates := balance.duplicates
  copies := by
    intro last member
    obtain ⟨other, known, same⟩ := balance.copies last member
    have pushed := (replica.pending.atoms_push_perm cause atom).mem_iff (a := other)
    refine ⟨other, ?_, same⟩
    simp only [Replica.held, hearing, pushed, List.mem_append, List.mem_cons] at known ⊢
    exact known.imp_left (Or.imp_right .inr)
  rejected := balance.rejected
  logged := balance.logged
  collided := balance.collided

/-- An atom is woven and sets waiting ones free. -/
private theorem add_woven {ledger : Cascade.Ledger} {cascade : Cascade σ} {position : Nat}
    {released : List Landing}
    (woven : cascade.weave.toList.Perm
      (atom :: replica.weave.toList ++ ledger.landings.map (·.1)))
    (waited : replica.pending.atoms.Perm
      (ledger.landings.map (·.1) ++ (ledger.refused ++ cascade.buffer.atoms)))
    (landed : released.length = ledger.landings.length)
    (collided : ∀ atom ∈ ledger.refused, ∃ other ∈ cascade.weave.toList,
      other.id.key = atom.id.key ∧ other.same atom = false) :
    { departures with lost := departures.lost ++ ledger.refused }.Balance start (offered ++ [atom])
      (intake.add (.ok (.woven position released)))
      (log ++ ledger.refused.map fun waiting : Atom => Refusal.identityCollision waiting.id)
      { replica.hearing atom with
        weave := cascade.weave, pending := cascade.buffer, observer := cascade.observer } where
  held := by
    have held := balance.held
    simp only [Replica.held, atoms, ← Multiset.coe_eq_coe, ← Multiset.coe_add, ← Multiset.cons_coe,
      List.cons_append, ← Multiset.singleton_add, Multiset.coe_nil, add_zero] at held woven waited ⊢
    rw [← add_assoc, held, woven, waited]
    abel
  woven := by
    have length := woven.length_eq
    simp only [List.length_append, List.length_cons, List.length_map] at length
    simp only [Intake.add, length, balance.woven, landed]
    omega
  duplicates := balance.duplicates
  copies := by
    intro last member
    obtain ⟨other, known, same⟩ := balance.copies last member
    refine ⟨other, ?_, same⟩
    simp only [Replica.held, List.mem_append, woven.mem_iff, waited.mem_iff, List.mem_cons] at known ⊢
    rcases known with (old | landed | refused | waiting) | lost
    · exact .inl (.inl (.inl (.inr old)))
    · exact .inl (.inl (.inr landed))
    · exact .inr (.inr refused)
    · exact .inl (.inr waiting)
    · exact .inr (.inl lost)
  rejected := balance.rejected
  logged := by simp [balance.logged]
  collided := by
    intro other member
    rcases List.mem_append.mp member with earlier | here
    · obtain ⟨third, present, apart⟩ := balance.collided other earlier
      exact ⟨third, woven.mem_iff.mpr (by simp [present]), apart⟩
    · exact collided other here

theorem receive [Observer σ] (sound : replica.Sound) (atom : Atom) :
    ∃ departures : Departures, departures.Balance start (offered ++ [atom])
      (intake.add (replica.receive atom).1) (log ++ replica.logged atom) (replica.receive atom).2 := by
  have attempt := sound.weave.attempt atom
  simp only [Replica.receive, Replica.logged, Weave.insertObserved]
  generalize replica.weave.insert atom = result at attempt
  cases attempt with
  | selfCausation => simpa using ⟨_, balance.add_refused rfl⟩
  | identityCollision => simpa using ⟨_, balance.add_refused rfl⟩
  | alreadyPresent _ other woven same =>
    simpa using ⟨_, balance.add_repeated (List.mem_append_left _ woven) same⟩
  | causeMissing apart _ cause caused =>
    have answer := sound.pending.answer atom
    generalize replica.pending.hold atom = answered at answer
    cases answer with
    | root uncaused => simp [caused] at uncaused
    | selfCausation circular => exact absurd circular apart
    | alreadyHeld other waiting same =>
      simpa using ⟨_, balance.add_repeated (List.mem_append_right _ waiting) same⟩
    | identityCollision => simpa using ⟨_, balance.add_refused rfl⟩
    | causalCycle => simpa using ⟨_, balance.add_refused rfl⟩
    | full => simpa using ⟨_, balance.add_refused rfl⟩
    | held named => simpa using ⟨_, balance.add_deferred named⟩
  | inserted _ _ causal placed later before after order walk =>
    have woken : placed.contains atom.id = true :=
      later.contains_iff.mpr ⟨atom, by simp [walk], rfl⟩
    obtain ⟨ledger, accounts, _⟩ := sound.pending.accounts_release later woken
      (Observer.notice replica.observer (atom.placedAt before.length))
    have waited := accounts.accounted
    rw [repeated_eq_nil sound causal order walk accounts] at waited
    have landed := congrArg List.length accounts.landed
    simp only [List.length_map] at landed
    simp only [accounts.rejected]
    exact ⟨_, balance.add_woven (woven_perm order walk accounts) (by simpa using waited) landed
      accounts.collided⟩

end Balance
end Departures

variable [Observer σ] {replica : Replica σ}

theorem Sound.balance_receiveAll (sound : replica.Sound) (atoms : List Atom) :
    ∃ departures : Departures, departures.Balance replica atoms (replica.receiveAll atoms).1
      (replica.loggedAll atoms) (replica.receiveAll atoms).2 := by
  induction atoms using List.reverseRecOn with
  | nil =>
    have nothing : Departures.Balance {} replica [] {} [] replica := by
      constructor <;> simp [Departures.atoms]
    exact ⟨{}, nothing⟩
  | append_singleton atoms atom ih =>
    obtain ⟨departures, balance⟩ := ih
    rw [receiveAll_concat, loggedAll_concat]
    exact balance.receive (stable_sound.receiveAll sound atoms) atom

/-- An atom that waits is lost if a root of its key arrives before its cause does, and the report says nothing
of it. -/
theorem loses_forestalled (site : Site) (config : Replica.Config) (observer : σ)
    {impostor genuine cause : Atom} (caused : impostor.cause = some cause.id)
    (uncaused : genuine.cause = none) (uncaused' : cause.cause = none)
    (key : impostor.id.key = genuine.id.key) (key' : genuine.id.key ≠ cause.id.key) :
    impostor ∉ ((fresh site config observer).receiveAll [impostor, genuine, cause]).2.held ∧
      ((fresh site config observer).receiveAll [impostor, genuine, cause]).1.duplicates = 0 ∧
      ((fresh site config observer).receiveAll [impostor, genuine, cause]).1.rejected = [] := by
  have apart : cause.id ≠ impostor.id := by
    intro same
    exact key' (key.symm.trans (congrArg AtomId.key same.symm))
  have known := mem_of_held_after site config observer [impostor, genuine]
  obtain ⟨deferred, bare, _⟩ := after_orphan site config observer caused apart
  simp only [after, List.map_cons, List.map_nil, List.foldl_cons, List.foldl_nil, perform] at known bare
  simp only [receiveAll, List.foldl_cons, List.foldl_nil, deferred]
  have waits := (sound_fresh site config observer).receive impostor
  generalize ((fresh site config observer).receive impostor).2 = waiting at known bare waits
  obtain ⟨_, _, joins, woven⟩ := waits.weaves_root uncaused (by simp [bare])
  have joined := waits.receive genuine
  rw [joins]
  generalize (waiting.receive genuine).2 = replica at known joined woven
  obtain ⟨_, _, arrives, woven'⟩ := joined.weaves_root uncaused' (by
    intro other member same
    rcases List.mem_pair.mp (known other (List.mem_append_left _ member)) with rfl | rfl
    · exact key' (key.symm.trans same)
    · exact key' same)
  have sound := joined.receive cause
  have kept := (joined.encounter cause).woven_subset genuine woven
  rw [arrives]
  refine ⟨?_, rfl, rfl⟩
  intro held
  rcases List.mem_append.mp held with present | waits
  · have equal := eq_of_key sound.weave.nodup_keys present kept key
    simp [equal, uncaused] at caused
  · have missing := sound.absent impostor waits cause.id caused
    have arrived := sound.weave.contains_iff.mpr ⟨cause, woven', rfl⟩
    simp [missing] at arrived

theorem Sound.falls_short (sound : replica.Sound) {atoms : List Atom} {atom : Atom} (offered : atom ∈ atoms)
    (gone : atom ∉ (replica.receiveAll atoms).2.held)
    (duplicates : (replica.receiveAll atoms).1.duplicates = 0)
    (rejected : (replica.receiveAll atoms).1.rejected = []) :
    (replica.receiveAll atoms).2.weave.size + (replica.receiveAll atoms).2.pending.size <
      replica.weave.size + replica.pending.size + atoms.length := by
  obtain ⟨departures, balance⟩ := sound.balance_receiveAll atoms
  have total := balance.count sound (stable_sound.receiveAll sound atoms)
  have repeated : departures.repeated = [] :=
    List.eq_nil_of_length_eq_zero (balance.duplicates.trans duplicates)
  have refused : departures.refused = [] := by
    have refusals := balance.rejected
    rw [rejected, List.map_nil] at refusals
    exact List.map_eq_nil_iff.mp refusals.symm
  have lost : atom ∈ departures.lost := by
    rcases List.mem_append.mp (balance.held.mem_iff.mp (List.mem_append_right _ offered)) with held | left
    · exact absurd held gone
    · simpa [Departures.atoms, repeated, refused] using left
  have logged : 0 < (replica.loggedAll atoms).length := by
    rw [balance.logged, List.length_map]
    exact List.length_pos_of_mem lost
  omega

/-- The report on a list of atoms and the log account for every atom. The weave grows by the number of woven
atoms, and those that are held, repeated, refused or lost make up for those that were held or offered. None is
lost if no two contents share a key, and then the report balances by itself. -/
theorem Reachable.balances (reachable : replica.Reachable) (atoms : List Atom) :
    let intake := (replica.receiveAll atoms).1
    let later := (replica.receiveAll atoms).2
    let log := replica.loggedAll atoms
    later.weave.size = replica.weave.size + intake.woven ∧
      later.weave.size + later.pending.size + intake.duplicates + intake.rejected.length + log.length =
        replica.weave.size + replica.pending.size + atoms.length ∧
      (∃ departures : Departures, departures.Balance replica atoms intake log later) ∧
      (Coherent (replica.held ++ atoms) → log = []) := by
  intro intake later log
  have sound := reachable.sound
  have sound' : later.Sound := stable_sound.receiveAll sound atoms
  obtain ⟨departures, balance⟩ := sound.balance_receiveAll atoms
  refine ⟨?_, balance.count sound sound', ⟨departures, balance⟩, ?_⟩
  · rw [sound'.weave.size_eq, sound.weave.size_eq]
    exact balance.woven
  · intro coherent
    have logged := balance.logged
    rwa [balance.lost_eq_nil coherent, List.map_nil] at logged

/-- A replica on which one atom waits is offered a copy of it and its cause. -/
theorem balances_while_waiting :
    let cause : Atom := { id := { site := ⟨"m"⟩, timestamp := 1 } }
    let orphan : Atom := { id := { site := ⟨"a"⟩, timestamp := 2 }, cause := some cause.id }
    let replica := after ⟨"x"⟩ {} () [.receive orphan]
    let intake := (replica.receiveAll [orphan, cause]).1
    let later := (replica.receiveAll [orphan, cause]).2
    replica.Reachable ∧ Coherent (replica.held ++ [orphan, cause]) ∧ later.weave.size = intake.woven ∧
      later.weave.size + later.pending.size + intake.duplicates + intake.rejected.length = 3 := by
  intro cause orphan replica intake later
  have reachable : replica.Reachable := ⟨_, _, _, _, rfl⟩
  have caused : orphan.cause = some cause.id := rfl
  obtain ⟨_, bare, waiting⟩ : _ ∧ replica.weave = {} ∧ replica.pending.atoms = [orphan] :=
    after_orphan ⟨"x"⟩ {} () caused (by decide)
  have coherent : Coherent (replica.held ++ [orphan, cause]) := by
    rw [held, bare, waiting]
    unfold Coherent
    decide
  have none_woven : replica.weave.size = 0 := by simp [bare, Weave.size]
  have one_waits : replica.pending.size = 1 := by simp [reachable.sound.pending.size_eq, waiting]
  obtain ⟨grown, total, _, quiet⟩ := Reachable.balances reachable [orphan, cause]
  rw [quiet coherent, none_woven, one_waits] at total
  rw [none_woven] at grown
  exact ⟨reachable, coherent, by simpa using grown, by simpa using total⟩

/-- An atom waits for its cause. A root is woven under its key and then the cause, and the atom is gone. It was
neither a duplicate nor rejected by the report, whose counts fall short of the three atoms. -/
theorem balance_missed :
    let cause : Atom := { id := { site := ⟨"c"⟩, timestamp := 1 } }
    let impostor : Atom := { id := { site := ⟨"b"⟩, timestamp := 1 }, cause := some cause.id }
    let genuine : Atom := { id := { site := ⟨"b"⟩, timestamp := 1 } }
    let replica := fresh ⟨"x"⟩ {} ()
    let (intake, later) := replica.receiveAll [impostor, genuine, cause]
    replica.Reachable ∧ impostor ∉ later.held ∧ intake.duplicates = 0 ∧ intake.rejected = [] ∧
      later.weave.size + later.pending.size + intake.duplicates + intake.rejected.length ≠
        replica.weave.size + replica.pending.size + [impostor, genuine, cause].length := by
  intro cause impostor genuine
  have reachable : (fresh ⟨"x"⟩ {} ()).Reachable := ⟨⟨"x"⟩, {}, (), [], rfl⟩
  have caused : impostor.cause = some cause.id := rfl
  have uncaused : genuine.cause = none := rfl
  have uncaused' : cause.cause = none := rfl
  have apart : genuine.id.key ≠ cause.id.key := by decide
  obtain ⟨gone, duplicates, rejected⟩ :=
    loses_forestalled ⟨"x"⟩ {} () caused uncaused uncaused' rfl apart
  have short := reachable.sound.falls_short (List.mem_cons_self ..) gone duplicates rejected
  simp only [duplicates, rejected, List.length_nil, Nat.add_zero]
  exact ⟨reachable, gone, trivial, trivial, Nat.ne_of_lt short⟩

end Replica
end CausalWeave
