import CausalWeave.PendingBuffer.Cascade
import CausalWeave.Proofs.PendingBuffer
import CausalWeave.Proofs.Weave.Insertion

namespace CausalWeave

/-- Atoms that were placed into a sequence one after the other, each with its index at that time. -/
inductive Grows (start : List Atom) : List (Atom × Nat) → List Atom → Prop where
  | refl : Grows start [] start
  | place {landings : List (Atom × Nat)} {before after : List Atom} {atom : Atom}
      (earlier : Grows start landings (before ++ after)) :
      Grows start (landings ++ [(atom, before.length)]) (before ++ atom :: after)

theorem Grows.perm (grows : Grows start landings list) :
    list.Perm (start ++ landings.map (·.1)) := by
  induction grows with
  | refl => simp
  | place _ ih =>
    apply (List.perm_middle.trans (ih.cons _)).trans
    rw [List.map_append, ← List.append_assoc]
    exact (List.perm_append_singleton _ _).symm

theorem Grows.trans (grows : Grows first landings second) (further : Grows second others third) :
    Grows first (landings ++ others) third := by
  induction further with
  | refl => simpa using grows
  | place _ ih =>
    rw [← List.append_assoc]
    exact ih.place

/-- A test that all placed atoms fail selects from the grown list what it selects from the start. -/
theorem Grows.filter (grows : Grows start landings list) {test : Atom → Bool}
    (fails : ∀ landing ∈ landings, test landing.1 = false) : list.filter test = start.filter test := by
  induction grows with
  | refl => rfl
  | @place landings before after atom _ ih =>
    have last := fails (atom, before.length) (by simp)
    have selected := ih fun landing member => fails landing (List.mem_append_left _ member)
    simpa [last] using selected

theorem Grows.sublist (grows : Grows start landings list) : start.Sublist list := by
  induction grows with
  | refl => exact .refl _
  | place _ ih => exact ih.trans (.append_left (.cons _ (.refl _)) _)

namespace Cascade

/-- What became of the atoms that a cascade has taken up. -/
structure Ledger where
  landings : List (Atom × Nat) := []
  refused : List Atom := []
  repeated : List Atom := []

variable [Observer σ]

theorem run_of_ended {cascade : Cascade σ} (ended : cascade.woken = []) : cascade.run = cascade := by
  rw [run]
  split <;> simp_all

theorem run_of_next {cascade : Cascade σ} (next : cascade.woken = cause :: others) :
    cascade.run = (cascade.follow cause others).run := by
  rw [run]
  split <;> simp_all

/-- What following a woken id leaves true is true when none is left. -/
theorem run_induction {cascade : Cascade σ} {motive : Cascade σ → Prop} (begun : motive cascade)
    (follow : ∀ (cascade : Cascade σ) (cause : AtomId) (others : List AtomId),
      cascade.woken = cause :: others → motive cascade → motive (cascade.follow cause others)) :
    motive cascade.run ∧ cascade.run.woken = [] := by
  induction cascade using Cascade.run.induct with
  | case1 cascade ended =>
    rw [run_of_ended ended]
    exact ⟨begun, ended⟩
  | case2 cascade cause others next ih =>
    rw [run_of_next next]
    exact ih (follow cascade cause others next begun)

/-- The cascade has come from its start to where it is by what the ledger says, and has some atoms in
hand that are still to be settled. -/
structure Ledger.Accounts (ledger : Ledger) (start cascade : Cascade σ) (inHand : List Atom) :
    Prop where
  weave : cascade.weave.Sound
  buffer : cascade.buffer.Sound
  limit : cascade.buffer.limit = start.buffer.limit
  grown : Grows start.weave.toList ledger.landings cascade.weave.toList
  observed : cascade.observer = ledger.landings.foldl
    (fun observer landing => Observer.notice observer (landing.1.placedAt landing.2)) start.observer
  landed : cascade.release.woven =
    ledger.landings.map fun landing => { id := landing.1.id, position := landing.2 }
  rejected : cascade.release.rejected = ledger.refused.map fun atom => .identityCollision atom.id
  collided : ∀ atom ∈ ledger.refused, ∃ other ∈ cascade.weave.toList,
    other.id.key = atom.id.key ∧ other.same atom = false
  present : ∀ atom ∈ ledger.repeated, ∃ other ∈ cascade.weave.toList, other.same atom = true
  accounted : start.buffer.atoms.Perm (ledger.landings.map (·.1) ++
    (ledger.refused ++ (ledger.repeated ++ (inHand ++ cascade.buffer.atoms))))
  ready : ∀ atom ∈ inHand, atom.cause ≠ some atom.id ∧
    ∃ cause, atom.cause = some cause ∧ cascade.weave.contains cause = true
  woken : ∀ id ∈ cascade.woken, cascade.weave.contains id = true
  awaited : ∀ atom ∈ cascade.buffer.atoms, ∀ cause, atom.cause = some cause →
    cause ∈ start.woken ∨ cause ∈ ledger.landings.map (·.1.id) → cause ∈ cascade.woken

namespace Ledger.Accounts

variable {ledger : Ledger} {start cascade : Cascade σ} {atom : Atom} {inHand : List Atom}

private theorem settle_refused (accounts : ledger.Accounts start cascade (atom :: inHand))
    {other : Atom} (woven : other ∈ cascade.weave.toList) (key : other.id.key = atom.id.key)
    (different : other.same atom = false) :
    { ledger with refused := ledger.refused ++ [atom] }.Accounts start
      { cascade with
        release := { cascade.release with
          rejected := cascade.release.rejected ++ [Refusal.identityCollision atom.id] } } inHand where
  weave := accounts.weave
  buffer := accounts.buffer
  limit := accounts.limit
  grown := accounts.grown
  observed := accounts.observed
  landed := accounts.landed
  rejected := by simp [accounts.rejected]
  collided := by
    intro last member
    rcases List.mem_append.mp member with earlier | here
    · exact accounts.collided last earlier
    · rw [List.mem_singleton.mp here]
      exact ⟨other, woven, key, different⟩
  present := accounts.present
  accounted := by
    apply accounts.accounted.trans
    rw [List.append_assoc]
    exact .append_left _ (.append_left _ List.perm_middle)
  ready := fun last member => accounts.ready last (by simp [member])
  woken := accounts.woken
  awaited := accounts.awaited

private theorem settle_repeated (accounts : ledger.Accounts start cascade (atom :: inHand))
    {other : Atom} (woven : other ∈ cascade.weave.toList) (same : other.same atom = true) :
    { ledger with repeated := ledger.repeated ++ [atom] }.Accounts start cascade inHand where
  weave := accounts.weave
  buffer := accounts.buffer
  limit := accounts.limit
  grown := accounts.grown
  observed := accounts.observed
  landed := accounts.landed
  rejected := accounts.rejected
  collided := accounts.collided
  present := by
    intro last member
    rcases List.mem_append.mp member with earlier | here
    · exact accounts.present last earlier
    · rw [List.mem_singleton.mp here]
      exact ⟨other, woven, same⟩
  accounted := by simpa using accounts.accounted
  ready := fun last member => accounts.ready last (by simp [member])
  woken := accounts.woken
  awaited := accounts.awaited

private theorem settle_landed (accounts : ledger.Accounts start cascade (atom :: inHand))
    {later : Weave} (sound : later.Sound) {before after : List Atom}
    (order : cascade.weave.toList = before ++ after)
    (placed : later.toList = before ++ atom :: after) :
    { ledger with landings := ledger.landings ++ [(atom, before.length)] }.Accounts start
      { cascade with
        weave := later
        observer := Observer.notice cascade.observer (atom.placedAt before.length)
        release := { cascade.release with
          woven := cascade.release.woven ++ [{ id := atom.id, position := before.length : Landing }] }
        woken := cascade.woken ++ [atom.id] } inHand := by
  have remains : ∀ other ∈ cascade.weave.toList, other ∈ later.toList := by
    intro other member
    rw [order] at member
    rw [placed]
    exact List.mem_append.mpr ((List.mem_append.mp member).imp_right (List.mem_cons_of_mem _))
  have contains : ∀ id, cascade.weave.contains id = true → later.contains id = true := by
    intro id woven
    obtain ⟨other, member, same⟩ := accounts.weave.contains_iff.mp woven
    exact sound.contains_iff.mpr ⟨other, remains other member, same⟩
  refine
    { weave := sound
      buffer := accounts.buffer
      limit := accounts.limit
      grown := ?grown
      observed := by simp [accounts.observed]
      landed := by simp [accounts.landed]
      rejected := accounts.rejected
      collided := ?collided
      present := ?present
      accounted := ?accounted
      ready := ?ready
      woken := ?woken
      awaited := ?awaited }
  case grown =>
    have grown := accounts.grown
    rw [order] at grown
    rw [placed]
    exact grown.place
  case collided =>
    intro last member
    obtain ⟨other, woven, apart⟩ := accounts.collided last member
    exact ⟨other, remains other woven, apart⟩
  case present =>
    intro last member
    obtain ⟨other, woven, same⟩ := accounts.present last member
    exact ⟨other, remains other woven, same⟩
  case accounted =>
    apply accounts.accounted.trans
    simp only [List.map_append, List.map_cons, List.map_nil, List.append_assoc]
    apply List.Perm.append_left
    simp only [List.cons_append, List.nil_append]
    exact (List.Perm.append_left _ List.perm_middle).trans List.perm_middle
  case ready =>
    intro last member
    obtain ⟨apart, cause, caused, woven⟩ := accounts.ready last (by simp [member])
    exact ⟨apart, cause, caused, contains cause woven⟩
  case woken =>
    intro id member
    rcases List.mem_append.mp member with earlier | here
    · exact contains id (accounts.woken id earlier)
    · rw [List.mem_singleton.mp here]
      exact sound.contains_iff.mpr ⟨atom, by simp [placed], rfl⟩
  case awaited =>
    intro last waiting cause caused wakes
    rw [List.map_append, List.mem_append, ← or_assoc] at wakes
    rcases wakes with earlier | here
    · exact List.mem_append_left _ (accounts.awaited last waiting cause caused earlier)
    · exact List.mem_append_right _ here

/-- Settling an atom enters it into the ledger. Its cause is woven, so it does not go back to the
buffer. -/
theorem settle (accounts : ledger.Accounts start cascade (atom :: inHand)) :
    ∃ ledger : Ledger, ledger.Accounts start (cascade.settle atom) inHand := by
  obtain ⟨apart, cause, caused, woven⟩ := accounts.ready atom (by simp)
  have goes : atom.cause.filter (fun cause => !cascade.weave.contains cause) = none := by
    simp [caused, Option.filter, woven]
  simp only [Cascade.settle, goes, Weave.insertObserved]
  have attempt := accounts.weave.attempt atom
  generalize cascade.weave.insert atom = result at attempt
  cases attempt with
  | selfCausation circular => exact absurd circular apart
  | identityCollision _ other member key different =>
    exact ⟨_, accounts.settle_refused member key different⟩
  | alreadyPresent _ other member same => exact ⟨_, accounts.settle_repeated member same⟩
  | causeMissing _ _ other named missing =>
    rw [caused, Option.some.injEq] at named
    simp [← named, woven] at missing
  | inserted _ _ _ later sound before after order placed =>
    exact ⟨_, accounts.settle_landed sound order placed⟩

theorem foldl_settle (accounts : ledger.Accounts start cascade inHand) :
    ∃ ledger : Ledger, ledger.Accounts start (inHand.foldl Cascade.settle cascade) [] := by
  induction inHand generalizing ledger cascade with
  | nil => exact ⟨ledger, accounts⟩
  | cons atom inHand ih =>
    obtain ⟨ledger, settled⟩ := accounts.settle
    exact ih settled

/-- Following a woken id takes all atoms in hand that wait on it. -/
theorem follow (accounts : ledger.Accounts start cascade [])
    (next : cascade.woken = cause :: others) :
    ∃ ledger : Ledger, ledger.Accounts start (cascade.follow cause others) [] := by
  have taken := cascade.buffer.atoms_take_perm cause
  have rest : (cascade.buffer.take cause).2.Sound := accounts.buffer.take cause
  suffices begun : ledger.Accounts start
      { cascade with buffer := (cascade.buffer.take cause).2, woken := others }
      (cascade.buffer.take cause).1 from begun.foldl_settle
  refine
    { accounts with
      buffer := rest
      limit := accounts.limit
      accounted := accounts.accounted.trans ?accounted
      ready := ?ready
      woken := fun id member => accounts.woken id (by simp [next, member])
      awaited := ?awaited }
  case accounted => exact .append_left _ (.append_left _ (.append_left _ taken))
  case ready =>
    intro atom member
    obtain ⟨held, caused⟩ := accounts.buffer.mem_bucket.mp member
    exact ⟨accounts.buffer.apart atom held, cause, caused, accounts.woken cause (by simp [next])⟩
  case awaited =>
    intro atom waiting other caused wakes
    have held : atom ∈ cascade.buffer.atoms := taken.mem_iff.mpr (List.mem_append_right _ waiting)
    have member := accounts.awaited atom held other caused wakes
    rw [next] at member
    rcases List.mem_cons.mp member with same | later
    · have emptied := rest.mem_bucket.mpr ⟨waiting, caused⟩
      simp [PendingBuffer.bucket_take, same] at emptied
    · exact later

theorem run (accounts : ledger.Accounts start cascade []) :
    ∃ ledger : Ledger, ledger.Accounts start cascade.run [] ∧ cascade.run.woken = [] := by
  let accounted (cascade : Cascade σ) := ∃ ledger : Ledger, ledger.Accounts start cascade []
  have kept : accounted cascade.run ∧ cascade.run.woken = [] := by
    apply run_induction ⟨ledger, accounts⟩
    rintro cascade cause others next ⟨ledger, accounts⟩
    exact accounts.follow next
  obtain ⟨⟨ledger, accounts⟩, ended⟩ := kept
  exact ⟨ledger, accounts, ended⟩

/-- Nothing is woven that neither was woven at the start nor waited there. -/
theorem woven_subset (accounts : ledger.Accounts start cascade inHand) :
    ∀ atom ∈ cascade.weave.toList, atom ∈ start.weave.toList ++ start.buffer.atoms := by
  intro atom woven
  rcases List.mem_append.mp (accounts.grown.perm.mem_iff.mp woven) with old | landed
  · exact List.mem_append_left _ old
  · exact List.mem_append_right _ (accounts.accounted.mem_iff.mpr (List.mem_append_left _ landed))

/-- No atom is refused unless contents collide. -/
theorem refused_eq_nil (accounts : ledger.Accounts start cascade inHand)
    (coherent : Coherent (start.weave.toList ++ start.buffer.atoms)) : ledger.refused = [] := by
  apply List.eq_nil_iff_forall_not_mem.mpr
  intro atom member
  have waited : atom ∈ start.buffer.atoms := accounts.accounted.mem_iff.mpr (by simp [member])
  obtain ⟨other, present, key, different⟩ := accounts.collided atom member
  have same := coherent other (accounts.woven_subset other present) atom
    (List.mem_append_right _ waited) key
  simp [same] at different

/-- The atoms that were woven already were so at the start, for no id waits twice. -/
theorem present_at_start (accounts : ledger.Accounts start cascade inHand)
    (sound : start.buffer.Sound) :
    ∀ atom ∈ ledger.repeated, ∃ other ∈ start.weave.toList, other.same atom = true := by
  intro atom member
  obtain ⟨other, present, same⟩ := accounts.present atom member
  rcases List.mem_append.mp (accounts.grown.perm.mem_iff.mp present) with old | landed
  · exact ⟨other, old, same⟩
  · have distinct := sound.distinct
    rw [(accounts.accounted.map _).nodup_iff, List.map_append] at distinct
    exfalso
    apply List.disjoint_of_nodup_append distinct (List.mem_map_of_mem landed)
    exact List.mem_map.mpr ⟨atom, by simp [member], (Atom.id_eq_of_same same).symm⟩

end Ledger.Accounts

theorem accounts_start {start : Cascade σ} (weave : start.weave.Sound) (buffer : start.buffer.Sound)
    (woken : ∀ id ∈ start.woken, start.weave.contains id = true) (released : start.release = {}) :
    Ledger.Accounts {} start start [] where
  weave := weave
  buffer := buffer
  limit := rfl
  grown := .refl
  observed := rfl
  landed := by simp [released]
  rejected := by simp [released]
  collided := by simp
  present := by simp
  accounted := by simp
  ready := by simp
  woken := woken
  awaited := by simp

end Cascade

/-- What a woven id sets free is accounted for to the end. -/
theorem PendingBuffer.Sound.accounts_release [Observer σ] {buffer : PendingBuffer} (sound : buffer.Sound)
    {weave : Weave} (held : weave.Sound) {id : AtomId} (woven : weave.contains id = true) (observer : σ) :
    ∃ ledger : Cascade.Ledger,
      ledger.Accounts { weave, observer, buffer, woken := [id] } (buffer.release weave observer id) [] ∧
        (buffer.release weave observer id).woken = [] := by
  have begun : Cascade.Ledger.Accounts {} { weave, observer, buffer, woken := [id] }
      { weave, observer, buffer, woken := [id] } [] :=
    Cascade.accounts_start held sound (by simpa using woven) rfl
  exact begun.run

end CausalWeave
