import CausalWeave.Proofs.Replica.Reachable

/-! The weave compares an atom with the one that has its site and its timestamp, the buffer with the one that
has its whole id. -/

namespace CausalWeave.Replica

/-- What becomes of an atom that is left to the buffer, by what the buffer answers. -/
def leftToBuffer (replica : Replica σ) (atom : Atom) :
    Except Refusal (Bool × PendingBuffer) → Except Refusal Reception × Replica σ
  | .error why => (.error why, replica.hearing atom)
  | .ok (true, pending) => (.ok .deferred, { replica.hearing atom with pending })
  | .ok (false, _) => (.ok .duplicate, replica.hearing atom)

/-- Who decides about an atom that is not its own cause: the weave if it holds the key of the atom, or else
the buffer unless the atom can be woven. -/
inductive Ruling (replica : Replica σ) (atom : Atom) : Except Refusal Reception × Replica σ → Prop where
  | taken (other : Atom) (woven : other ∈ replica.weave.toList) (key : other.id.key = atom.id.key) :
      Ruling replica atom
        (if other.same atom then .ok .duplicate else .error (.identityCollision atom.id),
          replica.hearing atom)
  | missing (fresh : ∀ other ∈ replica.weave.toList, other.id.key ≠ atom.id.key) (cause : AtomId)
      (caused : atom.cause = some cause) (apart : cause ≠ atom.id)
      (missing : replica.weave.contains cause = false) :
      Ruling replica atom (replica.leftToBuffer atom (replica.pending.hold atom))
  | ready (fresh : ∀ other ∈ replica.weave.toList, other.id.key ≠ atom.id.key)
      (causal : ∀ cause ∈ atom.cause, replica.weave.contains cause = true) (position : Nat)
      (released : List Landing) (later : Replica σ) :
      Ruling replica atom (.ok (.woven position released), later)

/-- What stands in the way of an atom: a woven atom of another content under its key or, if the atom is new
to the weave and must wait, a waiting one of another content under its id. -/
inductive Clashes (replica : Replica σ) (atom : Atom) : Prop where
  | woven (other : Atom) (present : other ∈ replica.weave.toList) (key : other.id.key = atom.id.key)
      (different : other.same atom = false)
  | waiting (fresh : ∀ other ∈ replica.weave.toList, other.id.key ≠ atom.id.key) (cause : AtomId)
      (caused : atom.cause = some cause) (missing : replica.weave.contains cause = false)
      (other : Atom) (held : other ∈ replica.pending.atoms) (id : other.id = atom.id)
      (different : other.same atom = false)

variable [Observer σ] {replica : Replica σ} {atom : Atom}

theorem Sound.ruling (sound : replica.Sound) (apart : atom.cause ≠ some atom.id) :
    replica.Ruling atom (replica.receive atom) := by
  have attempt := sound.weave.attempt atom
  simp only [Replica.receive, Weave.insertObserved]
  generalize replica.weave.insert atom = result at attempt
  cases attempt with
  | selfCausation circular => exact absurd circular apart
  | identityCollision _ other woven key different =>
    simpa [different, hearing] using Ruling.taken other woven key
  | alreadyPresent _ other woven same =>
    have key := congrArg AtomId.key (Atom.id_eq_of_same same)
    simpa [same, hearing] using Ruling.taken other woven key
  | causeMissing _ fresh cause caused missing =>
    have distinct : cause ≠ atom.id := by
      rintro rfl
      exact apart caused
    have left := Ruling.missing fresh cause caused distinct missing
    generalize replica.pending.hold atom = answered at left
    rcases answered with why | ⟨held, pending⟩
    · exact left
    · cases held <;> exact left
  | inserted _ fresh causal => exact .ready fresh causal _ _ _

omit [Observer σ] in
theorem leftToBuffer_eq_collision_iff {answer : Except Refusal (Bool × PendingBuffer)} :
    (replica.leftToBuffer atom answer).1 = .error (.identityCollision atom.id) ↔
      answer = .error (.identityCollision atom.id) := by
  rcases answer with why | ⟨held, pending⟩
  · simp [leftToBuffer]
  · cases held <;> simp [leftToBuffer]

theorem Sound.collision_iff (sound : replica.Sound) (apart : atom.cause ≠ some atom.id) :
    (replica.receive atom).1 = .error (.identityCollision atom.id) ↔ replica.Clashes atom := by
  have ruling := sound.ruling apart
  generalize replica.receive atom = result at ruling
  cases ruling with
  | taken other woven key =>
    cases same : other.same atom with
    | false => simpa using Clashes.woven other woven key same
    | true =>
      simp only [if_true, reduceCtorEq, false_iff]
      intro clashes
      cases clashes with
      | woven third present key' different =>
        have equal := eq_of_key sound.weave.nodup_keys present woven (key'.trans key.symm)
        simp [equal, same] at different
      | waiting fresh => exact fresh other woven key
  | missing fresh cause caused distinct missing =>
    rw [leftToBuffer_eq_collision_iff, sound.pending.hold_eq_collision_iff caused distinct]
    constructor
    · rintro ⟨other, held, id, different⟩
      exact .waiting fresh cause caused missing other held id different
    · intro clashes
      cases clashes with
      | woven other woven key => exact absurd key (fresh other woven)
      | waiting _ _ _ _ other held id different => exact ⟨other, held, id, different⟩
  | ready fresh causal =>
    simp only [reduceCtorEq, false_iff]
    intro clashes
    cases clashes with
    | woven other woven key => exact fresh other woven key
    | waiting _ cause caused missing => simp [causal cause caused] at missing

/-- An atom waits if its cause is not woven, no atom has its identity, none waits for it and there is room. -/
theorem Sound.receive_of_unheld (sound : replica.Sound) (caused : atom.cause = some cause)
    (apart : cause ≠ atom.id) (missing : replica.weave.contains cause = false)
    (unwoven : ∀ other ∈ replica.weave.toList, other.id.key ≠ atom.id.key)
    (unheld : ∀ other ∈ replica.pending.atoms, other.id ≠ atom.id ∧ other.cause ≠ some atom.id)
    (room : ∀ limit ∈ replica.pending.limit, replica.pending.atoms.length < limit) :
    replica.receive atom =
      (.ok .deferred, { replica.hearing atom with pending := replica.pending.push cause atom }) := by
  have distinct : atom.cause ≠ some atom.id := by
    rw [caused]
    simpa using apart
  have ruling := sound.ruling distinct
  generalize replica.receive atom = result at ruling
  cases ruling with
  | taken other woven key => exact absurd key (unwoven other woven)
  | ready _ causal => simp [causal cause caused] at missing
  | missing =>
    rw [sound.pending.hold_of_unheld caused apart unheld room]
    rfl

theorem after_orphan (site : Site) (config : Replica.Config) (observer : σ)
    (caused : atom.cause = some cause) (apart : cause ≠ atom.id) :
    ((fresh site config observer).receive atom).1 = .ok .deferred ∧
      (after site config observer [.receive atom]).weave = {} ∧
        (after site config observer [.receive atom]).pending.atoms = [atom] := by
  have nothing : (fresh site config observer).pending.atoms = [] := by
    simp [fresh, PendingBuffer.atoms]
  have room : ∀ limit ∈ (fresh site config observer).pending.limit, 0 < limit := by
    simp [fresh, Replica.Config.bound]
    omega
  have received := (sound_fresh site config observer).receive_of_unheld caused apart
    (by simp [fresh]) (by simp [fresh]) (by simp [nothing]) (by simpa [nothing] using room)
  have later : after site config observer [.receive atom] =
      ((fresh site config observer).receive atom).2 := rfl
  rw [later, received]
  have held := (fresh site config observer).pending.atoms_push_perm cause atom
  rw [nothing] at held
  exact ⟨rfl, rfl, List.perm_singleton.mp held⟩

/-- A root is woven unless its key is, even if an atom of another content waits under its id. -/
theorem Sound.weaves_root (sound : replica.Sound) (uncaused : atom.cause = none)
    (fresh : ∀ other ∈ replica.weave.toList, other.id.key ≠ atom.id.key) :
    ∃ position released, (replica.receive atom).1 = .ok (.woven position released) ∧
      atom ∈ (replica.receive atom).2.weave.toList := by
  have apart : atom.cause ≠ some atom.id := by simp [uncaused]
  have ruling := sound.ruling apart
  have encounter := sound.encounter atom
  generalize replica.receive atom = result at ruling encounter
  cases ruling with
  | taken other woven key => exact absurd key (fresh other woven)
  | missing _ _ caused => simp [uncaused] at caused
  | ready =>
    cases encounter with
    | woven _ _ _ _ _ order walk _ _ accounts =>
      exact ⟨_, _, rfl, (woven_perm order walk accounts).mem_iff.mpr (by simp)⟩

/-- Woven atoms differ in their keys and waiting ones in their ids. An atom is refused for its identity exactly
if another content stands in its way, and this changes nothing but the clock. -/
theorem Reachable.collides_iff (reachable : replica.Reachable) :
    (replica.weave.toList.map (·.id.key)).Nodup ∧ (replica.pending.atoms.map (·.id)).Nodup ∧
      ∀ atom : Atom, atom.cause ≠ some atom.id →
        ((replica.receive atom).1 = .error (.identityCollision atom.id) ↔ replica.Clashes atom) ∧
          (replica.Clashes atom → (replica.receive atom).2 = replica.hearing atom) := by
  have sound := reachable.sound
  refine ⟨sound.weave.nodup_keys, sound.pending.distinct, ?_⟩
  intro atom apart
  have collision := sound.collision_iff apart
  refine ⟨collision, ?_⟩
  intro clashes
  exact (sound.encounter atom).eq_hearing (.inr ⟨_, collision.mpr clashes⟩)

/-- A woven root and a waiting atom are each safe from one other atom that takes their identity. -/
theorem collides_with_first :
    let root : Atom := { id := { site := ⟨"a"⟩, timestamp := 1 } }
    let forged : Atom := { id := { site := ⟨"a"⟩, timestamp := 1, priority := 1 } }
    let orphan : Atom :=
      { id := { site := ⟨"a"⟩, timestamp := 2 }, cause := some { site := ⟨"m"⟩, timestamp := 1 } }
    let twisted : Atom :=
      { id := { site := ⟨"a"⟩, timestamp := 2 }, cause := some { site := ⟨"n"⟩, timestamp := 1 } }
    let rooted := after ⟨"x"⟩ {} () [.receive root]
    let waiting := after ⟨"x"⟩ {} () [.receive orphan]
    (rooted.Reachable ∧ rooted.Clashes forged ∧
      rooted.receive forged = (.error (.identityCollision forged.id), rooted.hearing forged)) ∧
      (waiting.Reachable ∧ waiting.Clashes twisted ∧
        waiting.receive twisted = (.error (.identityCollision twisted.id), waiting.hearing twisted)) := by
  intro root forged orphan twisted rooted waiting
  have reachable : rooted.Reachable := ⟨_, _, _, _, rfl⟩
  have reachable' : waiting.Reachable := ⟨_, _, _, _, rfl⟩
  have uncaused : root.cause = none := rfl
  obtain ⟨_, _, _, woven⟩ := (sound_fresh ⟨"x"⟩ {} ()).weaves_root uncaused (by simp [fresh])
  have caused : orphan.cause = some { site := ⟨"m"⟩, timestamp := 1 } := rfl
  obtain ⟨_, bare, held⟩ : _ ∧ waiting.weave = {} ∧ waiting.pending.atoms = [orphan] :=
    after_orphan ⟨"x"⟩ {} () caused (by decide)
  have clashes : rooted.Clashes forged := .woven root woven (by decide) (by decide)
  have clashes' : waiting.Clashes twisted :=
    .waiting (by simp [bare]) { site := ⟨"n"⟩, timestamp := 1 } rfl (by simp [bare]) orphan
      (by simp [held]) rfl (by decide)
  obtain ⟨_, _, rules⟩ := Reachable.collides_iff reachable
  obtain ⟨_, _, rules'⟩ := Reachable.collides_iff reachable'
  obtain ⟨refused, still⟩ := rules forged (by decide)
  obtain ⟨refused', still'⟩ := rules' twisted (by decide)
  exact ⟨⟨reachable, clashes, Prod.ext (refused.mpr clashes) (still clashes)⟩,
    reachable', clashes', Prod.ext (refused'.mpr clashes') (still' clashes')⟩

/-- Two waiting atoms have one key and differ in their priorities, and a root that has the whole id of a
waiting atom is woven. -/
theorem collision_missed :
    let missing : AtomId := { site := ⟨"m"⟩, timestamp := 1 }
    let first : Atom := { id := { site := ⟨"a"⟩, timestamp := 2 }, cause := some missing }
    let second : Atom :=
      { id := { site := ⟨"a"⟩, timestamp := 2, priority := 1 }, cause := some missing }
    let third : Atom := { id := { site := ⟨"a"⟩, timestamp := 2 } }
    let replica := after ⟨"x"⟩ {} () [.receive first]
    replica.Reachable ∧ first ∈ replica.held ∧
      (first.id.key = second.id.key ∧ first.same second = false ∧ second.cause ≠ some second.id ∧
        (replica.receive second).1 = .ok .deferred ∧ first ∈ (replica.receive second).2.held ∧
          second ∈ (replica.receive second).2.held) ∧
      (first.id.key = third.id.key ∧ first.same third = false ∧ third.cause ≠ some third.id ∧
        ∃ position released, (replica.receive third).1 = .ok (.woven position released)) := by
  intro missing first second third replica
  have reachable : replica.Reachable := ⟨_, _, _, _, rfl⟩
  have sound := reachable.sound
  have config : replica.config = {} := config_after _ _ _ _
  have caused : first.cause = some missing := rfl
  have caused' : second.cause = some missing := rfl
  have uncaused : third.cause = none := rfl
  obtain ⟨_, bare, waiting⟩ : _ ∧ replica.weave = {} ∧ replica.pending.atoms = [first] :=
    after_orphan ⟨"x"⟩ {} () caused (by decide)
  have received := sound.receive_of_unheld caused' (by decide) (by simp [bare]) (by simp [bare])
    (by simp [waiting]; decide)
    (by simp [sound.limit, config, waiting, Replica.Config.bound])
  have held := replica.pending.atoms_push_perm missing second
  rw [waiting] at held
  refine ⟨reachable, by simp [Replica.held, waiting], ⟨rfl, by decide, by decide, ?_⟩,
    rfl, by decide, by decide, ?_⟩
  · rw [received]
    refine ⟨rfl, ?_, ?_⟩ <;> simp [Replica.held, held.mem_iff]
  · obtain ⟨position, released, outcome, _⟩ := sound.weaves_root uncaused (by simp [bare])
    exact ⟨position, released, outcome⟩

end CausalWeave.Replica
