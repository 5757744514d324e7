import CausalWeave.Proofs.Replica.Reachable

namespace CausalWeave.Replica

variable [Observer σ] {replica : Replica σ}

/-- The atom that a replica creates at its next tick; none when no timestamp is left. -/
def next? (replica : Replica σ) (cause : Option AtomId) (payload : Payload) (priority : Int32) :
    Option Atom :=
  replica.clock.tick.map fun (timestamp, _) => replica.authored timestamp cause payload priority

namespace Operation

def offered (replica : Replica σ) : Operation → List Atom
  | create cause payload priority =>
    (replica.next? cause payload (priority.getD replica.config.defaultPriority)).toList
  | receive atom => [atom]
  | receiveAll atoms => atoms
  | merge other => other.weave.toList

def created? (replica : Replica σ) : Operation → Option Atom
  | create cause payload priority =>
    (replica.create cause payload (priority.getD replica.config.defaultPriority)).1.toOption
  | _ => none

end Operation

def offered (replica : Replica σ) : List Operation → List Atom
  | [] => []
  | operation :: rest => operation.offered replica ++ (replica.perform operation).offered rest

def created (replica : Replica σ) : List Operation → List Atom
  | [] => []
  | operation :: rest => (operation.created? replica).toList ++ (replica.perform operation).created rest

omit [Observer σ] in
/-- The clock has come from one state of a replica to another and has heard of some atoms. -/
structure Hears (replica : Replica σ) (atoms : List Atom) (later : Replica σ) : Prop where
  onward : replica.clock.latest ≤ later.clock.latest
  heard : ∀ atom ∈ atoms, atom.id.timestamp ≤ later.clock.latest

omit [Observer σ] in
theorem Hears.refl (replica : Replica σ) : Hears replica [] replica :=
  ⟨UInt64.le_refl _, by simp⟩

omit [Observer σ] in
theorem Hears.trans {second third : Replica σ} (hears : Hears replica atoms second)
    (further : Hears second others third) : Hears replica (atoms ++ others) third := by
  refine ⟨UInt64.le_trans hears.onward further.onward, ?_⟩
  intro atom member
  rcases List.mem_append.mp member with before | after
  · exact UInt64.le_trans (hears.heard atom before) further.onward
  · exact further.heard atom after

theorem clock_receive (replica : Replica σ) (atom : Atom) :
    (replica.receive atom).2.clock = replica.clock.observe atom.id.timestamp := by
  unfold receive
  split
  · rfl
  · rfl
  · rfl
  · split <;> rfl

theorem hears_receive (replica : Replica σ) (atom : Atom) :
    Hears replica [atom] (replica.receive atom).2 := by
  constructor
  case onward =>
    rw [clock_receive, UInt64.le_iff_toNat_le, LamportClock.toNat_latest_observe]
    exact Nat.le_max_left _ _
  case heard =>
    simp only [List.mem_singleton, forall_eq]
    rw [clock_receive, UInt64.le_iff_toNat_le, LamportClock.toNat_latest_observe]
    exact Nat.le_max_right _ _

theorem hears_receiveAll (replica : Replica σ) (atoms : List Atom) :
    Hears replica atoms (replica.receiveAll atoms).2 := by
  induction atoms using List.reverseRecOn with
  | nil => exact .refl replica
  | append_singleton atoms atom ih =>
    rw [receiveAll_concat]
    exact ih.trans (hears_receive _ atom)

omit [Observer σ] in
/-- The clock has heard of the timestamps that it issues. -/
theorem hears_ticked {timestamp : UInt64} (later : replica.clock.latest < timestamp) :
    Hears replica [] (replica.ticked timestamp) :=
  ⟨UInt64.le_of_lt later, by simp⟩

theorem hears_create (replica : Replica σ) (cause : Option AtomId) (payload : Payload)
    (priority : Int32) : Hears replica (replica.next? cause payload priority).toList
      (replica.create cause payload priority).2 := by
  cases tick : replica.clock.tick with
  | none => simpa [next?, tick, create] using Hears.refl replica
  | some next =>
    obtain ⟨timestamp, clock⟩ := next
    obtain ⟨later, _⟩ := LamportClock.lt_of_tick tick
    rw [create_of_tick tick]
    simpa [next?, tick] using (hears_ticked later).trans (hears_receive _ _)

theorem hears_perform (replica : Replica σ) (operation : Operation) :
    Hears replica (operation.offered replica) (replica.perform operation) := by
  cases operation with
  | create cause payload priority => exact hears_create replica cause payload _
  | receive atom => exact hears_receive replica atom
  | receiveAll atoms => exact hears_receiveAll replica atoms
  | merge other => exact hears_receiveAll replica other.weave.toList

theorem hears_foldl_perform (replica : Replica σ) (operations : List Operation) :
    Hears replica (replica.offered operations) (operations.foldl perform replica) := by
  induction operations generalizing replica with
  | nil => exact .refl replica
  | cons operation rest ih => exact (hears_perform replica operation).trans (ih _)

theorem create_eq_of_exhausted (exhausted : replica.clock.tick = none) (cause : Option AtomId)
    (payload : Payload) (priority : Int32) :
    replica.create cause payload priority = (.error (.clockExhausted replica.site), replica) := by
  simp [create, exhausted]

omit [Observer σ] in
theorem eq_of_creation {atom answer : Atom} {outcome : Except Refusal Reception}
    (created : creation atom outcome = .ok answer) : answer = atom := by
  unfold creation at created
  split at created <;> simp_all

/-- What is created carries the timestamp that the clock issues, which is later than before. -/
theorem next?_of_create {atom : Atom} {cause : Option AtomId} {payload : Payload} {priority : Int32}
    (created : (replica.create cause payload priority).1 = .ok atom) :
    replica.next? cause payload priority = some atom ∧
      replica.clock.latest < atom.id.timestamp := by
  cases tick : replica.clock.tick with
  | none => simp [create_eq_of_exhausted tick] at created
  | some next =>
    obtain ⟨timestamp, clock⟩ := next
    rw [create_of_tick tick] at created
    rw [eq_of_creation created]
    exact ⟨by simp [next?, tick], (LamportClock.lt_of_tick tick).1⟩

theorem Operation.of_created? {operation : Operation} {atom : Atom}
    (created : operation.created? replica = some atom) :
    atom ∈ operation.offered replica ∧ replica.clock.latest < atom.id.timestamp := by
  cases operation with
  | create cause payload priority =>
    cases answer : (replica.create cause payload
        (priority.getD replica.config.defaultPriority)).1 with
    | error why => simp [created?, answer, Except.toOption] at created
    | ok other =>
      obtain ⟨offered, later⟩ := next?_of_create answer
      have same : other = atom := by simpa [created?, answer, Except.toOption] using created
      rw [← same]
      exact ⟨by simp [Operation.offered, offered], later⟩
  | _ => simp [created?] at created

theorem lt_of_created (replica : Replica σ) (operations : List Operation) :
    ∀ atom ∈ replica.created operations, replica.clock.latest < atom.id.timestamp := by
  induction operations generalizing replica with
  | nil => simp [created]
  | cons operation rest ih =>
    intro atom member
    rcases List.mem_append.mp member with first | later
    · exact (Operation.of_created? (Option.mem_toList.mp first)).2
    · exact UInt64.lt_of_le_of_lt (hears_perform replica operation).onward (ih _ atom later)

/-- Each atom that is created has a later timestamp than those before it. -/
theorem pairwise_created (replica : Replica σ) (operations : List Operation) :
    (replica.created operations).Pairwise
      fun earlier later => earlier.id.timestamp < later.id.timestamp := by
  induction operations generalizing replica with
  | nil => exact .nil
  | cons operation rest ih =>
    rw [created]
    cases first : operation.created? replica with
    | none => exact ih _
    | some atom =>
      refine List.pairwise_cons.mpr ⟨?_, ih _⟩
      intro other member
      have heard := (hears_perform replica operation).heard atom (Operation.of_created? first).1
      exact UInt64.lt_of_le_of_lt heard (lt_of_created _ rest other member)

/-- Nothing that the replica holds has the key of the atom that it creates. -/
theorem Sound.create_ne_collision (sound : replica.Sound) (cause : Option AtomId) (payload : Payload)
    (priority : Int32) (id : AtomId) :
    (replica.create cause payload priority).1 ≠ .error (.identityCollision id) := by
  cases tick : replica.clock.tick with
  | none => simp [create_eq_of_exhausted tick]
  | some next =>
    obtain ⟨timestamp, clock⟩ := next
    obtain ⟨later, _⟩ := LamportClock.lt_of_tick tick
    have fresh : ∀ other ∈ replica.held,
        other.id.key ≠ (replica.authored timestamp cause payload priority).id.key :=
      sound.authored_fresh later
    have encounter := (sound.ticked later).encounter (replica.authored timestamp cause payload priority)
    rw [create_of_tick tick]
    generalize (replica.ticked timestamp).receive (replica.authored timestamp cause payload priority) =
      result at encounter
    cases encounter with
    | identityCollision other held key _ => exact absurd key (fresh other held)
    | duplicate other held same =>
      exact absurd (congrArg AtomId.key (Atom.id_eq_of_same same)) (fresh other held)
    | _ => simp [creation]

/-- What creating an atom comes to on a replica that has taken in some atoms, kept or not. -/
structure Creates (replica : Replica σ) (known : List Atom) (cause : Option AtomId) (payload : Payload)
    (priority : Int32) (result : Except Refusal Atom × Replica σ) : Prop where
  distinct : ∀ id, result.1 ≠ .error (.identityCollision id)
  later : ∀ atom, result.1 = .ok atom → replica.next? cause payload priority = some atom ∧
    ∀ other ∈ known, other.id.timestamp < atom.id.timestamp
  woven : replica.clock.latest.toNat < UInt64.size - 1 →
    (∀ id ∈ cause, replica.weave.contains id = true) →
      ∃ atom, result.1 = .ok atom ∧ atom ∈ result.2.weave.toList
  exhausted : replica.clock.latest.toNat = UInt64.size - 1 →
    result = (.error (.clockExhausted replica.site), replica)

theorem Sound.creates (sound : replica.Sound) {known : List Atom}
    (heard : ∀ atom ∈ known, atom.id.timestamp ≤ replica.clock.latest) (cause : Option AtomId)
    (payload : Payload) (priority : Int32) :
    Creates replica known cause payload priority (replica.create cause payload priority) := by
  constructor
  case distinct => exact sound.create_ne_collision cause payload priority
  case later =>
    intro atom created
    obtain ⟨next, later⟩ := next?_of_create created
    exact ⟨next, fun other member => UInt64.lt_of_le_of_lt (heard other member) later⟩
  case woven =>
    intro room causal
    rcases sound.create causal payload priority with
      ⟨exhausted, _⟩ | ⟨_, _, _, _, _, _, created, woven⟩
    · simp only [LamportClock.isExhausted, decide_eq_true_eq] at exhausted
      omega
    · rw [created]
      exact ⟨_, rfl, woven⟩
  case exhausted =>
    intro exhausted
    exact create_eq_of_exhausted ((LamportClock.tick_eq_none_iff _).mpr exhausted) cause payload priority

/-- The clock of a replica is not behind any atom that it was ever offered or holds, the atoms that it has
created have increasing timestamps, and whatever it is to create next is new to it and to all of these. -/
theorem timestamps_fresh (site : Site) (config : Replica.Config) (observer : σ)
    (operations : List Operation) :
    let start := fresh site config observer
    let replica := after site config observer operations
    (∀ atom ∈ start.offered operations ++ replica.held, atom.id.timestamp ≤ replica.clock.latest) ∧
      ((start.created operations).Pairwise fun earlier later =>
        earlier.id.timestamp < later.id.timestamp) ∧
      ∀ cause payload priority,
        Creates replica (start.offered operations ++ replica.held) cause payload priority
          (replica.create cause payload priority) := by
  intro start replica
  have sound : replica.Sound := Reachable.sound ⟨site, config, observer, operations, rfl⟩
  have heard : ∀ atom ∈ start.offered operations ++ replica.held,
      atom.id.timestamp ≤ replica.clock.latest := by
    intro atom member
    rcases List.mem_append.mp member with offered | held
    · exact (hears_foldl_perform start operations).heard atom offered
    · exact sound.heard atom held
  exact ⟨heard, pairwise_created start operations, sound.creates heard⟩

/-- Below its first atom a replica creates another one, but none after it has heard of the largest
timestamp, though the atom that carries it was refused. -/
theorem timestamps_fresh_at_end :
    let first : Atom := { id := { site := ⟨"x"⟩, timestamp := 1 } }
    let last : Atom :=
      { id := { site := ⟨"x"⟩, timestamp := 18446744073709551615 }
        cause := some { site := ⟨"x"⟩, timestamp := 18446744073709551615 } }
    let early := after ⟨"x"⟩ .unbounded () [.receive first]
    let ended := after ⟨"x"⟩ .unbounded () [.receive first, .receive last]
    (∃ atom, (early.create (some first.id) .empty 0).1 = .ok atom ∧
      atom ∈ (early.create (some first.id) .empty 0).2.weave.toList ∧
        first.id.timestamp < atom.id.timestamp) ∧
      ended.create none .empty 0 = (.error (.clockExhausted ended.site), ended) := by
  intro first last early ended
  have reachable : early.Reachable := ⟨_, _, _, _, rfl⟩
  have started : early.clock.latest.toNat = 1 := by
    change ((fresh ⟨"x"⟩ .unbounded ()).receive first).2.clock.latest.toNat = 1
    rw [clock_receive, LamportClock.toNat_latest_observe]
    rfl
  have spent : ended.clock.latest.toNat = UInt64.size - 1 := by
    change (early.receive last).2.clock.latest.toNat = UInt64.size - 1
    rw [clock_receive, LamportClock.toNat_latest_observe, started]
    rfl
  have woven : early.weave.contains first.id = true := by
    have sound := sound_fresh ⟨"x"⟩ .unbounded ()
    apply reachable.sound.weave.contains_iff.mpr
    rcases (sound.encounter first).weaves sound (by simp [held_fresh]) (by decide) (by simp [first])
      with ⟨other, absent, _⟩ | ⟨_, _, _, woven⟩
    · simp [fresh] at absent
    · exact ⟨first, woven, rfl⟩
  obtain ⟨_, _, creates⟩ := timestamps_fresh ⟨"x"⟩ .unbounded () [.receive first]
  obtain ⟨_, _, creates'⟩ := timestamps_fresh ⟨"x"⟩ .unbounded () [.receive first, .receive last]
  have next := creates (some first.id) .empty 0
  obtain ⟨atom, created, present⟩ := next.woven (by rw [started]; decide) (by simpa using woven)
  have later := (next.later atom created).2 first (by simp [offered, Operation.offered])
  exact ⟨⟨atom, created, present, later⟩, (creates' none .empty 0).exhausted spent⟩

end CausalWeave.Replica
