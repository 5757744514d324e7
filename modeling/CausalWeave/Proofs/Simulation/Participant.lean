import CausalWeave.Proofs.Generator
import CausalWeave.Proofs.Replica.Merging
import CausalWeave.Proofs.Replica.Recording
import CausalWeave.Proofs.Simulation.History

namespace CausalWeave.Simulation

/-- The replica of a participant while atoms have been authored by all of them. -/
structure Partakes (authored : List Atom) (number : Nat) (noted : List AtomId)
    (replica : Replica Recorder) : Prop where
  sound : replica.Sound
  site : replica.site = siteOf number
  drawn : ∀ atom ∈ replica.held, atom ∈ authored
  own : ∀ atom ∈ authored, atom.id.site = siteOf number → atom ∈ replica.weave.toList
  recorded : replica.Recorded noted

/-- A participant between two steps: its recorder is empty. -/
structure Participant.Sound (authored : List Atom) (number : Nat) (participant : Participant) :
    Prop where
  partakes : Partakes authored number participant.woven.toList participant.replica
  number : participant.number = number
  drained : participant.replica.observer.insertions = #[]

namespace Partakes

variable {authored : List Atom} {number : Nat} {noted : List AtomId} {replica : Replica Recorder}

theorem woven (partakes : Partakes authored number noted replica) {atom : Atom}
    (member : atom ∈ replica.weave.toList) : atom ∈ authored :=
  partakes.drawn atom (List.mem_append_left _ member)

theorem contains_noted (partakes : Partakes authored number noted replica) {id : AtomId}
    (member : id ∈ noted) : replica.weave.contains id = true := by
  have woven := partakes.recorded.mem_iff.mp (List.mem_append_left _ member)
  exact partakes.sound.weave.contains_iff.mpr (List.mem_map.mp woven)

/-- What others author does not concern a participant. -/
theorem author_elsewhere (partakes : Partakes authored number noted replica) {atom : Atom}
    (elsewhere : atom.id.site ≠ siteOf number) :
    Partakes (authored ++ [atom]) number noted replica where
  sound := partakes.sound
  site := partakes.site
  drawn other held := List.mem_append_left _ (partakes.drawn other held)
  own := by
    intro other member here
    rcases List.mem_append.mp member with earlier | last
    · exact partakes.own other earlier here
    · rw [List.mem_singleton.mp last] at here
      exact absurd here elsewhere
  recorded := partakes.recorded

theorem encounter (partakes : Partakes authored number noted replica) {atom : Atom}
    (known : atom ∈ authored) (encounter : replica.Encounter atom result) :
    Partakes authored number noted result.2 where
  sound := encounter.sound partakes.sound
  site := encounter.site.trans partakes.site
  drawn := by
    intro other held
    rcases List.mem_cons.mp (encounter.held_subset other held) with here | old
    · exact here ▸ known
    · exact partakes.drawn other old
  own other member here := encounter.woven_subset other (partakes.own other member here)
  recorded := encounter.recorded partakes.recorded

/-- A new atom below a noted one has a new key. -/
theorem create (partakes : Partakes authored number noted replica) {cause : Option AtomId}
    (causal : ∀ id ∈ cause, id ∈ noted) (payload : Payload) (priority : Int32) :
    (∃ why, replica.create cause payload priority = (.error why, replica)) ∨
      ∃ atom later, replica.create cause payload priority = (.ok atom, later) ∧
        atom.id.site = siteOf number ∧
        (∀ other ∈ authored, other.id.key ≠ atom.id.key) ∧
        (∀ cause ∈ atom.cause, ∃ parent ∈ authored,
          parent.id = cause ∧ cause.timestamp < atom.id.timestamp) ∧
        Partakes (authored ++ [atom]) number noted later := by
  have woven_cause : ∀ id ∈ cause, replica.weave.contains id = true := by
    intro id member
    exact partakes.contains_noted (causal id member)
  rcases partakes.sound.create woven_cause payload priority with
    ⟨_, failed⟩ | ⟨timestamp, position, released, later, recent, encounter, creates, woven⟩
  · exact .inl ⟨_, failed⟩
  right
  have before : ∀ other ∈ replica.held, other.id.timestamp < timestamp := by
    intro other held
    have heard := UInt64.le_iff_toNat_le.mp (partakes.sound.heard other held)
    exact UInt64.lt_iff_toNat_lt.mpr (Nat.lt_of_le_of_lt heard (UInt64.lt_iff_toNat_lt.mp recent))
  refine ⟨_, later, creates, partakes.site, ?fresh, ?below, ?partakes⟩
  case fresh =>
    intro other member key
    have here : other.id.site = siteOf number := (congrArg Prod.fst key).trans partakes.site
    have earlier := before other (List.mem_append_left _ (partakes.own other member here))
    rw [show other.id.timestamp = timestamp from congrArg Prod.snd key] at earlier
    exact UInt64.lt_irrefl _ earlier
  case below =>
    intro id member
    obtain ⟨parent, member, same⟩ := partakes.sound.weave.contains_iff.mp (woven_cause id member)
    exact ⟨parent, partakes.woven member, same, same ▸ before parent (List.mem_append_left _ member)⟩
  case partakes =>
    have ticked : Partakes authored number noted (replica.ticked timestamp) :=
      { partakes with sound := partakes.sound.ticked recent }
    constructor
    case sound => exact encounter.sound ticked.sound
    case site => exact encounter.site.trans partakes.site
    case drawn =>
      intro other held
      rcases List.mem_cons.mp (encounter.held_subset other held) with here | old
      · simp [here]
      · exact List.mem_append_left _ (partakes.drawn other old)
    case own =>
      intro other member here
      rcases List.mem_append.mp member with earlier | last
      · exact encounter.woven_subset other (partakes.own other earlier here)
      · exact List.mem_singleton.mp last ▸ woven
    case recorded => exact encounter.recorded ticked.recorded

theorem receiveAll (partakes : Partakes authored number noted replica) {received : List Atom}
    (known : ∀ atom ∈ received, atom ∈ authored) :
    Partakes authored number noted (replica.receiveAll received).2 := by
  induction received using List.reverseRecOn with
  | nil => exact partakes
  | append_singleton received atom ih =>
    have before := ih fun other member => known other (List.mem_append_left _ member)
    rw [Replica.receiveAll_concat]
    exact before.encounter (known atom (by simp)) (before.sound.encounter atom)

theorem absorbed (partakes : Partakes authored number noted replica) (history : History authored)
    {giver : Weave} (sound : giver.Sound) (known : ∀ atom ∈ giver.toList, atom ∈ authored) :
    Replica.Absorbed replica giver.toList (replica.receiveAll giver.toList) := by
  have within : Within (replica.held ++ giver.toList) authored := by
    apply within_of_subset
    intro atom member
    rcases List.mem_append.mp member with held | given
    · exact partakes.drawn atom held
    · exact known atom given
  exact partakes.sound.absorbed sound (within.coherent history.unique) (List.append_nil _).symm

end Partakes

namespace Participant

variable {authored : List Atom} {number : Nat} {participant : Participant}

theorem noteWoven_sound {replica : Replica Recorder}
    (partakes : Partakes authored number participant.woven.toList replica)
    (same : participant.number = number) :
    Sound authored number { participant with replica }.noteWoven where
  partakes :=
    { sound := partakes.sound.observed _
      site := partakes.site
      drawn := partakes.drawn
      own := partakes.own
      recorded := by simpa [Replica.Recorded, noteWoven, Recorder.drain] using partakes.recorded }
  number := same
  drained := rfl

theorem sound_fresh (number : Nat) (config : Replica.Config) :
    Sound [] number (fresh number config) where
  partakes :=
    { sound := Replica.sound_fresh _ _ _
      site := rfl
      drawn := by simp [fresh, Replica.held_fresh]
      own := by simp
      recorded := .refl _ }
  number := rfl
  drained := rfl

theorem mem_of_drawCause (participant : Participant) (rates : AuthoringRates)
    (generator : Generator) :
    ∀ id ∈ (participant.drawCause rates generator).1.1, id ∈ participant.woven.toList := by
  intro id drawn
  unfold drawCause at drawn
  generalize generator.hits rates.rootPercent = root at drawn
  obtain ⟨isRoot, generator⟩ := root
  dsimp only at drawn
  split at drawn
  · simp at drawn
  · generalize chosen : generator.choose participant.woven = choice at drawn
    obtain ⟨_ | cause, generator⟩ := choice
    · simp at drawn
    · simp only [Option.mem_def, Option.some.injEq] at drawn
      rw [← drawn]
      exact (Generator.mem_of_choose (congrArg Prod.fst chosen)).val

theorem author_eq (participant : Participant) (rates : AuthoringRates)
    (generator : Generator) : ∃ payload priority,
    let created := participant.replica.create (participant.drawCause rates generator).1.1 payload
      priority
    participant.author rates generator =
      (created.1, { participant with replica := created.2 }.noteWoven,
        (participant.drawCause rates generator).2) := by
  simp only [author]
  generalize participant.drawCause rates generator = drawn
  obtain ⟨⟨_ | target, _ | _⟩, generator⟩ := drawn
  · exact ⟨_, _, rfl⟩
  · exact ⟨_, _, rfl⟩
  · exact ⟨_, _, rfl⟩
  · exact ⟨_, _, rfl⟩

namespace Sound

/-- Authoring fails without a trace or adds an atom to the history. -/
theorem author (sound : Sound authored number participant) (rates : AuthoringRates)
    (generator : Generator) :
    (∃ why, (participant.author rates generator).1 = .error why ∧
        Sound authored number (participant.author rates generator).2.1) ∨
      ∃ atom, (participant.author rates generator).1 = .ok atom ∧
        atom.id.site = siteOf number ∧
        (∀ other ∈ authored, other.id.key ≠ atom.id.key) ∧
        (∀ cause ∈ atom.cause, ∃ parent ∈ authored,
          parent.id = cause ∧ cause.timestamp < atom.id.timestamp) ∧
        Sound (authored ++ [atom]) number (participant.author rates generator).2.1 := by
  obtain ⟨payload, priority, authors⟩ := author_eq participant rates generator
  rw [authors]
  rcases sound.partakes.create (mem_of_drawCause participant rates generator) payload priority with
    ⟨why, refused⟩ | ⟨atom, later, created, site, fresh, causal, partakes⟩
  · left
    refine ⟨why, congrArg Prod.fst refused, ?_⟩
    apply noteWoven_sound _ sound.number
    rw [refused]
    exact sound.partakes
  · right
    refine ⟨atom, congrArg Prod.fst created, site, fresh, causal, ?_⟩
    apply noteWoven_sound _ sound.number
    rw [created]
    exact partakes

theorem author_elsewhere (sound : Sound authored number participant) {atom : Atom}
    (elsewhere : atom.id.site ≠ siteOf number) : Sound (authored ++ [atom]) number participant where
  partakes := sound.partakes.author_elsewhere elsewhere
  number := sound.number
  drained := sound.drained

theorem receive (sound : Sound authored number participant) {atom : Atom}
    (known : atom ∈ authored) : Sound authored number (participant.receive atom).2 :=
  noteWoven_sound (sound.partakes.encounter known (sound.partakes.sound.encounter atom)) sound.number

/-- What taking in the sequence of another participant does. -/
theorem receiveAll (sound : Sound authored number participant) (history : History authored)
    {giver : Participant} (other : Sound authored source giver) :
    Sound authored number (participant.receiveAll giver.sequence).2 ∧
      (participant.receiveAll giver.sequence).1.deferred = 0 ∧
      (participant.receiveAll giver.sequence).1.rejected = [] ∧
      (∀ atom ∈ participant.sequence,
        atom ∈ (participant.receiveAll giver.sequence).2.sequence) ∧
      (∀ atom ∈ giver.sequence, atom ∈ (participant.receiveAll giver.sequence).2.sequence) ∧
      ((∀ atom ∈ giver.sequence, atom ∈ participant.sequence) →
        (participant.receiveAll giver.sequence).1.woven = 0) := by
  have given : ∀ atom ∈ giver.sequence, atom ∈ authored := fun atom => other.partakes.woven
  have partakes := sound.partakes.receiveAll given
  have absorbed := sound.partakes.absorbed history other.partakes.sound.weave given
  refine ⟨noteWoven_sound partakes sound.number, absorbed.deferred, absorbed.rejected,
    absorbed.grown, ?taken, ?idle⟩
  case taken =>
    intro atom member
    obtain ⟨twin, woven, same⟩ := absorbed.taken atom member
    have twins := eq_of_key history.unique (partakes.woven woven) (given atom member)
      (congrArg AtomId.key (Atom.id_eq_of_same same))
    exact twins ▸ woven
  case idle =>
    intro woven
    have repeated := sound.partakes.sound.receiveAll_of_woven
      fun atom member => ⟨atom, woven atom member, atom.same_refl⟩
    exact congrArg (·.1.woven) repeated

end Sound

end Participant
end CausalWeave.Simulation
