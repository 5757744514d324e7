import CausalWeave.Proofs.Simulation.Soundness

namespace CausalWeave.Simulation

def Wove (simulation : Simulation) (number : Nat) (atom : Atom) : Prop :=
  ∃ participant : Participant,
    simulation.participants[number]? = some participant ∧ atom ∈ participant.sequence

/-- A participant has woven all authored atoms. -/
def Complete (earlier : List Atom) (simulation : Simulation) (number : Nat) : Prop :=
  ∀ atom ∈ simulation.authored earlier, simulation.Wove number atom

/-- A part of the final exchange, which goes through some pairs of a receiver and a sender. -/
def exchanges (simulation : Simulation) (round : Nat) (pairs : List (Nat × Nat)) : Simulation :=
  pairs.foldl (fun simulation (receiver, sender) => simulation.exchange round receiver sender)
    simulation

/-- The pair may cause an event: the first participant takes part, or nothing is left to take. -/
def Admissible (earlier : List Atom) (simulation : Simulation) (receiver sender : Nat) : Prop :=
  (sender = 0 ∨ receiver = 0) ∨ simulation.Complete earlier receiver

/-- What a part of the exchange leaves in place. -/
structure Advances (count : Nat) (earlier : List Atom) (before after : Simulation) : Prop where
  sound : Sound count earlier after
  authored : after.authored earlier = before.authored earlier
  kept : ∀ number atom, before.Wove number atom → after.Wove number atom

namespace Advances

variable {count : Nat} {earlier : List Atom}

theorem refl {simulation : Simulation} (sound : Sound count earlier simulation) :
    Advances count earlier simulation simulation :=
  ⟨sound, rfl, fun _ _ wove => wove⟩

theorem trans {first second third : Simulation} (advances : Advances count earlier first second)
    (further : Advances count earlier second third) : Advances count earlier first third where
  sound := further.sound
  authored := further.authored.trans advances.authored
  kept number atom wove := further.kept number atom (advances.kept number atom wove)

theorem complete {before after : Simulation} (advances : Advances count earlier before after)
    {number : Nat} (complete : before.Complete earlier number) : after.Complete earlier number := by
  intro atom member
  rw [advances.authored] at member
  exact advances.kept number atom (complete atom member)

end Advances

section Replaced

variable {simulation other : Simulation} {receiver : Nat} {taker later : Participant}
  (replaced : other.participants = simulation.participants.setIfInBounds receiver later)
  (takes : simulation.participants[receiver]? = some taker)

include replaced takes

theorem wove_of_replaced {atom : Atom} (member : atom ∈ later.sequence) :
    other.Wove receiver atom := by
  have inside := (Array.getElem?_eq_some_iff.mp takes).1
  exact ⟨later, by simp [replaced, inside], member⟩

/-- Nobody loses an atom when a participant is replaced by one that has woven more. -/
theorem Wove.of_replaced (grown : ∀ atom ∈ taker.sequence, atom ∈ later.sequence) {number : Nat}
    {atom : Atom} (wove : simulation.Wove number atom) : other.Wove number atom := by
  obtain ⟨participant, present, member⟩ := wove
  by_cases same : number = receiver
  · subst same
    rw [takes, Option.some.injEq] at present
    exact wove_of_replaced replaced takes (grown atom (present ▸ member))
  · refine ⟨participant, ?_, member⟩
    simpa [replaced, Array.getElem?_setIfInBounds, Ne.symm same] using present

end Replaced

namespace Sound

variable {count : Nat} {earlier : List Atom} {simulation : Simulation}

/-- An exchange neither defers nor refuses an atom. -/
theorem exchange_intake (sound : Sound count earlier simulation) {receiver sender : Nat}
    {giver taker : Participant} (gives : simulation.participants[sender]? = some giver)
    (takes : simulation.participants[receiver]? = some taker) :
    (taker.receiveAll giver.sequence).1.deferred = 0 ∧
      (taker.receiveAll giver.sequence).1.rejected = [] := by
  obtain ⟨_, deferred, rejected, _⟩ := (sound.participants _ _ takes).receiveAll sound.history
    (sound.participants _ _ gives)
  exact ⟨deferred, rejected⟩

/-- In an exchange the receiver weaves all that the sender has woven. -/
theorem exchange (sound : Sound count earlier simulation) (round : Nat) {receiver sender : Nat}
    (admissible : simulation.Admissible earlier receiver sender) :
    Advances count earlier simulation (simulation.exchange round receiver sender) ∧
      (receiver < count → ∀ atom, simulation.Wove sender atom →
        (simulation.exchange round receiver sender).Wove receiver atom) := by
  unfold Simulation.exchange
  cases gives : simulation.participants[sender]? with
  | none =>
    refine ⟨.refl sound, ?_⟩
    rintro _ atom ⟨giver, present, _⟩
    simp [gives] at present
  | some giver =>
    cases takes : simulation.participants[receiver]? with
    | none =>
      refine ⟨.refl sound, ?_⟩
      intro inside
      rw [← sound.size] at inside
      simp [Array.getElem?_eq_getElem inside] at takes
    | some taker =>
      have giving := sound.participants _ _ gives
      obtain ⟨updated, _, _, grown, taken, idle⟩ :=
        (sound.participants _ _ takes).receiveAll sound.history giving
      have quiet : simulation.Complete earlier receiver →
          (taker.receiveAll giver.sequence).1.woven = 0 := by
        intro complete
        apply idle
        intro atom member
        obtain ⟨found, present, woven⟩ := complete atom (giving.partakes.woven member)
        rw [takes, Option.some.injEq] at present
        exact present ▸ woven
      dsimp only
      generalize taker.receiveAll giver.sequence = result at updated grown taken quiet
      obtain ⟨intake, later⟩ := result
      have changed := (sound.update updated).noteFault !intake.rejected.isEmpty
      have given : ∀ atom, simulation.Wove sender atom → atom ∈ later.sequence := by
        rintro atom ⟨participant, present, member⟩
        rw [gives, Option.some.injEq] at present
        exact taken atom (present ▸ member)
      split
      · rename_i some_woven
        have central : Event.Central (.sync sender receiver intake.woven) := by
          rcases admissible with central | complete
          · exact central
          · exact absurd (quiet complete) (Nat.ne_of_gt some_woven)
        refine ⟨⟨changed.record round rfl central, authored_record_quiet _ _ _ rfl, ?_⟩, ?_⟩
        · intro number atom wove
          exact wove.of_replaced rfl takes grown
        · intro _ atom wove
          exact wove_of_replaced rfl takes (given atom wove)
      · refine ⟨⟨changed, rfl, ?_⟩, ?_⟩
        · intro number atom wove
          exact wove.of_replaced rfl takes grown
        · intro _ atom wove
          exact wove_of_replaced rfl takes (given atom wove)

end Sound

def Sooner (first second : Nat × Nat) : Prop :=
  first.1 < second.1 ∨ first.1 = second.1 ∧ first.2 < second.2

theorem mem_exchangePairs {count receiver sender : Nat} :
    (receiver, sender) ∈ exchangePairs count ↔
      receiver < count ∧ sender < count ∧ sender ≠ receiver := by
  simp [exchangePairs]

theorem pairwise_exchangePairs (count : Nat) : (exchangePairs count).Pairwise Sooner := by
  rw [exchangePairs, List.pairwise_flatMap]
  constructor
  · intro receiver _
    rw [List.pairwise_map]
    apply (List.pairwise_lt_range.filter _).imp
    intro first second smaller
    exact .inr ⟨rfl, smaller⟩
  · apply List.pairwise_lt_range.imp
    intro first second smaller one inFirst other inSecond
    obtain ⟨_, _, rfl⟩ := List.mem_map.mp inFirst
    obtain ⟨_, _, rfl⟩ := List.mem_map.mp inSecond
    exact .inl smaller

/-- A pair that comes sooner than another stands before it. -/
theorem mem_before_of_sooner {count : Nat} {before after : List (Nat × Nat)} {pair other : Nat × Nat}
    (order : exchangePairs count = before ++ pair :: after) (member : other ∈ exchangePairs count)
    (sooner : Sooner other pair) : other ∈ before := by
  have sorted := pairwise_exchangePairs count
  rw [order] at sorted member
  rcases List.mem_append.mp member with early | rest
  · exact early
  obtain ⟨_, later, _⟩ := List.pairwise_append.mp sorted
  rcases List.mem_cons.mp rest with same | late
  · subst same
    simp [Sooner] at sooner
  · have behind := (List.pairwise_cons.mp later).1 other late
    unfold Sooner at sooner behind
    omega

/-- Where the final exchange stands after some pairs. -/
structure Progress (count : Nat) (earlier : List Atom) (start : Simulation)
    (pairs : List (Nat × Nat)) (now : Simulation) : Prop where
  advances : Advances count earlier start now
  gathered : ∀ receiver sender, (receiver, sender) ∈ pairs → ∀ atom,
    start.Wove sender atom → now.Wove receiver atom
  spread : ∀ receiver, receiver ≠ 0 → (receiver, 0) ∈ pairs → now.Complete earlier receiver

namespace Progress

variable {count : Nat} {earlier : List Atom} {start now : Simulation} {pairs : List (Nat × Nat)}

theorem wove_of_author (sound : Sound count earlier start) {atom : Atom}
    (member : atom ∈ start.authored earlier) : ∃ number < count, start.Wove number atom := by
  obtain ⟨number, inside, site⟩ := sound.authors atom member
  have bounded : number < start.participants.size := sound.size ▸ inside
  have present := Array.getElem?_eq_getElem bounded
  exact ⟨number, inside, _, present, (sound.participants _ _ present).partakes.own atom member site⟩

/-- The first participant has all atoms once it has taken in all sequences. -/
theorem complete_first (progress : Progress count earlier start pairs now)
    (sound : Sound count earlier start)
    (collected : ∀ sender, sender < count → sender ≠ 0 → (0, sender) ∈ pairs) :
    now.Complete earlier 0 := by
  intro atom member
  rw [progress.advances.authored] at member
  obtain ⟨number, inside, wove⟩ := wove_of_author sound member
  by_cases first : number = 0
  · subst first
    exact progress.advances.kept 0 atom wove
  · exact progress.gathered 0 number (collected number inside first) atom wove

/-- Before a pair with another receiver the first participant has collected all sequences. -/
theorem collected_before {after : List (Nat × Nat)} {receiver sender : Nat}
    (order : exchangePairs count = pairs ++ (receiver, sender) :: after) (other : receiver ≠ 0) :
    ∀ sender, sender < count → sender ≠ 0 → (0, sender) ∈ pairs := by
  intro source inside apart
  have member : (receiver, sender) ∈ exchangePairs count := by simp [order]
  obtain ⟨bounded, _, _⟩ := mem_exchangePairs.mp member
  apply mem_before_of_sooner order
  · exact mem_exchangePairs.mpr ⟨by omega, inside, apart⟩
  · exact .inl (Nat.pos_of_ne_zero other)

theorem admissible (progress : Progress count earlier start pairs now)
    {after : List (Nat × Nat)} {receiver sender : Nat}
    (order : exchangePairs count = pairs ++ (receiver, sender) :: after) :
    now.Admissible earlier receiver sender := by
  by_cases central : sender = 0 ∨ receiver = 0
  · exact .inl central
  · rw [not_or] at central
    have member : (receiver, sender) ∈ exchangePairs count := by simp [order]
    obtain ⟨bounded, _, _⟩ := mem_exchangePairs.mp member
    have sooner : (receiver, 0) ∈ pairs := by
      apply mem_before_of_sooner order
      · exact mem_exchangePairs.mpr ⟨bounded, by omega, Ne.symm central.2⟩
      · exact .inr ⟨rfl, Nat.pos_of_ne_zero central.1⟩
    exact .inr (progress.spread receiver central.2 sooner)

theorem exchange (progress : Progress count earlier start pairs now)
    (sound : Sound count earlier start) (round : Nat) {after : List (Nat × Nat)}
    {receiver sender : Nat}
    (order : exchangePairs count = pairs ++ (receiver, sender) :: after) :
    Progress count earlier start (pairs ++ [(receiver, sender)])
      (now.exchange round receiver sender) := by
  have member : (receiver, sender) ∈ exchangePairs count := by simp [order]
  obtain ⟨bounded, _, _⟩ := mem_exchangePairs.mp member
  obtain ⟨advances, gains⟩ := progress.advances.sound.exchange round (progress.admissible order)
  constructor
  case advances => exact progress.advances.trans advances
  case gathered =>
    intro taker giver pair atom wove
    rcases List.mem_append.mp pair with old | new
    · exact advances.kept taker atom (progress.gathered taker giver old atom wove)
    · obtain ⟨rfl, rfl⟩ := Prod.mk.inj (List.mem_singleton.mp new)
      exact gains bounded atom (progress.advances.kept _ atom wove)
  case spread =>
    intro taker other pair
    rcases List.mem_append.mp pair with old | new
    · exact advances.complete (progress.spread taker other old)
    · obtain ⟨rfl, rfl⟩ := Prod.mk.inj (List.mem_singleton.mp new)
      intro atom known
      rw [advances.authored] at known
      exact gains bounded atom (progress.complete_first sound (collected_before order other) atom known)

end Progress

theorem Sound.exchanges {count : Nat} {earlier : List Atom} {simulation : Simulation}
    (sound : Sound count earlier simulation) (round : Nat) {pairs after : List (Nat × Nat)}
    (order : exchangePairs count = pairs ++ after) :
    Progress count earlier simulation pairs (simulation.exchanges round pairs) := by
  induction pairs using List.reverseRecOn generalizing after with
  | nil => exact ⟨.refl sound, by simp, by simp⟩
  | append_singleton pairs pair ih =>
    rw [List.append_assoc] at order
    have step := (ih order).exchange sound round order
    rw [Simulation.exchanges, List.foldl_append]
    exact step

/-- After the whole exchange every participant has woven every authored atom. -/
theorem Sound.complete_exchanges {count : Nat} {earlier : List Atom} {simulation : Simulation}
    (sound : Sound count earlier simulation) (round : Nat) {number : Nat} (inside : number < count) :
    (simulation.exchanges round (exchangePairs count)).Complete earlier number := by
  have progress := sound.exchanges round (List.append_nil _).symm
  by_cases first : number = 0
  · subst first
    apply progress.complete_first sound
    intro sender bounded apart
    exact mem_exchangePairs.mpr ⟨inside, bounded, apart⟩
  · exact progress.spread number first (mem_exchangePairs.mpr ⟨inside, by omega, Ne.symm first⟩)

end CausalWeave.Simulation
