import CausalWeave.Proofs.Simulation.Course

namespace CausalWeave.Simulation

/-- What an entry says of a turn. -/
inductive Outline where
  | emit (replica : Nat) (atom : AtomId)
  | send (sender receiver : Nat) (atom : AtomId)
  | other

def Event.outline : Event → Outline
  | .emit replica atom => .emit replica atom.id
  | .send sender receiver atom _ _ _ => .send sender receiver atom
  | _ => .other

def Message.outline (message : Message) : Outline :=
  .send message.sender message.receiver message.atom.id

/-- The outlines consist of whole turns and of other entries. -/
inductive Dispatched (count fanout : Nat) : List Outline → Prop where
  | nil : Dispatched count fanout []
  | other {outlines : List Outline} (earlier : Dispatched count fanout outlines) :
      Dispatched count fanout (outlines ++ [.other])
  | turn {outlines : List Outline} {sender : Nat} {atom : AtomId} {receivers : List Nat}
      (earlier : Dispatched count fanout outlines) (drawn : Receivers count fanout sender receivers) :
      Dispatched count fanout
        (outlines ++ .emit sender atom :: receivers.map fun receiver => .send sender receiver atom)

namespace Dispatched

variable {count fanout : Nat} {outlines : List Outline}

theorem others (dispatched : Dispatched count fanout outlines) {steps : List TraceStep}
    (other : ∀ step ∈ steps, step.event.outline = .other) :
    Dispatched count fanout (outlines ++ steps.map (·.event.outline)) := by
  induction steps using List.reverseRecOn with
  | nil => simpa using dispatched
  | append_singleton steps step ih =>
    have before := ih fun entry member => other entry (List.mem_append_left _ member)
    rw [List.map_append, ← List.append_assoc, List.map_singleton, other step (by simp)]
    exact before.other

/-- After an emission come its sends, and then no further send. -/
theorem follows (dispatched : Dispatched count fanout outlines) {before after : List Outline}
    {sender : Nat} {atom : AtomId} (split : outlines = before ++ .emit sender atom :: after) :
    ∃ receivers rest, Receivers count fanout sender receivers ∧
      after = receivers.map (fun receiver => .send sender receiver atom) ++ rest ∧
      ∀ next ∈ rest.head?, ∀ sender receiver atom, next ≠ .send sender receiver atom := by
  induction dispatched generalizing after with
  | nil => simp at split
  | @other outlines _ ih =>
    rcases List.eq_nil_or_concat after with rfl | ⟨middle, last, rfl⟩
    · cases (List.append_inj' split rfl).2
    · rw [List.concat_eq_append, ← List.cons_append, ← List.append_assoc] at split
      obtain ⟨earlier, same⟩ := List.append_inj' split rfl
      obtain ⟨receivers, rest, drawn, rfl, apart⟩ := ih earlier
      refine ⟨receivers, rest ++ [.other], drawn, by simp [← same], ?_⟩
      cases rest with
      | nil => simp
      | cons next rest => exact apart
  | @turn outlines author emitted receivers _ drawn ih =>
    rcases List.append_eq_append_iff.mp split with ⟨between, _, sends⟩ | ⟨between, earlier, sends⟩
    · cases between with
      | nil =>
        cases sends
        exact ⟨receivers, [], drawn, by simp, by simp⟩
      | cons first between =>
        have inside : Outline.emit sender atom ∈
            receivers.map fun receiver => Outline.send author receiver emitted := by
          rw [(List.cons.inj sends).2]
          simp
        simp at inside
    · cases between with
      | nil =>
        cases sends
        exact ⟨receivers, [], drawn, by simp, by simp⟩
      | cons first between =>
        obtain ⟨rfl, rfl⟩ := List.cons.inj sends
        obtain ⟨receivers', rest, drawn', rfl, apart⟩ := ih earlier
        refine ⟨receivers', rest ++ .emit author emitted ::
          receivers.map fun receiver => .send author receiver emitted, drawn', by simp, ?_⟩
        cases rest with
        | nil => simp
        | cons next rest => exact apart

end Dispatched

def TraceStep.Sends (sender : Nat) (atom : AtomId) (receiver : Nat) (step : TraceStep) : Prop :=
  ∃ dropped duplicated delay, step.event = .send sender receiver atom dropped duplicated delay

/-- The steps after an emission begin with its sends, one to each receiver, and then go on without a send. -/
structure Dispatches (count fanout sender : Nat) (atom : AtomId) (sends rest : List TraceStep)
    (receivers : List Nat) : Prop where
  drawn : Receivers count fanout sender receivers
  sends : List.Forall₂ (TraceStep.Sends sender atom) receivers sends
  ended : ∀ next ∈ rest.head?, ∀ sender atom receiver, ¬ next.Sends sender atom receiver

theorem sends_of_outline {sender receiver : Nat} {atom : AtomId} {step : TraceStep}
    (same : step.event.outline = .send sender receiver atom) : step.Sends sender atom receiver := by
  obtain ⟨round, event⟩ := step
  cases event with
  | send => cases same; exact ⟨_, _, _, rfl⟩
  | _ => cases same

theorem Dispatched.dispatches {count fanout : Nat} {trace before after : List TraceStep}
    (dispatched : Dispatched count fanout (trace.map (·.event.outline))) {step : TraceStep}
    (split : trace = before ++ step :: after) {sender : Nat} {atom : Atom}
    (emits : step.event = .emit sender atom) : ∃ sends rest receivers, after = sends ++ rest ∧
      Dispatches count fanout sender atom.id sends rest receivers := by
  have outlines : trace.map (·.event.outline) = before.map (·.event.outline) ++
      .emit sender atom.id :: after.map (·.event.outline) := by
    simp [split, emits, Event.outline]
  obtain ⟨receivers, rest, drawn, follow, apart⟩ := dispatched.follows outlines
  obtain ⟨sends, later, rfl, first, last⟩ := List.map_eq_append_iff.mp follow
  refine ⟨sends, later, receivers, rfl, drawn, ?sends, ?ended⟩
  case sends =>
    have same : List.Forall₂ (· = ·) (receivers.map fun receiver => .send sender receiver atom.id)
        (sends.map (·.event.outline)) := by
      rw [first, List.forall₂_eq_eq_eq]
    rw [List.forall₂_map_left_iff, List.forall₂_map_right_iff] at same
    exact same.imp fun _ _ same => sends_of_outline same.symm
  case ended =>
    rintro next head sender atom receiver ⟨_, _, _, sent⟩
    apply apart next.event.outline _ sender receiver atom (by rw [sent]; rfl)
    rw [← last, List.head?_map]
    exact Option.mem_map_of_mem _ head

end CausalWeave.Simulation
