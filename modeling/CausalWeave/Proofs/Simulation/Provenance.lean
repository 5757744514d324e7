import CausalWeave.Proofs.Simulation.Course

namespace CausalWeave.Simulation

/-- No two atoms share a key, and the cause of each comes before it with an earlier timestamp. -/
structure Causal (atoms : List Atom) : Prop where
  distinct : (atoms.map (·.id.key)).Nodup
  caused : ∀ before atom after, atoms = before ++ atom :: after → ∀ cause ∈ atom.cause,
    ∃ parent ∈ before, parent.id = cause ∧ cause.timestamp < atom.id.timestamp

theorem History.causal {atoms : List Atom} (history : History atoms) : Causal atoms := by
  refine ⟨history.unique, ?_⟩
  induction history with
  | nil => simp
  | @author authored last _ _ causal ih =>
    intro before atom after split
    rcases List.eq_nil_or_concat after with rfl | ⟨rest, final, rfl⟩
    · obtain ⟨rfl, same⟩ := List.append_inj' split rfl
      cases same
      exact causal
    · rw [List.concat_eq_append, ← List.cons_append, ← List.append_assoc] at split
      exact ih before atom rest (List.append_inj' split rfl).1

theorem runs_succ (simulation : Simulation) (index : Nat) :
    simulation.runs (index + 1) = simulation.runs index ++ [(simulation.afterRuns index).run.1] := by
  induction index generalizing simulation with
  | zero => rfl
  | succ index ih => exact congrArg (simulation.run.1 :: ·) (ih simulation.run.2)

def stepsOf (outcomes : List Outcome) : List TraceStep :=
  outcomes.flatMap (·.trace)

theorem authoredAtoms_append (steps others : List TraceStep) :
    authoredAtoms (steps ++ others) = authoredAtoms steps ++ authoredAtoms others := by
  simp [authoredAtoms]

theorem authoredAtoms_stepsOf (outcomes : List Outcome) :
    authoredAtoms (stepsOf outcomes) = authoredIn outcomes := by
  induction outcomes with
  | nil => rfl
  | cons outcome rest ih =>
    rw [stepsOf, List.flatMap_cons, authoredAtoms_append, ← stepsOf, ih]
    rfl

/-- All that anyone holds at a point of a run and all that is in transit was authored, in this run or one of
which the steps are given, and authors have woven what they authored. -/
structure Point.Authentic (steps : List TraceStep) (point : Point) : Prop where
  own : ∀ step ∈ steps ++ point.simulation.trace.toList, ∀ number atom,
    step.event = .emit number atom → point.simulation.Wove number atom
  held : ∀ (number : Nat) (participant : Participant),
    point.simulation.participants[number]? = some participant →
      ∀ atom ∈ participant.replica.held,
        atom ∈ authoredAtoms (steps ++ point.simulation.trace.toList)
  carried : ∀ message ∈ point.outbox ++ point.inTransit,
    message.atom ∈ authoredAtoms (steps ++ point.simulation.trace.toList)

namespace Stands

variable {count : Nat} {earlier : List Atom}

theorem signed {first point : Point} (stands : Stands count earlier first)
    (signed : Signed count first.simulation.trace.toList) (reaches : Reaches first point) :
    Signed count point.simulation.trace.toList := by
  induction reaches with
  | refl => exact signed
  | tail before step ih =>
    obtain ⟨_, _, _, enters, _⟩ := (stands.reaches before).step step
    rw [enters.trace]
    exact ih.append enters.signed

theorem authentic {point : Point} {steps : List TraceStep}
    (stands : Stands count (authoredAtoms steps) point)
    (signed : Signed count (steps ++ point.simulation.trace.toList)) : point.Authentic steps := by
  have authored : point.simulation.authored (authoredAtoms steps) =
      authoredAtoms (steps ++ point.simulation.trace.toList) := by
    simp [Simulation.authored, authoredAtoms]
  obtain ⟨sound, proper, _⟩ := stands
  rw [authored] at proper
  constructor
  case own =>
    intro step member number atom emits
    obtain ⟨inside, site⟩ := signed step member number atom emits
    rw [← sound.size] at inside
    have present := Array.getElem?_eq_getElem inside
    refine ⟨_, present, ?_⟩
    apply (sound.participants _ _ present).partakes.own atom _ site
    rw [authored, authoredAtoms, List.mem_filterMap]
    exact ⟨step, member, by rw [emits]⟩
  case held =>
    intro number participant present atom member
    rw [← authored]
    exact (sound.participants _ _ present).partakes.drawn atom member
  case carried =>
    intro message member
    exact (proper message member).authored

end Stands

/-- Between two runs nothing is in flight, and the trace is empty. -/
structure Idle (count : Nat) (steps : List TraceStep) (simulation : Simulation) : Prop where
  sound : Sound count (authoredAtoms steps) simulation
  signed : Signed count steps
  trace : simulation.trace = #[]
  inFlight : simulation.network.inFlight = []

namespace Idle

variable {count : Nat} {steps : List TraceStep} {simulation : Simulation}

theorem stands (idle : Idle count steps simulation) {point : Point}
    (reaches : Reaches (.begin simulation) point) : Stands count (authoredAtoms steps) point :=
  (Stands.begin idle.sound idle.inFlight).reaches reaches

theorem signed_trace (idle : Idle count steps simulation) {point : Point}
    (reaches : Reaches (.begin simulation) point) : Signed count point.simulation.trace.toList := by
  apply (Stands.begin idle.sound idle.inFlight).signed _ reaches
  simp [Point.begin, idle.trace, Signed]

theorem authentic (idle : Idle count steps simulation) {point : Point}
    (reaches : Reaches (.begin simulation) point) : point.Authentic steps :=
  (idle.stands reaches).authentic (idle.signed.append (idle.signed_trace reaches))

theorem run (idle : Idle count steps simulation) (inhabited : 0 < count) :
    Idle count (steps ++ simulation.run.1.trace) simulation.run.2 := by
  have sound := (idle.sound.run inhabited).2
  obtain ⟨last, reaches, ended, closes⟩ := idle.sound.reaches_end
  rw [closes] at sound ⊢
  refine ⟨authoredAtoms_append .. ▸ sound, idle.signed.append (idle.signed_trace reaches), rfl, ?_⟩
  exact (idle.stands reaches).inFlight_of_ended ended

theorem afterRuns (idle : Idle count [] simulation) (inhabited : 0 < count) (index : Nat) :
    Idle count (stepsOf (simulation.runs index)) (simulation.afterRuns index) := by
  induction index with
  | zero => exact idle
  | succ index ih =>
    rw [afterRuns_succ, runs_succ]
    simpa [stepsOf] using ih.run inhabited

end Idle

theorem idle_start {config : Config} (accepted : config.problem? = none) :
    ∃ simulation, start config = .ok simulation ∧ simulation.config = config ∧
      Idle config.replicaCount [] simulation := by
  obtain ⟨simulation, started, same, sound⟩ := sound_start accepted
  refine ⟨simulation, started, same, sound, by simp [Signed], ?_, ?_⟩
  all_goals
    rw [start, accepted] at started
    cases started
    rfl

/-- In every run of a simulation that can be started, and after any number of runs, the atoms were authored in
causal order, and at every point of a run all that anyone holds or that is in transit is one of them. -/
theorem runs_authentic (config : Config) (accepted : config.problem? = none) :
    ∃ simulation, start config = .ok simulation ∧ ∀ index,
      Causal (authoredIn (simulation.runs index)) ∧
      (∀ point, Reaches (.begin (simulation.afterRuns index)) point →
        point.Authentic (stepsOf (simulation.runs index))) ∧
      ∃ last, Reaches (.begin (simulation.afterRuns index)) last ∧ last.Ended ∧
        (simulation.afterRuns index).run = last.simulation.close := by
  obtain ⟨simulation, started, _, idle⟩ := idle_start accepted
  refine ⟨simulation, started, ?_⟩
  intro index
  have idle := idle.afterRuns (replicaCount_pos accepted) index
  refine ⟨?_, fun point reaches => idle.authentic reaches, idle.sound.reaches_end⟩
  have history := idle.sound.history
  rw [Simulation.authored, idle.trace, authoredAtoms_stepsOf] at history
  simpa [authoredAtoms] using history.causal

/-- Two runs of three replicas, over a network that loses half of all messages. -/
theorem runs_authentic_lossy :
    let config : Config :=
      { fault := { dropPercent := 50 }, replica := { pendingLimit := 1 } }
    config.problem? = none ∧ ∃ simulation, start config = .ok simulation ∧
      Causal (authoredIn (simulation.runs 2)) ∧
      (Point.begin (simulation.afterRuns 1)).Authentic (stepsOf (simulation.runs 1)) := by
  intro config
  have accepted : config.problem? = none := by decide
  obtain ⟨simulation, started, authentic⟩ := runs_authentic config accepted
  exact ⟨accepted, simulation, started, (authentic 2).1, (authentic 1).2.1 _ .refl⟩

end CausalWeave.Simulation
