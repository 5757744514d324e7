import CausalWeave.Campaign
import CausalWeave.Proofs.Oracle.Verdict

namespace CausalWeave.Campaign

theorem evaluate_passes {config : Config} (accepted : config.problem? = none) (seed : UInt64) :
    ∃ evaluation, evaluate config seed = .ok evaluation ∧ evaluation.verdict.violations = [] := by
  have simulable : (config.simulation seed).problem? = none := by
    unfold Config.problem? at accepted
    split at accepted
    · exact accepted
    · simp at accepted
  obtain ⟨simulation, started, _, sound⟩ := Simulation.sound_start simulable
  have agrees := (sound.run (Simulation.replicaCount_pos simulable)).1
  refine ⟨_, by rw [evaluate, started], ?_⟩
  exact Oracle.judge_violations agrees _

theorem foldlM_add (config : Config)
    (passes : ∀ seed, ∃ evaluation, evaluate config seed = .ok evaluation ∧
      evaluation.verdict.violations = []) (seeds : List UInt64) (report : Report) :
    ∃ later, seeds.foldlM (fun report seed => (evaluate config seed).map (report.add seed)) report =
        .ok later ∧
      later.seedsRun = report.seedsRun + seeds.length ∧
      later.seedsPassed = report.seedsPassed + seeds.length ∧ later.failures = report.failures := by
  induction seeds generalizing report with
  | nil => exact ⟨report, rfl, rfl, rfl, rfl⟩
  | cons seed rest ih =>
    obtain ⟨evaluation, evaluated, none_wrong⟩ := passes seed
    have passed : evaluation.verdict.passed = true := by simp [Oracle.Verdict.passed, none_wrong]
    obtain ⟨later, folded, run, passing, failures⟩ := ih (report.add seed evaluation)
    refine ⟨later, ?_, ?_, ?_, ?_⟩
    · rw [List.foldlM_cons, evaluated]
      exact folded
    · simp only [run, Report.add, List.length_cons]
      omega
    · simp only [passing, Report.add, passed, List.length_cons]
      simp
      omega
    · simp [failures, Report.add, passed]

/-- A campaign with a configuration that can be run reports that all seeds of its range passed, and
the oracle finds no violation for any seed at all. -/
theorem run_passes (config : Config) (accepted : config.problem? = none) :
    (∃ report, run config = .ok report ∧
      report.seedsRun = config.endSeed.toNat - config.firstSeed.toNat ∧
      report.seedsPassed = config.endSeed.toNat - config.firstSeed.toNat ∧
      report.failures = [] ∧ report.firstFailure? = none) ∧
      ∀ seed, ∃ evaluation, evaluate config seed = .ok evaluation ∧
        evaluation.verdict.violations = [] := by
  have passes := evaluate_passes accepted
  refine ⟨?_, passes⟩
  obtain ⟨report, reported, seedsRun, seedsPassed, failures⟩ :=
    foldlM_add config passes config.seeds {}
  have length : config.seeds.length = config.endSeed.toNat - config.firstSeed.toNat := by
    simp [Config.seeds]
  refine ⟨report, ?_, ?_, ?_, failures, ?_⟩
  · rw [run, accepted]
    exact reported
  · rw [seedsRun, length, Nat.zero_add]
  · rw [seedsPassed, length, Nat.zero_add]
  · rw [Report.firstFailure?, failures]
    rfl

/-- Three seeds on a network that loses every second message and isolates replicas at every chance. -/
theorem run_passes_lossy :
    let config : Config := { firstSeed := 7, endSeed := 10, dropPercent := 50, partitionPercent := 100 }
    config.problem? = none ∧ ∃ report, run config = .ok report ∧ report.seedsRun = 3 ∧
      report.seedsPassed = 3 ∧ report.failures = [] := by
  intro config
  have accepted : config.problem? = none := by decide
  obtain ⟨⟨report, reported, seedsRun, seedsPassed, failures, _⟩, _⟩ := run_passes config accepted
  exact ⟨accepted, report, reported, seedsRun, seedsPassed, failures⟩

end CausalWeave.Campaign
