import CausalWeave.CommandLine
import CausalWeave.Proofs.Campaign

namespace CausalWeave

namespace Simulation

theorem FaultModel.outOfRange_eq_nil_iff {fault : FaultModel} : fault.outOfRange = [] ↔
    fault.dropPercent ≤ 100 ∧ fault.duplicatePercent ≤ 100 ∧ fault.reorderPercent ≤ 100 ∧
      fault.partitionPercent ≤ 100 := by
  simp [outOfRange]

theorem Config.problem?_eq_none_iff {config : Config} : config.problem? = none ↔
    0 < config.replicaCount ∧ 0 < config.rounds ∧
      (config.fanout < config.replicaCount ∨ config.replicaCount = 1) ∧
      (config.rootPercent ≤ 100 ∧ config.tombstonePercent ≤ 100) ∧ config.fault.outOfRange = [] := by
  unfold problem?
  split_ifs with absent still wide rates faultless
  case pos => simp [absent]
  case pos => simp [still]
  case pos =>
    simp only [false_iff]
    omega
  case pos =>
    have beyond : ¬ (config.rootPercent ≤ 100 ∧ config.tombstonePercent ≤ 100) := by
      rw [not_and_or]
      simpa using rates
    simp [beyond]
  case pos =>
    have inside : config.rootPercent ≤ 100 ∧ config.tombstonePercent ≤ 100 := by simpa using rates
    simp only [inside, List.isEmpty_iff.mp faultless, and_self, and_true, true_iff]
    omega
  case neg => simp_all

end Simulation

namespace Campaign

theorem Config.mem_seeds {config : Config} {seed : UInt64} :
    seed ∈ config.seeds ↔ config.firstSeed ≤ seed ∧ seed < config.endSeed := by
  have bounded := config.endSeed.toNat_lt
  have reached : ∀ offset < config.endSeed.toNat - config.firstSeed.toNat,
      (config.firstSeed + offset.toUInt64).toNat = config.firstSeed.toNat + offset := by
    intro offset below
    have small : offset < UInt64.size := by
      simp only [UInt64.size]
      omega
    have fits : offset.toUInt64.toNat = offset := UInt64.toNat_ofNat_of_lt' small
    rw [UInt64.toNat_add, fits, Nat.mod_eq_of_lt (by omega)]
  simp only [seeds, List.mem_map, List.mem_range, UInt64.le_iff_toNat_le, UInt64.lt_iff_toNat_lt]
  constructor
  · rintro ⟨offset, below, rfl⟩
    rw [reached offset below]
    omega
  · rintro ⟨from_first, before_end⟩
    have below : seed.toNat - config.firstSeed.toNat <
        config.endSeed.toNat - config.firstSeed.toNat := by omega
    refine ⟨_, below, UInt64.toNat_inj.mp ?_⟩
    rw [reached _ below]
    omega

end Campaign

namespace CommandLine

/-- The last word, at which no range of seeds begins. -/
def lastSeed : UInt64 := 18446744073709551615

/-- Parameters with which the command can simulate a seed. -/
def Playable (parameters : Campaign.Config) : Prop :=
  0 < parameters.replicaCount ∧ 0 < parameters.rounds ∧
    (parameters.fanout < parameters.replicaCount ∨ parameters.replicaCount = 1) ∧
    parameters.dropPercent ≤ 100 ∧ parameters.duplicatePercent ≤ 100 ∧
    parameters.reorderPercent ≤ 100 ∧ parameters.partitionPercent ≤ 100

instance (parameters : Campaign.Config) : Decidable (Playable parameters) :=
  inferInstanceAs (Decidable (_ ∧ _))

section Range

variable {parameters : Campaign.Config} {first count : UInt64}

theorem toNat_endSeed : (seedRange parameters first count).endSeed.toNat =
    min (first.toNat + count.toNat) (UInt64.size - 1) := by
  have fits : min (first.toNat + count.toNat) (UInt64.size - 1) < UInt64.size := by
    have positive : 0 < UInt64.size := by decide
    omega
  exact UInt64.toNat_ofNat_of_lt' fits

theorem ne_lastSeed_iff {seed : UInt64} : seed ≠ lastSeed ↔ seed.toNat < UInt64.size - 1 := by
  have fits := seed.toNat_lt
  rw [ne_eq, ← UInt64.toNat_inj]
  change ¬ seed.toNat = UInt64.size - 1 ↔ _
  simp only [UInt64.size] at fits ⊢
  omega

/-- A range has no seed in it if none is asked for, or if the first would be the last word. -/
theorem firstSeed_lt_endSeed_iff (parameters : Campaign.Config) :
    (seedRange parameters first count).firstSeed < (seedRange parameters first count).endSeed ↔
      0 < count ∧ first ≠ lastSeed := by
  rw [UInt64.lt_iff_toNat_lt, toNat_endSeed, ne_lastSeed_iff, UInt64.lt_iff_toNat_lt]
  change first.toNat < _ ↔ 0 < count.toNat ∧ _
  omega

/-- The seeds of a run are those that were asked for, except the last word. -/
theorem mem_seeds_seedRange {seed : UInt64} : seed ∈ (seedRange parameters first count).seeds ↔
    first ≤ seed ∧ seed.toNat < first.toNat + count.toNat ∧ seed ≠ lastSeed := by
  rw [Campaign.Config.mem_seeds, UInt64.lt_iff_toNat_lt, toNat_endSeed, ne_lastSeed_iff, lt_min_iff]
  rfl

/-- A range with a seed in it that is not the last word does not begin with that either. -/
theorem range_of_seed {seed : UInt64} (from_first : first ≤ seed)
    (before_end : seed.toNat < first.toNat + count.toNat) (inner : seed ≠ lastSeed) :
    0 < count ∧ first ≠ lastSeed := by
  rw [ne_lastSeed_iff] at inner ⊢
  rw [UInt64.le_iff_toNat_le] at from_first
  rw [UInt64.lt_iff_toNat_lt]
  change 0 < count.toNat ∧ _
  omega

theorem problem?_seedRange (rates : parameters.rootPercent ≤ 100 ∧ parameters.tombstonePercent ≤ 100) :
    (seedRange parameters first count).problem? = none ↔
      Playable parameters ∧ 0 < count ∧ first ≠ lastSeed := by
  have playable : ((seedRange parameters first count).simulation first).problem? = none ↔
      Playable parameters := by
    rw [Simulation.Config.problem?_eq_none_iff, Simulation.FaultModel.outOfRange_eq_nil_iff]
    change _ ∧ _ ∧ _ ∧ (parameters.rootPercent ≤ 100 ∧ parameters.tombstonePercent ≤ 100) ∧ _ ↔ _
    rw [and_iff_right rates]
    rfl
  unfold Campaign.Config.problem?
  rw [← firstSeed_lt_endSeed_iff parameters, ← playable]
  split
  · rename_i some
    simp only [some, and_true]
    rfl
  · rename_i none
    simp [none]

end Range

theorem exitCode_run (json : Bool) (config : Campaign.Config) :
    (execute { json, command := .run config }).exitCode = if config.problem? = none then 0 else 1 := by
  cases accepted : config.problem? with
  | some problem => simp [execute, Campaign.run, accepted, failed]
  | none =>
    obtain ⟨report, folded, _, _, failures⟩ :=
      Campaign.foldlM_add config (Campaign.evaluate_passes accepted) config.seeds {}
    have reported : Campaign.run config = .ok report := by
      rw [Campaign.run, accepted]
      exact folded
    simp [execute, reported, judged, Campaign.Report.allPassed, failures]

/-- A replay does so too, whatever the seed. -/
theorem exitCode_replay (json : Bool) (seed : UInt64) (trace : Bool) (config : Campaign.Config) :
    (execute { json, command := .replay seed trace config }).exitCode =
      if config.problem? = none then 0 else 1 := by
  cases accepted : config.problem? with
  | some problem => simp [execute, Campaign.replay, accepted, failed]
  | none =>
    obtain ⟨evaluation, evaluated, none_wrong⟩ := Campaign.evaluate_passes accepted seed
    have replayed : Campaign.replay config seed = .ok evaluation := by
      rw [Campaign.replay, accepted]
      exact evaluated
    simp [execute, replayed, judged, Oracle.Verdict.passed, none_wrong]

/-- What the arguments of a subcommand ask for: the parameters, the first seed and the number of
seeds, which are one seed for a replay. -/
inductive Asks : String → List String → Campaign.Config → UInt64 → UInt64 → Command → Prop where
  | run {rest : List String} {sorted : Arguments} {parameters : Campaign.Config} {first count : UInt64}
      (sorts : Arguments.sort? runGrammar rest = some sorted) (once : sorted.isUnrepeated = true)
      (start : sorted.valueOf word? "--start" 0 = some first)
      (seeds : sorted.valueOf word? "--seeds" 100 = some count)
      (shared : sorted.parameters? = some parameters) (bare : sorted.operands = []) :
      Asks "run" rest parameters first count (.run (seedRange parameters first count))
  | replay {rest : List String} {sorted : Arguments} {parameters : Campaign.Config} {operand : String}
      {seed : UInt64} (sorts : Arguments.sort? replayGrammar rest = some sorted)
      (once : sorted.isUnrepeated = true) (alone : sorted.operands = [operand])
      (word : word? operand = some seed) (shared : sorted.parameters? = some parameters) :
      Asks "replay" rest parameters seed 1
        (.replay seed (sorted.flags.contains "--trace") (seedRange parameters seed 1))

theorem asks_of_run? {sorted : Arguments} (sorts : Arguments.sort? runGrammar rest = some sorted)
    (once : sorted.isUnrepeated = true) (read : run? sorted = some command) :
    ∃ parameters first count, Asks "run" rest parameters first count command := by
  simp only [run?, Option.bind_eq_bind, Option.bind_eq_some_iff] at read
  obtain ⟨first, start, count, seeds, parameters, shared, read⟩ := read
  split at read
  · rename_i bare
    cases read
    exact ⟨parameters, first, count,
      .run sorts once start seeds shared (List.isEmpty_iff.mp bare)⟩
  · cases read

theorem asks_of_replay? {sorted : Arguments}
    (sorts : Arguments.sort? replayGrammar rest = some sorted)
    (once : sorted.isUnrepeated = true) (read : replay? sorted = some command) :
    ∃ parameters first count, Asks "replay" rest parameters first count command := by
  unfold replay? at read
  split at read
  · rename_i operand alone
    simp only [Option.bind_eq_bind, Option.bind_eq_some_iff] at read
    obtain ⟨seed, word, parameters, shared, read⟩ := read
    cases read
    exact ⟨parameters, seed, 1, .replay sorts once alone word shared⟩
  · cases read

private theorem sorted_of_understood {grammar : Grammar} {command? : Arguments → Option Command}
    {rest : List String} {invocation : Invocation}
    (understood : ((Arguments.sort? grammar rest).bind fun sorted =>
      if sorted.isUnrepeated = true then
        (command? sorted).bind fun command =>
          some { json := sorted.flags.contains "--json", command }
      else none) = some invocation) :
    ∃ sorted, Arguments.sort? grammar rest = some sorted ∧ sorted.isUnrepeated = true ∧
      command? sorted = some invocation.command := by
  obtain ⟨sorted, sorts, checked⟩ := Option.bind_eq_some_iff.mp understood
  split at checked
  · rename_i once
    obtain ⟨command, read, same⟩ := Option.bind_eq_some_iff.mp checked
    cases same
    exact ⟨sorted, sorts, once, read⟩
  · cases checked

theorem asks_of_subcommand? {name : String} {rest : List String} {invocation : Invocation}
    (understood : subcommand? name rest = some invocation) :
    ∃ parameters first count, Asks name rest parameters first count invocation.command := by
  unfold subcommand? at understood
  split at understood
  · rename_i run
    obtain ⟨sorted, sorts, once, read⟩ := sorted_of_understood understood
    exact run ▸ asks_of_run? sorts once read
  · split at understood
    · rename_i replay
      obtain ⟨sorted, sorts, once, read⟩ := sorted_of_understood understood
      exact replay ▸ asks_of_replay? sorts once read
    · cases understood

theorem subcommand?_of_asks {name : String} {rest : List String}
    (asks : Asks name rest parameters first count command) :
    ∃ json, subcommand? name rest = some { json, command } := by
  cases asks with
  | run sorts once start seeds shared bare =>
    simp [subcommand?, run?, sorts, once, start, seeds, shared, bare]
  | replay sorts once alone word shared =>
    simp [subcommand?, replay?, sorts, once, alone, word, shared]

theorem Arguments.rates_of_parameters? {sorted : Arguments} {parameters : Campaign.Config}
    (read : sorted.parameters? = some parameters) :
    parameters.rootPercent ≤ 100 ∧ parameters.tombstonePercent ≤ 100 := by
  simp only [parameters?, Option.bind_eq_bind, Option.bind_eq_some_iff] at read
  obtain ⟨_, _, _, _, _, _, _, _, _, _, _, _, _, _, _, _, _, _, same⟩ := read
  cases same
  exact ⟨(by decide : (5 : UInt8) ≤ 100), (by decide : (10 : UInt8) ≤ 100)⟩

theorem Asks.rates {name : String} {rest : List String}
    (asks : Asks name rest parameters first count command) :
    parameters.rootPercent ≤ 100 ∧ parameters.tombstonePercent ≤ 100 := by
  cases asks with
  | run _ _ _ _ shared _ => exact Arguments.rates_of_parameters? shared
  | replay _ _ _ _ shared => exact Arguments.rates_of_parameters? shared

theorem Asks.exitCode {name : String} {rest : List String}
    (asks : Asks name rest parameters first count command) (json : Bool) :
    (execute { json, command }).exitCode =
      if Playable parameters ∧ 0 < count ∧ first ≠ lastSeed then 0 else 1 := by
  have rates := asks.rates
  cases asks with
  | run => simp only [exitCode_run, problem?_seedRange rates]
  | replay => simp only [exitCode_replay, problem?_seedRange rates]

theorem exists_asks_of_parse? {arguments : List String} {invocation : Invocation}
    (understood : parse? arguments = some invocation) :
    ∃ name rest parameters first count,
      (arguments = name :: rest ∨ arguments = "--json" :: name :: rest) ∧
      Asks name rest parameters first count invocation.command := by
  unfold parse? at understood
  split at understood
  · rename_i name rest
    obtain ⟨inner, read, rfl⟩ := Option.map_eq_some_iff.mp understood
    obtain ⟨parameters, first, count, asks⟩ := asks_of_subcommand? read
    exact ⟨name, rest, parameters, first, count, .inr rfl, asks⟩
  · rename_i name rest _
    obtain ⟨parameters, first, count, asks⟩ := asks_of_subcommand? understood
    exact ⟨name, rest, parameters, first, count, .inl rfl, asks⟩
  · cases understood

section Numerals

theorem natural?_toString {greatest number : Nat} (fits : number ≤ greatest) :
    natural? greatest (toString number) = some number := by
  have digits : ∀ c ∈ Nat.toDigits 10 number, c.isDigit = true :=
    fun c => Nat.isDigit_of_mem_toDigits (by decide) (by decide)
  unfold natural?
  rw [Nat.toString_eq_repr, Nat.toList_repr]
  extract_lets unsigned value
  have same : unsigned = Nat.toDigits 10 number := by
    unfold unsigned
    split
    · rename_i written
      exact absurd (digits '+' (by simp [written])) (by decide)
    · rfl
  have total : value = number := by
    unfold value
    rw [same]
    exact Nat.ofDigitChars_ten_toDigits
  simpa [same, total, fits, Nat.toDigits_ne_nil] using digits

/-- A seed is read from its own decimal digits. -/
theorem word?_toString (seed : UInt64) : word? (toString seed.toNat) = some seed := by
  have fits : seed.toNat ≤ UInt64.size - 1 := Nat.le_pred_of_lt seed.toNat_lt
  rw [word?, natural?_toString fits, Option.map_some]
  exact congrArg some UInt64.ofNat_toNat

theorem startsWith_toString (number : Nat) : (toString number).startsWith "-" = false := by
  rw [String.startsWith_string_eq_false_iff, Nat.toString_eq_repr, Nat.toList_repr]
  rintro ⟨rest, written⟩
  have dash : '-' ∈ Nat.toDigits 10 number := by simp [← written]
  exact absurd (Nat.isDigit_of_mem_toDigits (by decide) (by decide) dash) (by decide)

end Numerals

namespace Arguments

variable {grammar : Grammar} {name value : String}

theorem sort?_operand (plain : value.startsWith "-" = false)
    (flags : grammar.flags.contains value = false) (rest : List String) :
    sort? grammar (value :: rest) = (sort? grammar rest).map (·.addOperand value) := by
  have apart : value ≠ "--" := by
    rintro rfl
    simp at plain
  conv_lhs => unfold sort?
  simp only [apart, flags, plain, if_false, Bool.false_eq_true]

theorem sort?_option (apart : name ≠ "--") (dash : name.startsWith "-" = true)
    (flags : grammar.flags.contains name = false) (bare : splitValue name = (name, none))
    (known : grammar.options.contains name = true) (plain : value.startsWith "-" = false)
    (rest : List String) :
    sort? grammar (name :: value :: rest) = (sort? grammar rest).map (·.addOption name value) := by
  conv_lhs => unfold sort?
  simp only [apart, flags, dash, bare, if_false, Bool.false_eq_true, if_true, known, plain,
    Bool.not_false, Bool.and_true]

end Arguments

theorem asks_replay (seed : UInt64) :
    Asks "replay" [toString seed.toNat] {} seed 1 (.replay seed false (seedRange {} seed 1)) := by
  have plain := startsWith_toString seed.toNat
  have flags : replayGrammar.flags.contains (toString seed.toNat) = false := by
    simp only [replayGrammar, List.contains_eq_mem, decide_eq_false_iff_not, List.mem_cons,
      List.not_mem_nil, or_false]
    rintro (same | same) <;> simp [same] at plain
  have sorts : Arguments.sort? replayGrammar [toString seed.toNat] =
      some { operands := [toString seed.toNat] } := by
    rw [Arguments.sort?_operand plain flags]
    rfl
  exact .replay sorts rfl rfl (word?_toString seed) rfl

theorem asks_run (seed : UInt64) :
    Asks "run" ["--start", toString seed.toNat, "--seeds", "1"] {} seed 1
      (.run (seedRange {} seed 1)) := by
  have plain := startsWith_toString seed.toNat
  have sorts : Arguments.sort? runGrammar ["--start", toString seed.toNat, "--seeds", "1"] =
      some { options := [("--start", toString seed.toNat), ("--seeds", "1")] } := by
    rw [Arguments.sort?_option (by decide) (by simp) (by decide) (by decide) (by decide) plain,
      Arguments.sort?_option (by decide) (by simp) (by decide) (by decide) (by decide) (by simp)]
    rfl
  exact .run sorts rfl (word?_toString seed) rfl rfl rfl

theorem parse?_of_asks {name : String} {rest : List String}
    (asks : Asks name rest parameters first count command) :
    ∃ json, parse? (name :: rest) = some { json, command } := by
  obtain ⟨json, read⟩ := subcommand?_of_asks asks
  exact ⟨json, by cases asks <;> simpa [parse?] using read⟩

theorem Asks.exitCode_result {name : String} {rest : List String}
    (asks : Asks name rest parameters first count command)
    (understood : parse? arguments = some { json, command }) :
    (result arguments).exitCode =
      if Playable parameters ∧ 0 < count ∧ first ≠ lastSeed then 0 else 1 := by
  rw [result, understood]
  exact asks.exitCode json

/-- A seed that is replayed alone is judged as in a run of several. -/
theorem replay_eq_evaluate {parameters : Campaign.Config}
    (rates : parameters.rootPercent ≤ 100 ∧ parameters.tombstonePercent ≤ 100)
    (playable : Playable parameters) {seed : UInt64} (inner : seed ≠ lastSeed) (first count : UInt64) :
    Campaign.replay (seedRange parameters seed 1) seed =
      Campaign.evaluate (seedRange parameters first count) seed := by
  have accepted : (seedRange parameters seed 1).problem? = none :=
    (problem?_seedRange rates).mpr ⟨playable, by decide, inner⟩
  rw [Campaign.replay, accepted]
  rfl

/-- A line that is understood asks for some seeds, and its exit code tells whether the parameters can be
run and the first seed is not the last word. All other seeds asked for are run, and a replay of one of
them comes to the same as the run. With these parameters every seed but one can be run and replayed. -/
theorem exit_codes {arguments : List String} {invocation : Invocation}
    (understood : parse? arguments = some invocation) :
    (∃ name rest parameters first count,
      (arguments = name :: rest ∨ arguments = "--json" :: name :: rest) ∧
        Asks name rest parameters first count invocation.command) ∧
      ∀ name rest parameters first count, Asks name rest parameters first count invocation.command →
        (result arguments).exitCode =
          (if Playable parameters ∧ 0 < count ∧ first ≠ lastSeed then 0 else 1) ∧
        ∀ seed, seed ≠ lastSeed →
          (Playable parameters → ∀ json trace,
            (execute { json, command := .run (seedRange parameters seed 1) }).exitCode = 0 ∧
            (execute { json, command := .replay seed trace (seedRange parameters seed 1) }).exitCode =
              0) ∧
          (first ≤ seed → seed.toNat < first.toNat + count.toNat →
            seed ∈ (seedRange parameters first count).seeds ∧
            (Playable parameters → Campaign.replay (seedRange parameters seed 1) seed =
              Campaign.evaluate (seedRange parameters first count) seed) ∧
            ∀ line again rest', parse? line = some again →
              Asks "replay" rest' parameters seed 1 again.command →
                (result line).exitCode = (result arguments).exitCode) := by
  refine ⟨exists_asks_of_parse? understood, ?_⟩
  intro name rest parameters first count asks
  have code := asks.exitCode_result understood
  have one : (0 : UInt64) < 1 := by decide
  refine ⟨code, fun seed inner => ⟨?alone, ?ranged⟩⟩
  case alone =>
    intro playable json trace
    have accepted := (problem?_seedRange asks.rates).mpr ⟨playable, one, inner⟩
    exact ⟨by rw [exitCode_run, if_pos accepted], by rw [exitCode_replay, if_pos accepted]⟩
  case ranged =>
    intro from_first before_end
    refine ⟨mem_seeds_seedRange.mpr ⟨from_first, before_end, inner⟩, fun playable => ?_, ?_⟩
    · exact replay_eq_evaluate asks.rates playable inner first count
    · intro line again rest' understood' asks'
      have begins := range_of_seed from_first before_end inner
      rw [code, asks'.exitCode_result understood']
      simp only [begins, inner, one, ne_eq, not_false_eq_true, and_self]

/-- The seed before the last word can be run. -/
theorem exit_codes_before_last :
    let line := ["run", "--start", "18446744073709551614", "--seeds", "1"]
    (∃ json, parse? line = some { json, command := .run (seedRange {} (lastSeed - 1) 1) }) ∧
      (result line).exitCode = 0 := by
  intro line
  have written : toString (lastSeed - 1).toNat = "18446744073709551614" := by decide
  obtain ⟨json, understood⟩ := parse?_of_asks (asks_run (lastSeed - 1))
  rw [written] at understood
  have code := ((exit_codes understood).2 _ _ _ _ _ (asks_run (lastSeed - 1))).1
  exact ⟨⟨json, understood⟩, code.trans (if_pos (by decide))⟩

/-- The last word can be simulated with the standard parameters and passes, but neither a replay nor a
run of that seed begins. -/
theorem last_seed_refused :
    Playable {} ∧ lastSeed.toNat = 18446744073709551615 ∧
      (∃ evaluation, Campaign.evaluate {} lastSeed = .ok evaluation ∧
        evaluation.verdict.violations = []) ∧
      result ["replay", "18446744073709551615"] = failed .noSeeds ∧
      result ["run", "--start", "18446744073709551615", "--seeds", "1"] = failed .noSeeds := by
  have written : toString lastSeed.toNat = "18446744073709551615" := by decide
  have problem : (seedRange {} lastSeed 1).problem? = some .noSeeds := by decide
  obtain ⟨_, replay⟩ := parse?_of_asks (asks_replay lastSeed)
  obtain ⟨_, run⟩ := parse?_of_asks (asks_run lastSeed)
  rw [written] at replay run
  refine ⟨by decide, rfl, Campaign.evaluate_passes (by decide) lastSeed, ?_, ?_⟩
  · simp only [result, replay, execute, Campaign.replay, problem]
  · simp only [result, run, execute, Campaign.run, problem]

end CommandLine
end CausalWeave
