import StoryMachine.Machine.Run
import StoryMachine.Proofs.Instruction.Encoding
import StoryMachine.Proofs.Machine.Coherence
import StoryMachine.Proofs.Machine.Guise
import StoryMachine.Proofs.Machine.Steady

/-!
# Runs on a budget

Every step that succeeds counts one instruction, so a run with a budget comes to
an end.  `Ends` says how a run ends and how many steps that takes, without any
limit on their number, and a piece of a run that is long enough gives just this
(`Ends.advance`).

A budget is noticed only by the step that finds it used up.  Two runs that differ
in their budgets alone therefore go hand in hand, the second in a `Guise` of the
first, until the smaller budget stops one of them (`Ends.withBudget`).
-/

namespace StoryMachine

/-- The settings with a budget. -/
def Settings.withBudget (settings : Settings) (limit : Nat) : Settings :=
  { settings with maxInstructions := some limit }

namespace Machine

variable {machine after : Machine} {limit : Nat}

/-- The machine with another budget. -/
def withBudget (machine : Machine) (limit : Nat) : Machine :=
  { machine with settings := machine.settings.withBudget limit }

/-- The guise of another budget. -/
def budgetGuise (limit : Nat) : Guise := { settings := fun settings => settings.withBudget limit }

/-- A machine runs on a budget. -/
def OnBudget (limit : Nat) (machine : Machine) : Prop :=
  machine.settings.maxInstructions = some limit

/-! ## Steps on a budget -/

namespace OnBudget

/-- A step that finds the budget used up says so and changes nothing. -/
theorem step_of_spent (budget : OnBudget limit machine) (spent : limit ≤ machine.count) :
    step machine = .error
      { pc := machine.pc, context := "instruction budget", cause := .instructionLimit limit }
      machine := by
  have found : machine.spentBudget? = some limit := by
    rw [spentBudget?, budget]
    simp [spent]
  simp only [step, nextInstruction, found]

theorem unspent (budget : OnBudget limit machine) (unspent : machine.count < limit) :
    machine.spentBudget? = none := by
  rw [spentBudget?, budget]
  simp [unspent]

end OnBudget

/-- Of what the search for an instruction finds, only the budget is a limit. -/
theorem nextInstruction_ne_limit {fault : Fault} (unspent : machine.spentBudget? = none)
    (failed : machine.nextInstruction = .error fault) :
    ∀ limit, fault.cause ≠ .instructionLimit limit := by
  simp only [nextInstruction, unspent] at failed
  intro limit isLimit
  cases decoded : Instruction.decode machine.memory machine.pc with
  | error cause =>
      rw [decoded] at failed
      obtain ⟨place, rfl⟩ := Instruction.decode_failsOnly _ _ _ decoded
      cases failed
      cases isLimit
  | ok instruction =>
      rw [decoded] at failed
      simp only [Instruction.opcode] at failed
      grind

/-- A step that finds the budget not used up does not fail because of it. -/
theorem step_ne_limit {fault : Fault} (unspent : machine.spentBudget? = none)
    (failed : step machine = .error fault after) :
    ∀ limit, fault.cause ≠ .instructionLimit limit := by
  intro limit isLimit
  rcases step_eq_error failed with ⟨none, -⟩ | ⟨instruction, opcode, -, ⟨cause, -⟩ | run⟩
  · exact nextInstruction_ne_limit unspent none limit isLimit
  · rw [cause] at isLimit
    cases isLimit
  · have arises := (execute_blind {} opcode instruction.operands fun _ => ⟨rfl, rfl⟩).fails _ _ _ run
    rw [isLimit] at arises
    exact arises

/-- A step that finds neither budget used up does not depend on which it is. -/
theorem step_withBudget {other : Nat} (budget : OnBudget limit machine)
    (unspent : machine.count < limit) (more : limit ≤ other) :
    step (machine.withBudget other) = mapState (withBudget · other) (step machine) := by
  have budget' : OnBudget other (machine.withBudget other) := rfl
  have unspent' := budget'.unspent (Nat.lt_of_lt_of_le unspent more)
  have next : (machine.withBudget other).nextInstruction = machine.nextInstruction := by
    simp only [nextInstruction, budget.unspent unspent, unspent']
    rfl
  exact step_blind (budgetGuise other) next rfl fun _ _ => ⟨rfl, rfl⟩

theorem OnBudget.step {outcome : Outcome} (budget : OnBudget limit machine)
    (stepped : Machine.step machine = .ok outcome after) :
    OnBudget limit after ∧ machine.count < limit ∧ after.count = machine.count + 1 := by
  obtain ⟨count, settings⟩ := step_tally stepped
  refine ⟨?_, ?_, count⟩
  · rw [OnBudget, settings]
    exact budget
  · refine Nat.lt_of_not_le fun spent => ?_
    rw [budget.step_of_spent spent] at stepped
    cases stepped

/-! ## How runs end -/

/-- The cause of the fault that ended a piece of a run, if one did. -/
def Progress.cause? : Progress → Option Error
  | .faulted fault => some fault.cause
  | _ => none

/-- So many instructions are executed, and none of them ends the story. -/
inductive Executes : Nat → Machine → Machine → Prop where
  | none (machine : Machine) : Executes 0 machine machine
  | next {count : Nat} {machine middle after : Machine} {outcome : Outcome} :
      step machine = .ok outcome middle → outcome ≠ .halted → Executes count middle after →
      Executes (count + 1) machine after

/-- A run ends after some number of steps. -/
inductive Ends : Nat → Machine → Progress → Machine → Prop where
  | finished {machine : Machine} :
      machine.status = .halted → Ends 0 machine .finished machine.finished
  | faulted {machine after : Machine} {fault : Fault} :
      machine.status = .running → step machine = .error fault after →
      Ends 1 machine (.faulted fault) (after.ended fault)
  | next {steps : Nat} {machine middle final : Machine} {outcome : Outcome} {progress : Progress} :
      machine.status = .running → step machine = .ok outcome middle →
      Ends steps middle progress final → Ends (steps + 1) machine progress final

namespace Ends

variable {steps : Nat} {progress : Progress} {final : Machine}

/-- A piece of a run that is long enough is the whole run. -/
theorem advance (ends : Ends steps machine progress final) :
    ∀ {limit : Nat}, steps ≤ limit → Machine.advance limit machine = (progress, final) := by
  induction ends with
  | finished halted =>
      intro limit _
      rw [Machine.advance.eq_def]
      simp [isRunning, halted]
  | faulted running failed =>
      intro limit enough
      obtain ⟨limit, rfl⟩ := Nat.exists_eq_add_of_le' enough
      rw [Machine.advance]
      simp [isRunning, running, failed]
  | next running stepped _ ih =>
      intro limit enough
      obtain ⟨limit, rfl⟩ := Nat.exists_eq_add_of_le' (Nat.le_trans (Nat.le_add_left 1 _) enough)
      rw [Machine.advance]
      simp only [isRunning, running, stepped, decide_true, if_true]
      exact ih (by omega)

theorem ne_paused (ends : Ends steps machine progress final) : progress ≠ .paused := by
  induction ends with
  | finished => exact Progress.noConfusion
  | faulted => exact Progress.noConfusion
  | next _ _ _ ih => exact ih

theorem halted (ends : Ends steps machine progress final) : final.status = .halted := by
  induction ends with
  | finished halted => exact halted
  | faulted => rfl
  | next _ _ _ ih => exact ih

theorem eq_finished (ends : Ends steps machine progress final)
    (halted : machine.status = .halted) : progress = .finished := by
  cases ends with
  | finished => rfl
  | faulted running =>
      rw [running] at halted
      cases halted
  | next running =>
      rw [running] at halted
      cases halted

/-- A run on a budget never counts more than it, and just as much if the budget
ends it. -/
theorem count_le (ends : Ends steps machine progress final) :
    OnBudget limit machine → machine.count ≤ limit →
      final.count ≤ limit ∧
        (progress.cause? = some (.instructionLimit limit) → final.count = limit) := by
  induction ends with
  | finished => exact fun _ within => ⟨within, fun no => nomatch no⟩
  | @faulted machine after fault _ failed =>
      intro budget within
      show after.count ≤ limit ∧ (some fault.cause = _ → after.count = limit)
      rcases Nat.lt_or_ge machine.count limit with unspent | spent
      · have other := step_ne_limit (budget.unspent unspent) failed limit
        exact ⟨Nat.le_trans (step_failed failed).1 unspent,
          fun isLimit => absurd (Option.some.inj isLimit) other⟩
      · rw [budget.step_of_spent spent] at failed
        cases failed
        exact ⟨within, fun _ => Nat.le_antisymm within spent⟩
  | next _ stepped _ ih =>
      intro budget within
      obtain ⟨budget, unspent, count⟩ := budget.step stepped
      exact ih budget (count ▸ unspent)

/-- The budget ends a run exactly when as many instructions as it allows are
executed and none of them ends the story. -/
theorem limit_iff (ends : Ends steps machine progress final) :
    ∀ {rest : Nat}, OnBudget limit machine → machine.status = .running →
      machine.count + rest = limit →
      (progress.cause? = some (.instructionLimit limit) ↔ ∃ last, Executes rest machine last) := by
  induction ends with
  | finished halted =>
      intro rest _ running
      rw [running] at halted
      cases halted
  | @faulted machine after fault _ failed =>
      intro rest budget _ total
      cases rest with
      | zero =>
          rw [budget.step_of_spent (Nat.le_of_eq total.symm)] at failed
          cases failed
          exact ⟨fun _ => ⟨machine, .none machine⟩, fun _ => rfl⟩
      | succ rest =>
          have unspent : machine.count < limit := by omega
          constructor
          · intro isLimit
            exact absurd (Option.some.inj isLimit)
              (step_ne_limit (budget.unspent unspent) failed limit)
          · rintro ⟨last, executes⟩
            cases executes with
            | next stepped => rw [failed] at stepped; cases stepped
  | @next _ machine middle final outcome progress _ stepped ends ih =>
      intro rest budget running total
      obtain ⟨onBudget, unspent, count⟩ := budget.step stepped
      obtain ⟨rest, rfl⟩ : ∃ less, rest = less + 1 := Nat.exists_eq_add_of_le' (by omega)
      by_cases halts : outcome = .halted
      · -- Neither side holds: the run is over, and the first step was the last.
        constructor
        · intro isLimit
          have halted : middle.status = .halted := (step_status stepped).trans (if_pos halts)
          rw [ends.eq_finished halted] at isLimit
          cases isLimit
        · rintro ⟨last, executes⟩
          cases executes with
          | next again goes =>
              rw [stepped] at again
              cases again
              exact absurd halts goes
      · have status : middle.status = .running :=
          ((step_status stepped).trans (if_neg halts)).trans running
        have total : middle.count + rest = limit := by omega
        rw [ih onBudget status total]
        constructor
        · rintro ⟨last, executes⟩
          exact ⟨last, .next stepped halts executes⟩
        · rintro ⟨last, executes⟩
          cases executes with
          | next again _ executes =>
              rw [stepped] at again
              cases again
              exact ⟨last, executes⟩

/-- A run that its budget does not end takes the same course on a larger one. -/
theorem withBudget {other : Nat} (more : limit ≤ other) (ends : Ends steps machine progress final) :
    OnBudget limit machine → progress.cause? ≠ some (.instructionLimit limit) →
      Ends steps (machine.withBudget other) progress (final.withBudget other) := by
  induction ends with
  | finished halted => exact fun _ _ => .finished halted
  | @faulted machine after fault running failed =>
      intro budget notLimit
      have unspent : machine.count < limit := by
        refine Nat.lt_of_not_le fun spent => notLimit ?_
        rw [budget.step_of_spent spent] at failed
        cases failed
        rfl
      have failed' : step (machine.withBudget other) = .error fault (after.withBudget other) := by
        rw [step_withBudget budget unspent more, failed]
        rfl
      have running' : (machine.withBudget other).status = .running := running
      exact .faulted running' failed'
  | @next _ machine middle _ outcome _ running stepped _ ih =>
      intro budget notLimit
      obtain ⟨onBudget, unspent, -⟩ := budget.step stepped
      have stepped' :
          step (machine.withBudget other) = .ok outcome (middle.withBudget other) := by
        rw [step_withBudget budget unspent more, stepped]
        rfl
      exact .next running stepped' (ih onBudget notLimit)

end Ends

/-- A run on a budget ends, one step after the budget is used up at the latest. -/
theorem OnBudget.exists_ends : ∀ {rest : Nat} {machine : Machine}, OnBudget limit machine →
    machine.count + rest = limit →
      ∃ steps progress final, steps ≤ rest + 1 ∧ Ends steps machine progress final := by
  intro rest
  -- Each step that succeeds takes one from what is left of the budget.
  induction rest with
  | zero =>
      intro machine budget total
      have failed := budget.step_of_spent (Nat.le_of_eq total.symm)
      cases status : machine.status with
      | halted => exact ⟨0, _, _, Nat.zero_le _, .finished status⟩
      | running => exact ⟨1, _, _, Nat.le_refl _, .faulted status failed⟩
  | succ rest ih =>
      intro machine budget total
      cases status : machine.status with
      | halted => exact ⟨0, _, _, Nat.zero_le _, .finished status⟩
      | running =>
          cases stepped : Machine.step machine with
          | error fault after => exact ⟨1, _, _, Nat.le_add_left 1 _, .faulted status stepped⟩
          | ok outcome middle =>
              obtain ⟨onBudget, -, count⟩ := budget.step stepped
              obtain ⟨steps, progress, final, few, ends⟩ := ih onBudget (by omega)
              exact ⟨steps + 1, progress, final, Nat.succ_le_succ few, .next status stepped ends⟩

/-! ## Loaded stories -/

/-- A story is loaded in the same way on every budget, and is ready to run. -/
theorem load_withBudget {image : Array UInt8} {settings : Settings} {entropy : Entropy}
    {loaded : Machine}
    (isLoaded : load image (settings.withBudget limit) entropy = .ok loaded) :
    loaded.settings = settings.withBudget limit ∧ loaded.status = .running ∧ loaded.count = 0 ∧
      ∀ other, load image (settings.withBudget other) entropy = .ok (loaded.withBudget other) := by
  obtain ⟨header, abbreviations, dictionary, objects, globals, read, supported,
    loadAbbreviations, loadDictionary, loadObjects, loadGlobals, rfl⟩ := load_eq_ok.1 isLoaded
  refine ⟨rfl, rfl, rfl, fun other => load_eq_ok.2 ?_⟩
  exact ⟨header, abbreviations, dictionary, objects, globals, read, supported, loadAbbreviations,
    loadDictionary, loadObjects, loadGlobals, rfl⟩

/-- A run of a loaded story on a budget, whatever its input and output, comes to
an end within one step more than the budget.  The story is then halted, the count
is within the budget, and the budget is the cause exactly when so many instructions
were executed and none of them ended the story.  If it is not, the run ends in
the same way on every larger budget, and leaves the same machine up to the
budget. -/
theorem run_onBudget {image : Array UInt8} {settings : Settings} {entropy : Entropy}
    {loaded : Machine} (isLoaded : load image (settings.withBudget limit) entropy = .ok loaded)
    (input : List InputLine) (output : Output) (log : Log) :
    ∃ progress final,
      (∀ steps, limit < steps →
        run steps { loaded with input, output, log } = (progress, final)) ∧
      progress ≠ .paused ∧ final.status = .halted ∧ final.count ≤ limit ∧
      (progress.cause? = some (.instructionLimit limit) ↔
        ∃ last, Executes limit (started { loaded with input, output, log }) last) ∧
      (progress.cause? = some (.instructionLimit limit) → final.count = limit) ∧
      (progress.cause? ≠ some (.instructionLimit limit) → ∀ other, limit ≤ other →
        load image (settings.withBudget other) entropy = .ok (loaded.withBudget other) ∧
          ∀ steps, other < steps →
            run steps { loaded.withBudget other with input, output, log } =
              (progress, final.withBudget other)) := by
  obtain ⟨chosen, running, count, others⟩ := load_withBudget isLoaded
  have budget : OnBudget limit (started { loaded with input, output, log }) :=
    congrArg Settings.maxInstructions chosen
  have total : (started { loaded with input, output, log }).count + limit = limit := by
    show loaded.count + limit = limit
    rw [count, Nat.zero_add]
  have within : (started { loaded with input, output, log }).count ≤ limit := by omega
  obtain ⟨least, progress, final, few, ends⟩ := budget.exists_ends total
  obtain ⟨most, all⟩ := ends.count_le budget within
  refine ⟨progress, final, ?_, ends.ne_paused, ends.halted, most,
    ends.limit_iff budget running total, all, ?_⟩
  · intro steps enough
    exact ends.advance (by omega)
  · intro notLimit other more
    refine ⟨others other, ?_⟩
    intro steps enough
    exact (ends.withBudget more budget notLimit).advance (by omega)

/-- The sample story runs off the end of its image after one instruction, on a
budget of three and on a budget of a thousand. -/
theorem run_onBudget_sample : ∃ (loaded final : Machine) (progress : Progress),
    load sampleStory (Settings.withBudget {} 3) (.ofSeed 0) = .ok loaded ∧
      run 4 { loaded with input := [], log := {} } = (progress, final) ∧
      progress.cause? = some (.outOfBounds 633 633) ∧
      load sampleStory (Settings.withBudget {} 1000) (.ofSeed 0) =
        .ok (loaded.withBudget 1000) ∧
      run 1001 { loaded.withBudget 1000 with input := [], log := {} } =
        (progress, final.withBudget 1000) := by
  have checked : (match load sampleStory (Settings.withBudget {} 3) (.ofSeed 0) with
      | .error _ => false
      | .ok loaded =>
          decide ((run 4 { loaded with input := [], log := {} }).1.cause? =
            some (.outOfBounds 633 633))) = true := by
    decide +kernel
  cases isLoaded : load sampleStory (Settings.withBudget {} 3) (.ofSeed 0) with
  | error e => simp [isLoaded] at checked
  | ok loaded =>
      rw [isLoaded] at checked
      obtain ⟨progress, final, ends, -, -, -, -, -, agree⟩ :=
        run_onBudget isLoaded [] loaded.output {}
      have first := ends 4 (by decide)
      have cause := of_decide_eq_true checked
      rw [first] at cause
      have notLimit : progress.cause? ≠ some (.instructionLimit 3) := by
        rw [cause]
        decide
      obtain ⟨isLoaded', agree⟩ := agree notLimit 1000 (by decide)
      exact ⟨loaded, final, progress, rfl, first, cause, isLoaded', agree 1001 (by decide)⟩

end Machine

end StoryMachine
