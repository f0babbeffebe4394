import Mathlib.Logic.Relation
import StoryMachine.Proofs.Machine.Grammar

/-!
# What a step does

A step notes and counts the instruction, moves past its operands and executes
its operation (`step_eq_ok`).  What is left of the actions that leave the
running frame or move it elsewhere is said here, so that with the grammar of
operations every step is accounted for.

A property of the machine that looks at neither the frames, the count, the
status nor the log is kept by every step as soon as every local action keeps it
(`Kept.steps`), and so by every run (`Kept.runs`).
-/

namespace StoryMachine.Machine

variable {machine after : Machine}

/-! ## Moving in the running frame -/

theorem fetchByte_eq_ok {byte : UInt8} :
    fetchByte machine = .ok byte after ↔
      ∃ running below, machine.calls = running :: below ∧
        machine.memory.getByte running.pc = .ok byte ∧
        after = { machine with calls := { running with pc := running.pc + 1 } :: below } := by
  simp only [fetchByte, bind_eq_ok, frame_eq_ok, ask_eq_ok, setPc_eq_ok, pure_eq_ok]
  constructor
  · rintro ⟨running, _, ⟨⟨below, calls⟩, rfl⟩, _, _, ⟨read, rfl⟩, _, _,
      ⟨running', below', calls', rfl⟩, rfl, rfl⟩
    rw [calls] at calls'
    cases calls'
    exact ⟨running, below, calls, read, rfl⟩
  · rintro ⟨running, below, calls, read, rfl⟩
    exact ⟨running, machine, ⟨⟨below, calls⟩, rfl⟩, byte, machine, ⟨read, rfl⟩, (), _,
      ⟨running, below, calls, rfl⟩, rfl, rfl⟩

theorem printInline_eq_ok {u : Unit} (run : printInline machine = .ok u after) :
    ∃ running below text stop log, machine.calls = running :: below ∧
      Packed.decodeAt machine.memory running.pc machine.abbreviations.get = .ok (text, stop) ∧
      machine.output.reception = .accepted ∧
      after = { machine with
        calls := { running with pc := stop } :: below
        output := machine.output.accept text
        log } := by
  simp only [printInline, textAt] at run
  simp only [bind_eq_ok, frame_eq_ok, narrate_eq_ok, ask_eq_ok, setPc_eq_ok, print_eq_ok] at run
  obtain ⟨running, _, ⟨⟨below, calls⟩, rfl⟩, ⟨text, stop⟩, _, ⟨_, _, rfl, decoded, rfl⟩, _, _,
    ⟨running', below', calls', rfl⟩, accepted, rfl⟩ := run
  have same := calls.symm.trans calls'
  cases same
  exact ⟨running, below, text, stop, _, calls, decoded, accepted, rfl⟩

theorem jumpBy_eq_ok {offset : Int} {u : Unit} (run : jumpBy offset machine = .ok u after) :
    ∃ running below, machine.calls = running :: below ∧ 0 ≤ (running.pc : Int) + offset - 2 ∧
      after = { machine with
        calls := { running with pc := ((running.pc : Int) + offset - 2).toNat } :: below } := by
  simp only [jumpBy, bind_eq_ok, frame_eq_ok] at run
  obtain ⟨running, _, ⟨⟨below, calls⟩, rfl⟩, run⟩ := run
  split at run
  next => simp at run
  next forward =>
    obtain ⟨running', below', calls', rfl⟩ := setPc_eq_ok.1 run
    have same := calls.symm.trans calls'
    cases same
    exact ⟨running, below, calls, Int.not_lt.1 forward, rfl⟩

/-! ## Returns and branches -/

/-- A return leaves the running frame.  It ends the story if that was the last
one, and otherwise it stores the value in the caller. -/
theorem returnValue_eq_ok {value : UInt16} {outcome : Outcome}
    (run : returnValue value machine = .ok outcome after) :
    ∃ log, (machine.calls.tail = [] ∧ outcome = .halted ∧
        after = { machine with calls := [], status := .halted, log }) ∨
      (machine.calls.tail ≠ [] ∧ outcome = .returned value ∧
        storeResult value { machine with calls := machine.calls.tail, log } = .ok () after) := by
  simp only [returnValue, bind_eq_ok, get_eq_ok, popFrame_eq_ok, note_eq_ok] at run
  obtain ⟨_, _, ⟨rfl, rfl⟩, _, _, rfl, _, _, rfl, _, _, ⟨rfl, rfl⟩, run⟩ := run
  split at run
  next empty =>
    simp only [bind_eq_ok, note_eq_ok, halt_eq_ok] at run
    obtain ⟨_, _, rfl, rfl, rfl⟩ := run
    have empty := List.isEmpty_iff.1 empty
    dsimp only at empty ⊢
    exact ⟨_, .inl ⟨empty, rfl, by rw [empty]⟩⟩
  next nonempty =>
    simp only [bind_eq_ok, pure_eq_ok] at run
    obtain ⟨_, _, stored, rfl, rfl⟩ := run
    exact ⟨_, .inr ⟨fun empty => nonempty (List.isEmpty_iff.2 empty), rfl, stored⟩⟩

/-- The value that a branch returns, if it is taken and returns. -/
def Branch.leaving (branch : Branch) (condition : Bool) : Option UInt16 :=
  if condition ≠ branch.onTrue then none
  else if branch.offset = 0 then some 0
  else if branch.offset = 1 then some 1
  else none

/-- A branch is not taken, returns a value, or jumps. -/
theorem branchOn_eq_ok {condition : Bool} {outcome : Outcome}
    (run : branchOn condition machine = .ok outcome after) :
    ∃ branch middle, fetchBranch machine = .ok branch middle ∧
      ((∃ value, branch.leaving condition = some value ∧
          returnValue value middle = .ok outcome after) ∨
        (branch.leaving condition = none ∧ outcome = .continued ∧ after = middle) ∨
        (branch.leaving condition = none ∧ outcome = .branched ∧
          jumpBy branch.offset middle = .ok () after)) := by
  simp only [branchOn, bind_eq_ok] at run
  obtain ⟨branch, middle, fetched, run⟩ := run
  refine ⟨branch, middle, fetched, ?_⟩
  simp only [Branch.leaving]
  split at run
  next untaken =>
    obtain ⟨rfl, rfl⟩ := pure_eq_ok.1 run
    rw [if_pos untaken]
    exact .inr (.inl ⟨rfl, rfl, rfl⟩)
  next taken =>
    rw [if_neg taken]
    split at run
    next zero =>
      rw [if_pos zero]
      exact .inl ⟨0, rfl, run⟩
    next nonzero =>
      rw [if_neg nonzero]
      split at run
      next one =>
        rw [if_pos one]
        exact .inl ⟨1, rfl, run⟩
      next far =>
        rw [if_neg far]
        simp only [bind_eq_ok, pure_eq_ok] at run
        obtain ⟨_, _, jumped, rfl, rfl⟩ := run
        exact .inr (.inr ⟨rfl, rfl, jumped⟩)

/-- An operation that succeeds first does something local.  Then it returns a
value or takes a branch, unless it is straight. -/
theorem execute_eq_ok {opcode : Opcode} {operands : List Operand} {outcome : Outcome}
    (run : opcode.execute operands machine = .ok outcome after) :
    (∃ result value middle, opcode.ending operands = .leave result ∧ Local result ∧
        result machine = .ok value middle ∧ returnValue value middle = .ok outcome after) ∨
      (∃ condition value middle, opcode.ending operands = .branch condition ∧ Local condition ∧
        condition machine = .ok value middle ∧ branchOn value middle = .ok outcome after) ∨
      Straight (opcode.execute operands) := by
  have described := opcode.execute_ending operands
  cases ending : opcode.ending operands with
  | leave result =>
      rw [ending] at described
      rw [described.2] at run
      obtain ⟨value, middle, first, rest⟩ := bind_eq_ok.1 run
      exact .inl ⟨result, value, middle, rfl, described.1, first, rest⟩
  | branch condition =>
      rw [ending] at described
      rw [described.2] at run
      obtain ⟨value, middle, first, rest⟩ := bind_eq_ok.1 run
      exact .inr (.inl ⟨condition, value, middle, rfl, described.1, first, rest⟩)
  | straight =>
      rw [ending] at described
      exact .inr (.inr described)

/-! ## Steps -/

/-- The machine in which the operation of an instruction starts: the instruction
has been noted and counted, and the running frame is past its operands. -/
def begun (machine : Machine) (instruction : Instruction) (opcode : Opcode) : Machine :=
  { machine.counted instruction opcode with
    calls := machine.calls.modifyHead fun running => { running with pc := instruction.next } }

theorem perform_counted {instruction : Instruction} {opcode : Opcode} (calls : machine.calls ≠ []) :
    perform instruction opcode (machine.counted instruction opcode) =
      opcode.execute instruction.operands (machine.begun instruction opcode) := by
  obtain ⟨running, below, calls⟩ := List.exists_cons_of_ne_nil calls
  simp only [perform, setPc, onFrame, frame, setFrame, begun, counted, calls]
  rfl

theorem step_without_frame {instruction : Instruction} {opcode : Opcode}
    (next : machine.nextInstruction = .ok (instruction, opcode)) (empty : machine.calls = []) :
    step machine =
      .error { pc := machine.pc, context := opcode.mnemonic, cause := .stackUnderflow }
        (machine.counted instruction opcode) := by
  have none : (machine.counted instruction opcode).calls.isEmpty := List.isEmpty_iff.2 empty
  simp only [step, next]
  rw [if_pos none]

/-- A step with a frame executes the operation and tells its failure as a fault. -/
theorem step_of_next {instruction : Instruction} {opcode : Opcode}
    (next : machine.nextInstruction = .ok (instruction, opcode)) (calls : machine.calls ≠ []) :
    step machine =
      match opcode.execute instruction.operands (machine.begun instruction opcode) with
      | .ok outcome after => .ok outcome after
      | .error cause after => .error {
          pc := machine.pc
          context := s!"{opcode.mnemonic} ({instruction.render})"
          cause } after := by
  have nonempty : ¬(machine.counted instruction opcode).calls.isEmpty :=
    fun empty => calls (List.isEmpty_iff.1 empty)
  simp only [step, next]
  rewrite [if_neg nonempty, perform_counted calls]
  rfl

/-- A step executes the operation of the next instruction. -/
theorem step_eq_ok {outcome : Outcome} :
    step machine = .ok outcome after ↔
      ∃ instruction opcode, machine.nextInstruction = .ok (instruction, opcode) ∧
        machine.calls ≠ [] ∧
        opcode.execute instruction.operands (machine.begun instruction opcode) =
          .ok outcome after := by
  cases next : machine.nextInstruction with
  | error fault => simp [step, next]
  | ok pair =>
      obtain ⟨instruction, opcode⟩ := pair
      by_cases calls : machine.calls = []
      · simp [step_without_frame next calls, calls]
      · rw [step_of_next next calls]
        constructor
        · intro run
          refine ⟨instruction, opcode, rfl, calls, ?_⟩
          split at run
          next executed =>
            cases run
            exact executed
          next => cases run
        · rintro ⟨_, _, same, -, executed⟩
          cases same
          rw [executed]

/-- A step that fails found no instruction, no frame, or an operation that
fails. -/
theorem step_eq_error {fault : Fault} (failed : step machine = .error fault after) :
    (machine.nextInstruction = .error fault ∧ after = machine) ∨
      ∃ instruction opcode, machine.nextInstruction = .ok (instruction, opcode) ∧
        ((fault.cause = .stackUnderflow ∧ after = machine.counted instruction opcode) ∨
          opcode.execute instruction.operands (machine.begun instruction opcode) =
            .error fault.cause after) := by
  cases next : machine.nextInstruction with
  | error found =>
      simp only [step, next] at failed
      cases failed
      exact .inl ⟨rfl, rfl⟩
  | ok pair =>
      obtain ⟨instruction, opcode⟩ := pair
      refine .inr ⟨instruction, opcode, rfl, ?_⟩
      by_cases calls : machine.calls = []
      · rw [step_without_frame next calls] at failed
        cases failed
        exact .inl ⟨rfl, rfl⟩
      · rw [step_of_next next calls] at failed
        split at failed
        next => cases failed
        next executed =>
          cases failed
          exact .inr executed

/-- One machine becomes another by a step. -/
def Steps (machine after : Machine) : Prop := ∃ outcome, step machine = .ok outcome after

/-- One machine becomes another by some number of steps. -/
def Runs : Machine → Machine → Prop := Relation.ReflTransGen Steps

/-! ## Properties that steps keep -/

/-- A property of machines that looks at neither the frames, the count, the
status nor the log, and is kept by every local action. -/
structure Kept (p : Machine → Prop) : Prop where
  apart : ∀ {machine calls count status log},
    p machine → p { machine with calls, count, status, log }
  isLocal : ∀ {α : Type} {action : Action α} {a : α} {machine after : Machine},
    Local action → action machine = .ok a after → p machine → p after

namespace Kept

variable {p : Machine → Prop} (kept : Kept p)

include kept

theorem jumpBy {offset : Int} {u : Unit} (run : Machine.jumpBy offset machine = .ok u after)
    (holds : p machine) : p after := by
  obtain ⟨running, below, -, -, rfl⟩ := jumpBy_eq_ok run
  exact kept.apart holds

theorem returnValue {value : UInt16} {outcome : Outcome}
    (run : Machine.returnValue value machine = .ok outcome after) (holds : p machine) :
    p after := by
  obtain ⟨log, ⟨-, -, rfl⟩ | ⟨-, -, stored⟩⟩ := returnValue_eq_ok run
  · exact kept.apart holds
  · exact kept.isLocal (storeResult_local value) stored (kept.apart holds)

theorem branchOn {condition : Bool} {outcome : Outcome}
    (run : Machine.branchOn condition machine = .ok outcome after) (holds : p machine) :
    p after := by
  obtain ⟨branch, middle, fetched, ending⟩ := branchOn_eq_ok run
  have holds := kept.isLocal fetchBranch_local fetched holds
  rcases ending with ⟨value, -, returned⟩ | ⟨-, -, rfl⟩ | ⟨-, -, jumped⟩
  · exact kept.returnValue returned holds
  · exact holds
  · exact kept.jumpBy jumped holds

theorem straight {operation : Action Outcome} (isStraight : Straight operation) :
    ∀ {machine after : Machine} {outcome : Outcome},
      operation machine = .ok outcome after → p machine → p after := by
  induction isStraight with
  | bind isLocal _ ih =>
      intro machine after outcome run holds
      obtain ⟨a, middle, first, rest⟩ := bind_eq_ok.1 run
      exact ih a rest (kept.isLocal isLocal first holds)
  | throw e =>
      intro machine after outcome run holds
      exact absurd run throw_ne_ok
  | continued =>
      intro machine after outcome run holds
      cases run
      exact holds
  | jump offset =>
      intro machine after outcome run holds
      simp only [bind_eq_ok, pure_eq_ok] at run
      obtain ⟨_, _, jumped, -, rfl⟩ := run
      exact kept.jumpBy jumped holds
  | halt =>
      intro machine after outcome run holds
      obtain ⟨-, rfl⟩ := halt_eq_ok.1 run
      exact kept.apart holds
  | enter routine arguments level texts =>
      intro machine after outcome run holds
      simp only [bind_eq_ok, ask_eq_ok, narrate_eq_ok, pushFrame_eq_ok, pure_eq_ok] at run
      obtain ⟨entered, _, ⟨-, rfl⟩, _, _, rfl, _, _, rfl, -, rfl⟩ := run
      exact kept.apart (kept.apart holds)

theorem execute {opcode : Opcode} {operands : List Operand} {outcome : Outcome}
    (run : opcode.execute operands machine = .ok outcome after) (holds : p machine) :
    p after := by
  rcases execute_eq_ok run with ⟨_, _, middle, -, isLocal, first, rest⟩ |
    ⟨_, _, middle, -, isLocal, first, rest⟩ | isStraight
  · exact kept.returnValue rest (kept.isLocal isLocal first holds)
  · exact kept.branchOn rest (kept.isLocal isLocal first holds)
  · exact kept.straight isStraight run holds

/-- Every step keeps a property that every local action keeps. -/
theorem steps (step : Steps machine after) (holds : p machine) : p after := by
  obtain ⟨outcome, step⟩ := step
  obtain ⟨instruction, opcode, -, -, run⟩ := step_eq_ok.1 step
  have counted : p (machine.counted instruction opcode) := kept.apart holds
  exact kept.execute run (kept.apart counted)

/-- Every run keeps it too. -/
theorem runs (run : Runs machine after) (holds : p machine) : p after := by
  induction run with
  | refl => exact holds
  | tail _ step ih => exact kept.steps step ih

end Kept

/-! ## Small machines -/

/-- A machine that is about to execute the first instruction of an image with
the given bytes, which has no tables. -/
def ofBytes (bytes : List UInt8) (input : List InputLine) : Machine where
  memory := { bytes := bytes.toArray }
  header := {
    version := 3, flags := 0, release := 0, serial := "", highMemory := 0, initialPc := 0,
    dictionary := 0, objects := 0, globals := 0, staticMemory := 0, abbreviations := 0,
    fileLength := 0, checksum := 0, revision := 0 }
  abbreviations := default
  dictionary := default
  objects := { base := bytes.length, defaults := Vector.replicate defaultCount 0, objects := #[] }
  globals := { base := bytes.length, cells := Vector.replicate globalCount 0 }
  calls := [Frame.main 0]
  settings := {}
  output := {}
  input := input
  generator := .ofSeed 0
  entropy := .ofSeed 0
  status := .running
  count := 0
  log := {}

/-- Whether a step of a machine succeeds, and what it does passes a test. -/
def steps? (machine : Machine) (test : Outcome → Machine → Bool) : Bool :=
  match step machine with
  | .ok outcome after => test outcome after
  | .error _ _ => false

theorem exists_of_steps? {test : Outcome → Machine → Bool} (steps : machine.steps? test = true) :
    ∃ outcome after, step machine = .ok outcome after ∧ test outcome after = true := by
  simp only [steps?] at steps
  cases stepped : step machine with
  | ok outcome after =>
      rw [stepped] at steps
      exact ⟨outcome, after, rfl, steps⟩
  | error fault after =>
      rw [stepped] at steps
      cases steps

/-- Whether a step of a machine fails, and what it leaves passes a test. -/
def fails? (machine : Machine) (test : Fault → Machine → Bool) : Bool :=
  match step machine with
  | .ok _ _ => false
  | .error fault after => test fault after

theorem exists_of_fails? {test : Fault → Machine → Bool} (fails : machine.fails? test = true) :
    ∃ fault after, step machine = .error fault after ∧ test fault after = true := by
  simp only [fails?] at fails
  cases stepped : step machine with
  | ok outcome after =>
      rw [stepped] at fails
      cases fails
  | error fault after =>
      rw [stepped] at fails
      exact ⟨fault, after, rfl, fails⟩

end StoryMachine.Machine
