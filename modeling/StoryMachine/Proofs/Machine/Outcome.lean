import StoryMachine.Proofs.Instruction.Encoding
import StoryMachine.Proofs.Machine.Steady

/-!
# Outcomes tell the truth

The outcome of a step says what has become of the run, and a run is steered by
it.  This module shows that it is never wrong (`step_truthful`): a step that goes
on stays in its frame and moves it forward, a call enters exactly one frame, a
return leaves exactly one, and the story is over exactly when a step says so.

Only the operation `call` enters a routine.  That its caller then waits right
behind the operands is what a return relies on.
-/

namespace StoryMachine

variable {machine after : Machine} {α : Type}

namespace Machine

/-! ## Operations that enter no routine -/

/-- No run of an operation enters a routine. -/
def NeverEnters (operation : Action Outcome) : Prop :=
  ∀ machine after, operation machine ≠ .ok .called after

namespace NeverEnters

theorem bind {first : Action α} {next : α → Action Outcome} (rest : ∀ a, NeverEnters (next a)) :
    NeverEnters (first >>= next) := by
  intro machine after run
  obtain ⟨a, middle, -, run⟩ := bind_eq_ok.1 run
  exact rest a middle after run

theorem throw (e : Error) : NeverEnters (throw e) := fun _ _ => throw_ne_ok

theorem continued : NeverEnters (pure .continued) := by
  intro machine after run
  cases run

theorem storeAndContinue (value : UInt16) : NeverEnters (storeAndContinue value) :=
  .bind fun _ => .continued

theorem halt : NeverEnters halt := by
  intro machine after run
  cases run

theorem jump (offset : Int) : NeverEnters (do jumpBy offset; return .branched) := by
  refine .bind fun _ machine after run => ?_
  cases run

theorem returnValue (value : UInt16) : NeverEnters (returnValue value) := by
  intro machine after run
  obtain ⟨_, ⟨-, no, -⟩ | ⟨-, no, -⟩⟩ := returnValue_eq_ok run
  · cases no
  · cases no

theorem branchOn (condition : Bool) : NeverEnters (branchOn condition) := by
  intro machine after run
  obtain ⟨_, _, -, ⟨value, -, returned⟩ | ⟨-, no, -⟩ | ⟨-, no, -⟩⟩ := branchOn_eq_ok run
  · exact returnValue value _ _ returned
  · cases no
  · cases no

end NeverEnters

/-- Of all operations only `call` enters a routine. -/
theorem execute_neverEnters {opcode : Opcode} (other : opcode ≠ .call) (operands : List Operand) :
    NeverEnters (opcode.execute operands) := by
  have described := opcode.execute_ending operands
  cases opcode with
  | call => exact absurd rfl other
  | je | jl | jg | decChk | incChk | jin | test | testAttr | jz | getSibling | getChild =>
      rw [described.2]
      exact .bind .branchOn
  | ret | rtrue | rfalse | printRet | retPopped =>
      rw [described.2]
      exact .bind .returnValue
  | or | and | add | sub | mul | div | mod | loadw | loadb | getProp | getPropAddr | getNextProp
  | getParent | getPropLen =>
      exact .bind fun _ => .bind fun _ => .storeAndContinue _
  | not => exact .bind fun _ => .storeAndContinue _
  | load => exact .bind fun _ => .bind fun _ => .bind fun _ => .storeAndContinue _
  | random =>
      refine .bind fun range => ?_
      dsimp only
      split
      next => exact .bind fun _ => .storeAndContinue _
      next => split <;> exact .bind fun _ => .bind fun _ => .storeAndContinue _
  | nop => exact .continued
  | newLine | pop | print => exact .bind fun _ => .continued
  | setAttr | clearAttr | inc | dec | push | putProp | printNum =>
      exact .bind fun _ => .bind fun _ => .continued
  | store | insertObj | removeObj | printAddr | printPaddr | printObj =>
      exact .bind fun _ => .bind fun _ => .bind fun _ => .continued
  | storew | storeb | pull =>
      exact .bind fun _ => .bind fun _ => .bind fun _ => .bind fun _ => .continued
  | printChar =>
      refine .bind fun code => ?_
      split <;> exact .bind fun _ => .continued
  | jump => exact .bind fun _ => .jump _
  | quit => exact .bind fun _ => .halt
  | sread =>
      refine .bind fun values => ?_
      cases values with
      | nil => exact .throw _
      | cons textBuffer buffers =>
          refine .bind fun line => ?_
          cases line with
          | none => exact .bind fun _ => .halt
          | some line =>
              refine .bind fun stored => ?_
              cases buffers with
              | nil => exact .continued
              | cons parseBuffer _ => exact .bind fun _ => .continued

/-! ## Calls -/

theorem readVariable_pc {number : UInt8} {value : UInt16}
    (run : readVariable number machine = .ok value after) : after.pc = machine.pc := by
  simp only [readVariable] at run
  split at run
  next =>
    obtain ⟨running, below, changed, calls, read, rfl⟩ := onFrame_eq_ok.1 run
    simp only [Frame.read, Frame.pop] at read
    simp only [pc, calls]
    grind
  next =>
    split at run
    next => exact absurd run throw_ne_ok
    next =>
      obtain ⟨-, rfl⟩ := ask_eq_ok.1 run
      rfl

theorem operandValue_pc : ∀ {operand : Operand} {value : UInt16},
    operandValue operand machine = .ok value after → after.pc = machine.pc
  | ⟨.large, _⟩, _, run => by
      cases run
      rfl
  | ⟨.small, _⟩, _, run => by
      cases run
      rfl
  | ⟨.variable, _⟩, _, run => readVariable_pc run
  | ⟨.omitted, _⟩, _, run => absurd run throw_ne_ok

/-- Reading operands does not move the running frame. -/
theorem operandValues_pc : ∀ {operands : List Operand} {values : List UInt16}
    {machine after : Machine}, operandValues operands machine = .ok values after →
      after.pc = machine.pc
  | [], _, _, _, run => by
      cases run
      rfl
  | operand :: rest, _, _, _, run => by
      simp only [operandValues, bind_eq_ok, pure_eq_ok] at run
      obtain ⟨_, _, first, _, _, others, -, rfl⟩ := run
      exact (operandValues_pc others).trans (operandValue_pc first)

/-- A call enters a routine at the address that its first operand gives, which is not
zero. -/
theorem call_eq_called {operands : List Operand} (run : call operands machine = .ok .called after) :
    ∃ (packed : UInt16) (arguments : List UInt16) (entered : Frame) (middle : Machine),
      operandValues operands machine = .ok (packed :: arguments) middle ∧ packed ≠ 0 ∧
      Frame.call middle.memory (unpack packed) arguments = .ok entered ∧
      after.calls = entered :: middle.calls := by
  simp only [call, bind_eq_ok] at run
  obtain ⟨values, middle, read, run⟩ := run
  cases values with
  | nil => exact absurd run throw_ne_ok
  | cons packed arguments =>
      simp only [callRoutine] at run
      split at run
      next => exact absurd run (NeverEnters.bind (fun _ => .storeAndContinue 0) _ _)
      next nonzero =>
        simp only [bind_eq_ok, ask_eq_ok, narrate_eq_ok, pushFrame_eq_ok, pure_eq_ok] at run
        obtain ⟨entered, _, ⟨enter, rfl⟩, _, _, rfl, _, _, rfl, -, rfl⟩ := run
        exact ⟨packed, arguments, entered, _, read, nonzero, enter, rfl⟩

/-! ## Steps -/

theorem decode_of_nextInstruction {instruction : Instruction} {opcode : Opcode}
    (next : machine.nextInstruction = .ok (instruction, opcode)) :
    Instruction.decode machine.memory machine.pc = .ok instruction := by
  simp only [nextInstruction] at next
  grind

theorem begun_pc {instruction : Instruction} {opcode : Opcode} (calls : machine.calls ≠ []) :
    (machine.begun instruction opcode).pc = instruction.next := by
  obtain ⟨running, below, calls⟩ := List.exists_cons_of_ne_nil calls
  simp only [begun, pc, calls, List.modifyHead_cons]

end Machine

/-- What an outcome says of the machines before and after a step. -/
def Outcome.Says (machine after : Machine) : Outcome → Prop
  | .continued =>
      after.depth = machine.depth ∧ after.status = machine.status ∧ machine.pc < after.pc
  | .branched => after.depth = machine.depth ∧ after.status = machine.status
  | .called =>
      after.depth = machine.depth + 1 ∧ after.status = machine.status ∧
        ∃ instruction callee caller below, machine.nextInstruction = .ok (instruction, .call) ∧
          after.calls = callee :: caller :: below ∧ caller.pc = instruction.next
  | .returned _ =>
      after.depth + 1 = machine.depth ∧ 1 ≤ after.depth ∧ after.status = machine.status
  | .halted =>
      after.status = .halted ∧
        (after.depth = machine.depth ∨ machine.depth = 1 ∧ after.depth = 0)

namespace Machine

/-- A step that enters a routine is a call, and its caller waits right behind
the operands. -/
theorem step_called_waits (step : Machine.step machine = .ok .called after) :
    ∃ instruction callee caller below, machine.nextInstruction = .ok (instruction, .call) ∧
      after.calls = callee :: caller :: below ∧ caller.pc = instruction.next := by
  obtain ⟨instruction, opcode, next, nonempty, run⟩ := step_eq_ok.1 step
  by_cases isCall : opcode = .call
  · subst isCall
    obtain ⟨_, _, callee, middle, read, -, -, entered⟩ := call_eq_called run
    have pc := operandValues_pc read
    -- What lies under the new frame is the stack of the machine before it was entered.
    obtain ⟨_, _, caller, below, -, -, calls⟩ := step_called step
    rw [begun_pc nonempty] at pc
    obtain ⟨-, waiting⟩ := List.cons.inj (entered.symm.trans calls)
    rw [Machine.pc, waiting] at pc
    exact ⟨instruction, callee, caller, below, next, waiting ▸ entered, pc⟩
  · exact absurd run (execute_neverEnters isCall _ _ _)

theorem step_continued (step : Machine.step machine = .ok .continued after) :
    machine.pc < after.pc := by
  obtain ⟨instruction, opcode, next, nonempty, told⟩ := step_told step
  have forward := Instruction.lt_next_of_decode (decode_of_nextInstruction next)
  cases told with
  | continued steady =>
      have moved := steady.pc
      rw [begun_pc nonempty] at moved
      exact Nat.lt_of_lt_of_le forward moved
  | elsewhere no => exact absurd rfl no

theorem step_halted (step : Machine.step machine = .ok .halted after) :
    after.status = .halted ∧
      (after.depth = machine.depth ∨ machine.depth = 1 ∧ after.depth = 0) := by
  obtain ⟨instruction, opcode, -, nonempty, told⟩ := step_told step
  have begun : OnTop machine.calls (machine.begun instruction opcode).calls :=
    begun_onTop instruction opcode
  cases told with
  | elsewhere _ no => exact absurd rfl no
  | halted status _ _ calls =>
      refine ⟨status, ?_⟩
      rcases calls with onTop | ⟨last, empty⟩
      · exact .inl (onTop.length.trans begun.length)
      · refine .inr ⟨?_, ?_⟩
        · rw [begun.tail] at last
          obtain ⟨running, below, calls⟩ := List.exists_cons_of_ne_nil nonempty
          rw [calls, List.tail_cons] at last
          rw [depth, calls, last]
          rfl
        · rw [depth, empty]
          rfl

/-- Every outcome is true, and a step that fails leaves the status as it was. -/
theorem step_truthful (machine : Machine) :
    (∀ outcome after, step machine = .ok outcome after → outcome.Says machine after) ∧
      ∀ fault after, step machine = .error fault after → after.status = machine.status := by
  refine ⟨?_, fun _ _ failed => (step_failed failed).2⟩
  intro outcome after step
  have status : outcome ≠ .halted → after.status = machine.status :=
    fun goes => (step_status step).trans (if_neg goes)
  have shifts := step_shifts step
  have depths : after.depth = after.calls.length := rfl
  generalize after.calls = calls at shifts depths
  cases shifts with
  | continued onTop =>
      exact ⟨depths.trans onTop.length, status Outcome.noConfusion, step_continued step⟩
  | branched onTop => exact ⟨depths.trans onTop.length, status Outcome.noConfusion⟩
  | halted onTop => exact step_halted step
  | finished => exact step_halted step
  | called entered onTop =>
      refine ⟨?_, status Outcome.noConfusion, step_called_waits step⟩
      rw [depths, List.length_cons, onTop.length]
      rfl
  | returned value nonempty onTop =>
      have shorter := onTop.length
      rw [List.length_tail] at shorter
      have positive := List.length_pos_iff.2 nonempty
      rw [List.length_tail] at positive
      have before : machine.depth = machine.calls.length := rfl
      exact ⟨by omega, by omega, status Outcome.noConfusion⟩

end Machine

end StoryMachine
