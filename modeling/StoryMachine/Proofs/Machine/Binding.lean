import Mathlib.Data.Nat.Find
import StoryMachine.Proofs.Machine.Branching
import StoryMachine.Proofs.Machine.CallStack
import StoryMachine.Proofs.Machine.Reading
import StoryMachine.Proofs.Machine.VariableStore

/-!
# How a call binds its arguments

A routine starts with the number of its locals and a default word for each of them.
There may be more or fewer arguments than locals.  Those that there are take the
places of the first defaults, but the code starts behind all defaults in any case
(`Frame.Prepared`).  A routine that declares too many locals, or whose defaults leave
the image, cannot be called.

The step of a call enters exactly the frame that comes of this, and no frame at all
when there is none or when the address is 0 (`CallStep`).
-/

namespace StoryMachine

/-! ## The first values of the locals -/

namespace Frame

variable {memory : Memory} {routine : Nat} {arguments : List UInt16}

/-- Each local takes its argument if there is one, and its default word otherwise. -/
theorem exists_initialLocals {address count : Nat} {arguments : List UInt16}
    (inside : ∀ i < count, address + 2 * i + 1 < memory.size) :
    ∃ values, initialLocals memory address count arguments = .ok values ∧
      values.length = count ∧
      ∀ i < count, ∃ word, memory.getWord (address + 2 * i) = .ok word ∧
        values[i]? = some (arguments[i]?.getD word) := by
  induction count generalizing address arguments with
  | zero => exact ⟨[], rfl, rfl, fun i h => absurd h (Nat.not_lt_zero i)⟩
  | succ count ih =>
      obtain ⟨word, read⟩ := Memory.exists_getWord (inside 0 (Nat.succ_pos count))
      have rest : ∀ i < count, address + 2 + 2 * i + 1 < memory.size := by
        intro i h
        have later := inside (i + 1) (Nat.succ_lt_succ h)
        omega
      obtain ⟨values, initial, length, bound⟩ := @ih (address + 2) arguments.tail rest
      refine ⟨arguments.head?.getD word :: values, ?_, congrArg Nat.succ length, ?_⟩
      · simp only [initialLocals, except_bind_eq_ok]
        exact ⟨word, read, values, initial, rfl⟩
      · intro i h
        cases i with
        | zero =>
            refine ⟨word, read, ?_⟩
            rw [List.getElem?_cons_zero, List.head?_eq_getElem?]
        | succ i =>
            obtain ⟨word, read, value⟩ := bound i (Nat.lt_of_succ_lt_succ h)
            refine ⟨word, ?_, ?_⟩
            · rw [← read]
              congr 1
              omega
            · rw [List.getElem?_cons_succ, value, List.getElem?_tail]

/-- The first default word that leaves the image is the one that is told. -/
theorem initialLocals_of_outside {address count i : Nat} {arguments : List UInt16} (h : i < count)
    (outside : memory.size ≤ address + 2 * i + 1)
    (before : ∀ j < i, address + 2 * j + 1 < memory.size) :
    initialLocals memory address count arguments =
      .error (.outOfBounds (address + 2 * i) memory.size) := by
  induction count generalizing address arguments i with
  | zero => exact absurd h (Nat.not_lt_zero i)
  | succ count ih =>
      cases i with
      | zero =>
          rw [initialLocals, Memory.getWord_of_size_le outside]
          rfl
      | succ i =>
          obtain ⟨word, read⟩ : ∃ word, memory.getWord address = .ok word :=
            Memory.exists_getWord (before 0 (Nat.succ_pos i))
          have rest : ∀ j < i, address + 2 + 2 * j + 1 < memory.size := by
            intro j h
            have later := before (j + 1) (Nat.succ_lt_succ h)
            omega
          have failed := @ih (address + 2) i arguments.tail (Nat.lt_of_succ_lt_succ h)
            (by omega) rest
          simp only [initialLocals, read, failed, bind, Except.bind]
          congr 2
          omega

/-! ## The frame of a call -/

/-- The frame in which a routine with a number of locals starts: at its first
instruction, with nothing on the stack, and with the arguments in the places of the
first default words. -/
structure Prepared (memory : Memory) (address : Nat) (arguments : List UInt16) (count : Nat)
    (frame : Frame) : Prop where
  routine : frame.routine = address
  stack : frame.stack = []
  pc : frame.pc = address + 1 + 2 * count
  bound : ∀ i (h : i < maxLocals), i < count →
    ∃ word, memory.getWord (address + 1 + 2 * i) = .ok word ∧
      frame.locals[i] = some (arguments[i]?.getD word)
  unset : ∀ i (h : i < maxLocals), count ≤ i → frame.locals[i] = none

theorem call_of_size_le (outside : memory.size ≤ routine) :
    call memory routine arguments = .error (.outOfBounds routine memory.size) := by
  rw [call, declaredLocals, Memory.getByte_of_size_le outside]
  rfl

section Declared

variable {count : UInt8} (declares : memory.getByte routine = .ok count)

include declares

theorem call_of_lt (many : maxLocals < count.toNat) :
    call memory routine arguments = .error (.invalidRoutine routine count) := by
  simp only [call, declaredLocals, declares, bind, Except.bind, if_pos many]
  rfl

variable (few : count.toNat ≤ maxLocals)

include few

theorem call_of_le : call memory routine arguments = do
    let values ← initialLocals memory (routine + 1) count.toNat arguments
    return { pc := routine + 1 + 2 * count.toNat, routine, locals := localsOfList values } := by
  simp only [call, declaredLocals, declares, bind, Except.bind, if_neg (Nat.not_lt.2 few)]
  rfl

/-- A call fails at the first default word that leaves the image. -/
theorem call_of_outside (outside : ∃ i < count.toNat, memory.size ≤ routine + 1 + 2 * i + 1) :
    ∃ i < count.toNat, memory.size ≤ routine + 1 + 2 * i + 1 ∧
      (∀ j < i, routine + 1 + 2 * j + 1 < memory.size) ∧
      call memory routine arguments = .error (.outOfBounds (routine + 1 + 2 * i) memory.size) := by
  obtain ⟨h, first⟩ := Nat.find_spec outside
  have before : ∀ j < Nat.find outside, routine + 1 + 2 * j + 1 < memory.size := by
    intro j earlier
    exact Nat.not_le.1 fun no => Nat.find_min outside earlier ⟨Nat.lt_trans earlier h, no⟩
  refine ⟨Nat.find outside, h, first, before, ?_⟩
  rw [call_of_le declares few, initialLocals_of_outside h first before]
  rfl

/-- A call whose default words are all in the image has a frame. -/
theorem exists_call (inside : ∀ i < count.toNat, routine + 1 + 2 * i + 1 < memory.size) :
    ∃ frame, call memory routine arguments = .ok frame ∧
      Prepared memory routine arguments count.toNat frame := by
  obtain ⟨values, initial, length, bound⟩ := @exists_initialLocals memory _ _ arguments inside
  refine ⟨{ pc := routine + 1 + 2 * count.toNat, routine, locals := localsOfList values },
    ?_, rfl, rfl, rfl, ?_, ?_⟩
  · rw [call_of_le declares few, initial]
    rfl
  · intro i h declared
    obtain ⟨word, read, value⟩ := bound i declared
    refine ⟨word, read, ?_⟩
    rw [← value]
    exact Vector.getElem_ofFn h
  · intro i h beyond
    have none : values[i]? = none := List.getElem?_eq_none (length ▸ beyond)
    rw [← none]
    exact Vector.getElem_ofFn h

end Declared

/-- What comes of the call of a routine, told by the bytes at its address. -/
structure Binding (memory : Memory) (routine : Nat) (arguments : List UInt16) : Prop where
  /-- There is no routine outside the image. -/
  outside : memory.size ≤ routine →
    call memory routine arguments = .error (.outOfBounds routine memory.size)
  /-- No routine has more than 15 locals. -/
  tooMany : ∀ {count}, memory.getByte routine = .ok count → 15 < count.toNat →
    call memory routine arguments = .error (.invalidRoutine routine count)
  /-- The default words must lie in the image, and the first that does not is told. -/
  cutOff : ∀ {count}, memory.getByte routine = .ok count → count.toNat ≤ 15 →
    (∃ i < count.toNat, memory.size ≤ routine + 1 + 2 * i + 1) →
    ∃ i < count.toNat, memory.size ≤ routine + 1 + 2 * i + 1 ∧
      (∀ j < i, routine + 1 + 2 * j + 1 < memory.size) ∧
      call memory routine arguments = .error (.outOfBounds (routine + 1 + 2 * i) memory.size)
  /-- Otherwise there is a frame. -/
  prepared : ∀ {count}, memory.getByte routine = .ok count → count.toNat ≤ 15 →
    (∀ i < count.toNat, routine + 1 + 2 * i + 1 < memory.size) →
    ∃ frame, call memory routine arguments = .ok frame ∧
      Prepared memory routine arguments count.toNat frame

theorem binding (memory : Memory) (routine : Nat) (arguments : List UInt16) :
    Binding memory routine arguments where
  outside := call_of_size_le
  tooMany := call_of_lt
  cutOff := call_of_outside
  prepared := exists_call

end Frame

/-! ## The step of a call -/

namespace Machine

variable {machine ready after : Machine} {packed : UInt16} {arguments : List UInt16}

theorem callRoutine_of_ok (nonzero : packed ≠ 0) {entered : Frame}
    (enter : Frame.call ready.memory (unpack packed) arguments = .ok entered) :
    ∃ log, callRoutine packed arguments ready =
      .ok .called { ready with calls := entered :: ready.calls, log } := by
  rw [callRoutine, if_neg nonzero, bind_of_ok (ask_eq_ok.2 ⟨enter, rfl⟩)]
  exact ⟨_, rfl⟩

theorem callRoutine_of_error (nonzero : packed ≠ 0) {cause : Error}
    (refused : Frame.call ready.memory (unpack packed) arguments = .error cause) :
    callRoutine packed arguments ready = .error cause ready := by
  rw [callRoutine, if_neg nonzero]
  exact bind_of_error (ask_eq_error.2 ⟨refused, rfl⟩)

theorem callRoutine_zero (arguments : List UInt16) (ready : Machine) :
    ∃ log, callRoutine 0 arguments ready = storeAndContinue 0 { ready with log } :=
  ⟨_, rfl⟩

/-- Every variable can be written but 255, which does not exist. -/
theorem exists_writeVariable {number : UInt8} (calls : machine.calls ≠ []) (named : number ≠ 255)
    (within : 16 ≤ number.toNat → machine.globals.region.Within machine.memory.size)
    (value : UInt16) : ∃ after, writeVariable number value machine = .ok () after := by
  obtain ⟨running, below, stack⟩ := List.exists_cons_of_ne_nil calls
  have numbers := Place.numbers_ofNumber number
  generalize Place.ofNumber number = place at numbers
  cases numbers with
  | top =>
      rw [writeVariable_of_lt (by decide) value]
      exact ⟨_, onFrame_of_ok stack rfl⟩
  | slot i is =>
      obtain ⟨_, run, -⟩ := exists_writeVariable_of_slot is stack value
      exact ⟨_, run⟩
  | cell i is =>
      obtain ⟨_, _, run, -⟩ := exists_writeVariable_of_cell is (within (by omega)) value
      exact ⟨_, run⟩
  | nowhere => exact absurd rfl named

/-- A result can be stored if the next byte names a variable. -/
theorem exists_storeResult {number : UInt8} (calls : machine.calls ≠ [])
    (read : machine.memory.getByte machine.pc = .ok number) (named : number ≠ 255)
    (within : 16 ≤ number.toNat → machine.globals.region.Within machine.memory.size)
    (value : UInt16) : ∃ after, storeResult value machine = .ok () after := by
  have moved := movedTo_ne_nil calls (machine.pc + 1)
  rw [storeResult, bind_of_ok (fetchByte_of_ok calls read), bind_of_ok (a := ()) (note_eq_ok.2 rfl)]
  refine exists_writeVariable ?_ named ?_ value
  · exact moved
  · exact within

/-- A call of address 0 that succeeds has stored 0 in its frame. -/
theorem callRoutine_zero_eq_ok (calls : ready.calls ≠ []) {outcome : Outcome}
    (run : callRoutine 0 arguments ready = .ok outcome after) :
    outcome = .continued ∧ ∃ caller below number, ready.calls = caller :: below ∧
      ready.memory.getByte ready.pc = .ok number ∧ Receives ready caller below 0 number after := by
  obtain ⟨log, called⟩ := callRoutine_zero arguments ready
  obtain ⟨caller, below, stack⟩ := List.exists_cons_of_ne_nil calls
  simp only [called, storeAndContinue, bind_eq_ok, pure_eq_ok] at run
  obtain ⟨_, _, stored, rfl, rfl⟩ := run
  rw [stack] at stored
  obtain ⟨number, readNumber, receives⟩ := storeResult_receives stored
  refine ⟨rfl, caller, below, number, stack, ?_, receives⟩
  rw [Machine.pc, stack]
  exact readNumber

theorem exists_callRoutine_zero {number : UInt8} (calls : ready.calls ≠ [])
    (read : ready.memory.getByte ready.pc = .ok number) (named : number ≠ 255)
    (within : 16 ≤ number.toNat → ready.globals.region.Within ready.memory.size)
    (arguments : List UInt16) : ∃ after, callRoutine 0 arguments ready = .ok .continued after := by
  obtain ⟨log, called⟩ := callRoutine_zero arguments ready
  have stored : ∃ after, storeResult 0 { ready with log } = .ok () after := by
    refine exists_storeResult ?_ ?_ named ?_ 0
    · exact calls
    · exact read
    · exact within
  obtain ⟨after, stored⟩ := stored
  rw [called]
  exact ⟨after, bind_of_ok stored⟩

/-- What comes of the step of a call whose operands have the given values.  With `ready`
is meant the machine in which they have been read. -/
structure CallStep (machine : Machine) (instruction : Instruction) (packed : UInt16)
    (arguments : List UInt16) (ready : Machine) : Prop where
  /-- Reading the operands changes the running frame at most, which waits behind them. -/
  waits : ready.memory = machine.memory ∧ OnTop machine.calls ready.calls ∧
    ready.pc = instruction.next
  /-- A routine is entered with exactly its frame. -/
  enters : packed ≠ 0 → ∀ {entered},
    Frame.call machine.memory (2 * packed.toNat) arguments = .ok entered →
    ∃ log, step machine = .ok .called { ready with calls := entered :: ready.calls, log }
  /-- A routine that has no frame is not entered. -/
  refused : packed ≠ 0 → ∀ {cause},
    Frame.call machine.memory (2 * packed.toNat) arguments = .error cause →
    ∃ context, step machine = .error { pc := machine.pc, context, cause } ready
  /-- A call of address 0 stores 0 in the caller. -/
  stores : packed = 0 → ∀ {outcome after}, step machine = .ok outcome after →
    outcome = .continued ∧ ∃ caller below number, ready.calls = caller :: below ∧
      machine.memory.getByte instruction.next = .ok number ∧
      Receives ready caller below 0 number after
  /-- It can do so if the byte behind the operands names a variable that has room. -/
  continues : packed = 0 → ∀ {number}, machine.memory.getByte instruction.next = .ok number →
    number ≠ 255 → (16 ≤ number.toNat → machine.globals.region.Within machine.memory.size) →
    ∃ after, step machine = .ok .continued after

/-- The step of a call comes to the call of its first operand with the others. -/
theorem step_call {instruction : Instruction}
    (next : machine.nextInstruction = .ok (instruction, .call)) (calls : machine.calls ≠ [])
    (read : operandValues instruction.operands (machine.begun instruction .call) =
      .ok (packed :: arguments) ready) :
    CallStep machine instruction packed arguments ready := by
  obtain ⟨_, same⟩ := operandValues_calls read
  have memory : ready.memory = machine.memory := by
    rw [same]
    rfl
  have globals : ready.globals = machine.globals := by
    rw [same]
    rfl
  have onTop : OnTop machine.calls ready.calls :=
    (begun_onTop instruction .call).trans ((operandValues_local _).onTop read)
  have pc : ready.pc = instruction.next := (operandValues_pc read).trans (begun_pc calls)
  have nonempty : ready.calls ≠ [] := onTop.ne_nil calls
  have execute : Opcode.execute .call instruction.operands (machine.begun instruction .call) =
      callRoutine packed arguments ready := bind_of_ok read
  constructor
  case waits => exact ⟨memory, onTop, pc⟩
  case enters =>
    intro nonzero entered enter
    rw [← memory] at enter
    obtain ⟨log, called⟩ := callRoutine_of_ok nonzero enter
    exact ⟨log, step_eq_ok.2 ⟨instruction, .call, next, calls, execute.trans called⟩⟩
  case refused =>
    intro nonzero cause refused
    rw [← memory] at refused
    rw [step_of_next next calls, execute, callRoutine_of_error nonzero refused]
    exact ⟨_, rfl⟩
  case stores =>
    rintro rfl outcome after stepped
    obtain ⟨_, _, same, -, run⟩ := step_eq_ok.1 stepped
    cases next.symm.trans same
    rw [execute] at run
    rw [← memory, ← pc]
    exact callRoutine_zero_eq_ok nonempty run
  case continues =>
    rintro rfl number readNumber named within
    rw [← memory, ← pc] at readNumber
    rw [← memory, ← globals] at within
    obtain ⟨after, called⟩ := exists_callRoutine_zero nonempty readNumber named within arguments
    exact ⟨after, step_eq_ok.2 ⟨instruction, .call, next, calls, execute.trans called⟩⟩

/-- A call that fails enters nothing. -/
theorem onTop_of_call_fault {instruction : Instruction} {fault : Fault}
    (next : machine.nextInstruction = .ok (instruction, .call))
    (failed : step machine = .error fault after) : OnTop machine.calls after.calls := by
  rcases step_eq_error failed with ⟨no, -⟩ | ⟨_, _, same, ⟨-, rfl⟩ | run⟩
  · cases no.symm.trans next
  · exact .refl _
  · cases next.symm.trans same
    exact (begun_onTop instruction .call).trans ((call_straight _).onTop_of_error run)

/-- Calls bind their arguments.  What frame a routine has, or why it has none, is told by
its bytes and the arguments, of which there may be any number.  The step of a call enters
exactly this frame, for the routine at twice its first operand and with the values of the
others as arguments.  If the first operand is 0 the step enters nothing and stores 0, and
if it fails it enters nothing either. -/
theorem call_binding :
    (∀ memory routine arguments, Frame.Binding memory routine arguments) ∧
      ∀ {machine : Machine} {instruction : Instruction},
        machine.nextInstruction = .ok (instruction, .call) →
        (∀ {packed arguments ready}, machine.calls ≠ [] →
          operandValues instruction.operands (machine.begun instruction .call) =
            .ok (packed :: arguments) ready →
          CallStep machine instruction packed arguments ready) ∧
        ∀ {fault after}, step machine = .error fault after → OnTop machine.calls after.calls := by
  refine ⟨Frame.binding, ?_⟩
  intro machine instruction next
  exact ⟨step_call next, onTop_of_call_fault next⟩

/-- A machine about to call a routine with three locals and two arguments. -/
def sampleCaller : Machine :=
  let code : List UInt8 := [0xe0, 0x17, 0, 4, 7, 9, 0, 0]
  let routine : List UInt8 := [3, 0x11, 0x11, 0x22, 0x22, 0x33, 0x33, 0xb0]
  ofBytes (code ++ routine) []

/-- A machine about to call address 0, with the result for the stack. -/
def idleCaller : Machine := ofBytes [0xe0, 0x3f, 0, 0, 0] []

theorem call_binding_sample :
    (∃ (entered : Frame) (ready : Machine) (log : Log),
      Frame.Prepared sampleCaller.memory 8 [7, 9] 3 entered ∧
        step sampleCaller = .ok .called { ready with calls := entered :: ready.calls, log }) ∧
      ∃ (ready after : Machine) (caller : Frame) (below : CallStack),
        step idleCaller = .ok .continued after ∧ Receives ready caller below 0 0 after := by
  obtain ⟨binding, steps⟩ := call_binding
  constructor
  · obtain ⟨instruction, next, operands⟩ : ∃ instruction,
        sampleCaller.nextInstruction = .ok (instruction, .call) ∧
        instruction.operands = [⟨.large, 4⟩, ⟨.small, 7⟩, ⟨.small, 9⟩] := ⟨_, rfl, rfl⟩
    have read : operandValues instruction.operands (sampleCaller.begun instruction .call) =
        .ok [4, 7, 9] (sampleCaller.begun instruction .call) := by
      rw [operands]
      rfl
    have declares : sampleCaller.memory.getByte 8 = .ok 3 := rfl
    obtain ⟨entered, enter, prepared⟩ :=
      (binding sampleCaller.memory 8 [7, 9]).prepared declares (by decide) (by decide)
    obtain ⟨log, stepped⟩ := ((steps next).1 (List.cons_ne_nil _ _) read).enters (by decide) enter
    exact ⟨entered, _, log, prepared, stepped⟩
  · obtain ⟨instruction, next, operands, behind⟩ : ∃ instruction,
        idleCaller.nextInstruction = .ok (instruction, .call) ∧
        instruction.operands = [⟨.large, 0⟩] ∧ instruction.next = 4 := ⟨_, rfl, rfl, rfl⟩
    have read : operandValues instruction.operands (idleCaller.begun instruction .call) =
        .ok [0] (idleCaller.begun instruction .call) := by
      rw [operands]
      rfl
    have named : idleCaller.memory.getByte instruction.next = .ok 0 := by
      rw [behind]
      rfl
    have called := (steps next).1 (List.cons_ne_nil _ _) read
    obtain ⟨after, stepped⟩ := called.continues rfl named (by decide) fun no => absurd no (by decide)
    obtain ⟨-, caller, below, number, -, same, receives⟩ := called.stores rfl stepped
    cases named.symm.trans same
    exact ⟨_, after, caller, below, stepped, receives⟩

end Machine

end StoryMachine
