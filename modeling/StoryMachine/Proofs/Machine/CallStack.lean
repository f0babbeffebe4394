import StoryMachine.Proofs.Machine.Reachable

/-!
# The shape of the call stack

The main routine is at the bottom of the call stack, and every frame above it was
entered by a call, at an even address inside the image (`Grounded`).  A step that
fails may have left a frame already, when the value that it returns cannot be stored
in the caller, but then the caller is still there (`Interrupted`).  The last frame
goes only with the story itself.

Each step keeps this, whether it succeeds or fails and whether the story is over or
not (`Founded.attempt`), and so does each run.
-/

namespace StoryMachine

/-! ## Stacks -/

/-- An address at which a call can enter a routine, in an image of the given size. -/
structure RoutineAddress (size address : Nat) : Prop where
  even : 2 ∣ address
  positive : 2 ≤ address
  bounded : address ≤ 131070
  inside : address < size

/-- Frames of called routines on top of the main routine. -/
inductive Grounded (size : Nat) : CallStack → Prop where
  | main {frame : Frame} : frame.routine = 0 → Grounded size [frame]
  | call {frame : Frame} {below : CallStack} :
      RoutineAddress size frame.routine → Grounded size below → Grounded size (frame :: below)

namespace Grounded

variable {size : Nat} {calls after : CallStack}

theorem ne_nil (grounded : Grounded size calls) : calls ≠ [] := by
  rintro rfl
  cases grounded

/-- What the running frame does in its routine makes no difference. -/
theorem onTop (grounded : Grounded size calls) (onTop : OnTop calls after) :
    Grounded size after := by
  cases onTop with
  | none => exact grounded
  | some below same =>
      cases grounded with
      | main zero => exact .main (same.trans zero)
      | call called grounded => exact .call (same ▸ called) grounded

theorem tail (grounded : Grounded size calls) (caller : calls.tail ≠ []) :
    Grounded size calls.tail := by
  cases grounded with
  | main zero => exact absurd rfl caller
  | call called grounded => exact grounded

/-- The main routine is at the bottom. -/
theorem bottom (grounded : Grounded size calls) :
    ∀ nonempty : calls ≠ [], (calls.getLast nonempty).routine = 0 := by
  induction grounded with
  | main zero => exact fun _ => zero
  | call called grounded ih =>
      intro nonempty
      rw [List.getLast_cons grounded.ne_nil]
      exact ih grounded.ne_nil

/-- All other frames are those of calls. -/
theorem above (grounded : Grounded size calls) :
    ∀ frame ∈ calls.dropLast, RoutineAddress size frame.routine := by
  induction grounded with
  | main zero => simp
  | call called grounded ih =>
      rw [List.dropLast_cons_of_ne_nil grounded.ne_nil]
      exact List.forall_mem_cons.2 ⟨called, ih⟩

end Grounded

/-! ## Calls -/

/-- The frame of a call runs the routine at the given address, which is inside the
image. -/
theorem Frame.call_eq_ok {memory : Memory} {routine : Nat} {arguments : List UInt16}
    {entered : Frame} (enter : Frame.call memory routine arguments = .ok entered) :
    entered.routine = routine ∧ routine < memory.size := by
  simp only [Frame.call, declaredLocals, except_bind_eq_ok, except_pure_eq_ok] at enter
  obtain ⟨_, ⟨count, read, -⟩, _, -, rfl⟩ := enter
  exact ⟨rfl, Memory.lt_size_of_getByte read⟩

theorem routineAddress_unpack {packed : UInt16} {size : Nat} (nonzero : packed ≠ 0)
    (inside : Machine.unpack packed < size) : RoutineAddress size (Machine.unpack packed) := by
  have positive : packed.toNat ≠ 0 := fun zero => nonzero (UInt16.toNat_inj.1 zero)
  have bounded := packed.toNat_lt
  simp only [Machine.unpack] at inside ⊢
  exact ⟨Nat.dvd_mul_right _ _, by omega, by omega, inside⟩

namespace Machine

variable {machine middle after : Machine} {α : Type}

/-- A step that calls enters a frame at a routine address. -/
theorem step_enters (step : Machine.step machine = .ok .called after) :
    ∃ entered below, after.calls = entered :: below ∧
      RoutineAddress machine.memory.size entered.routine := by
  obtain ⟨instruction, opcode, -, -, run⟩ := step_eq_ok.1 step
  by_cases isCall : opcode = .call
  · subst isCall
    obtain ⟨packed, arguments, entered, middle, read, nonzero, enter, calls⟩ := call_eq_called run
    have memory : middle.memory = machine.memory := by
      have unwritten := Inert.operandValues instruction.operands (machine.begun instruction .call)
      rw [leaves_of_ok read] at unwritten
      obtain ⟨_, _, _, _, _, _, _, rfl⟩ := unwritten
      rfl
    rw [memory] at enter
    obtain ⟨routine, inside⟩ := Frame.call_eq_ok enter
    refine ⟨entered, middle.calls, calls, ?_⟩
    rw [routine]
    exact routineAddress_unpack nonzero inside
  · exact absurd run (execute_neverEnters isCall _ _ _)

/-! ## Operations that fail -/

/-- A straight operation that fails is still in its frame. -/
theorem Straight.onTop_of_error {operation : Action Outcome} (isStraight : Straight operation) :
    ∀ {machine after : Machine} {e : Error}, operation machine = .error e after →
      OnTop machine.calls after.calls := by
  induction isStraight with
  | bind isLocal _ ih =>
      intro machine after e run
      have steady := isLocal.steady machine
      rcases bind_eq_error.1 run with failed | ⟨a, middle, done, failed⟩
      · rw [leaves_of_error failed] at steady
        exact steady.calls
      · rw [leaves_of_ok done] at steady
        exact steady.calls.trans (ih a failed)
  | throw e =>
      intro machine after e run
      cases run
      exact .refl _
  | continued =>
      intro machine after e run
      cases run
  | jump offset =>
      intro machine after e run
      rcases bind_eq_error.1 run with unmoved | ⟨_, _, -, no⟩
      · rw [jumpBy_eq_error unmoved]
        exact .refl _
      · cases no
  | halt =>
      intro machine after e run
      cases run
  | enter routine arguments level texts =>
      intro machine after e run
      rcases bind_eq_error.1 run with refused | ⟨_, _, -, no⟩
      · rw [(ask_eq_error.1 refused).2]
        exact .refl _
      · cases no

/-- What an operation that fails has done to the call stack.  It may have left the
running frame, but then there is a caller. -/
inductive Interrupted (calls : CallStack) : CallStack → Prop where
  | inside {after : CallStack} : OnTop calls after → Interrupted calls after
  | returning {after : CallStack} :
      calls.tail ≠ [] → OnTop calls.tail after → Interrupted calls after

theorem Interrupted.of_onTop {calls middle after : CallStack} (onTop : OnTop calls middle)
    (interrupted : Interrupted middle after) : Interrupted calls after := by
  cases interrupted with
  | inside rest => exact .inside (onTop.trans rest)
  | returning caller rest =>
      rw [onTop.tail] at caller rest
      exact .returning caller rest

/-- An operation that interrupts the calls at most when it fails. -/
def Interrupts (operation : Action Outcome) : Prop :=
  ∀ machine e after, operation machine = .error e after → Interrupted machine.calls after.calls

namespace Interrupts

theorem bind {first : Action α} {next : α → Action Outcome} (isLocal : Local first)
    (rest : ∀ a, Interrupts (next a)) : Interrupts (first >>= next) := by
  intro machine e after run
  have steady := isLocal.steady machine
  rcases bind_eq_error.1 run with failed | ⟨a, middle, done, failed⟩
  · rw [leaves_of_error failed] at steady
    exact .inside steady.calls
  · rw [leaves_of_ok done] at steady
    exact .of_onTop steady.calls (rest a middle e after failed)

theorem straight {operation : Action Outcome} (isStraight : Straight operation) :
    Interrupts operation :=
  fun _ _ _ run => .inside (isStraight.onTop_of_error run)

/-- The value that a return stores is stored in the caller, so only the caller can
have changed when it fails. -/
theorem returnValue (value : UInt16) : Interrupts (returnValue value) := by
  intro machine e after run
  obtain ⟨caller, log, failed⟩ := returnValue_eq_error run
  have steady := (storeResult_local value).steady { machine with calls := machine.calls.tail, log }
  rw [leaves_of_error failed] at steady
  exact .returning caller steady.calls

theorem branchOn (condition : Bool) : Interrupts (branchOn condition) := by
  refine .bind fetchBranch_local ?_
  intro branch
  split
  next => exact .straight .continued
  next =>
    split
    next => exact .returnValue 0
    next =>
      split
      next => exact .returnValue 1
      next => exact .straight (.jump _)

theorem execute (opcode : Opcode) (operands : List Operand) :
    Interrupts (opcode.execute operands) := by
  have described := opcode.execute_ending operands
  cases ending : opcode.ending operands with
  | leave result =>
      rw [ending] at described
      rw [described.2]
      exact .bind described.1 .returnValue
  | branch condition =>
      rw [ending] at described
      rw [described.2]
      exact .bind described.1 .branchOn
  | straight =>
      rw [ending] at described
      exact .straight described

end Interrupts

theorem step_interrupted {fault : Fault} (step : Machine.step machine = .error fault after) :
    Interrupted machine.calls after.calls := by
  rcases step_eq_error step with ⟨-, rfl⟩ | ⟨instruction, opcode, -, ⟨-, rfl⟩ | run⟩
  · exact .inside (.refl _)
  · exact .inside (.refl _)
  · exact .of_onTop (begun_onTop instruction opcode) (Interrupts.execute opcode _ _ _ _ run)

/-! ## Steps -/

/-- A step that succeeds keeps the calls grounded, unless it leaves the last frame and
ends the story. -/
theorem step_grounded {outcome : Outcome} (grounded : Grounded machine.memory.size machine.calls)
    (step : Machine.step machine = .ok outcome after) :
    (outcome = .halted ∧ after.calls = []) ∨ Grounded machine.memory.size after.calls := by
  have shifts := step_shifts step
  generalize stack : after.calls = calls at shifts
  cases shifts with
  | continued onTop => exact .inr (grounded.onTop onTop)
  | branched onTop => exact .inr (grounded.onTop onTop)
  | halted onTop => exact .inr (grounded.onTop onTop)
  | finished => exact .inl ⟨rfl, rfl⟩
  | called entered onTop =>
      obtain ⟨_, _, top, address⟩ := step_enters step
      rw [stack] at top
      cases top
      exact .inr (.call address (grounded.onTop onTop))
  | returned value caller onTop => exact .inr ((grounded.tail caller).onTop onTop)

/-- A step that fails keeps the calls grounded. -/
theorem step_fault_grounded {fault : Fault}
    (grounded : Grounded machine.memory.size machine.calls)
    (step : Machine.step machine = .error fault after) :
    Grounded machine.memory.size after.calls := by
  have interrupted := step_interrupted step
  cases interrupted with
  | inside onTop => exact grounded.onTop onTop
  | returning caller onTop => exact (grounded.tail caller).onTop onTop

/-- Without a frame every step fails, and enters none. -/
theorem step_of_no_frame (empty : machine.calls = []) :
    ∃ fault after, step machine = .error fault after ∧ after.calls = [] := by
  cases stepped : step machine with
  | ok outcome after =>
      obtain ⟨_, _, -, nonempty, -⟩ := step_eq_ok.1 stepped
      exact absurd empty nonempty
  | error fault after =>
      refine ⟨fault, after, rfl, ?_⟩
      have interrupted := step_interrupted stepped
      rw [empty] at interrupted
      cases interrupted with
      | inside onTop => exact List.eq_nil_of_length_eq_zero onTop.length
      | returning caller => exact absurd rfl caller

/-- A machine has a frame as long as its story goes on, and frames are grounded. -/
structure Founded (machine : Machine) : Prop where
  running : machine.status = .running → machine.calls ≠ []
  grounded : machine.calls ≠ [] → Grounded machine.memory.size machine.calls

/-- A step keeps a machine founded, whether it succeeds or fails. -/
theorem Founded.attempt (founded : machine.Founded) (placed : machine.Placed)
    (attempt : Attempts machine after) : after.Founded := by
  have size := (step_confined placed).size
  cases attempt
  by_cases empty : machine.calls = []
  · -- The story is over already, and a step that fails does not take it up.
    obtain ⟨fault, after, failed, none⟩ := step_of_no_frame empty
    rw [leaves_of_error failed]
    constructor
    · intro running
      rw [(step_failed failed).2] at running
      exact absurd empty (founded.running running)
    · exact absurd none
  · have grounded := founded.grounded empty
    cases stepped : step machine with
    | ok outcome after =>
        rw [leaves_of_ok stepped] at size ⊢
        rcases step_grounded grounded stepped with ⟨rfl, none⟩ | grounded
        · -- The step has left the last frame, and the story is over with it.
          constructor
          · intro running
            rw [step_status stepped, if_pos rfl] at running
            cases running
          · exact absurd none
        · exact ⟨fun _ => grounded.ne_nil, fun _ => size ▸ grounded⟩
    | error fault after =>
        rw [leaves_of_error stepped] at size ⊢
        have grounded := step_fault_grounded grounded stepped
        exact ⟨fun _ => grounded.ne_nil, fun _ => size ▸ grounded⟩

/-- A step does not take up a story that is over. -/
theorem attempt_halted (attempt : Attempts machine after) (halted : machine.status = .halted) :
    after.status = .halted := by
  cases attempt
  cases stepped : step machine with
  | ok outcome after => rw [leaves_of_ok stepped, step_status stepped, halted, ite_self]
  | error fault after => rw [leaves_of_error stepped, (step_failed stepped).2, halted]

/-! ## Runs -/

theorem load_founded {image : Array UInt8} {settings : Settings} {entropy : Entropy}
    {loaded : Machine} (isLoaded : load image settings entropy = .ok loaded)
    (input : List InputLine) (output : Output) (log : Log) :
    ({ loaded with input, output, log } : Machine).Founded := by
  obtain ⟨_, _, _, _, _, -, -, -, -, -, -, rfl⟩ := load_eq_ok.1 isLoaded
  exact ⟨fun _ => List.cons_ne_nil _ _, fun _ => .main rfl⟩

namespace Reaches

theorem founded (reaches : Reaches machine after) (placed : machine.Placed)
    (founded : machine.Founded) : after.Founded := by
  induction reaches with
  | refl => exact founded
  | tail earlier attempt ih => exact ih.attempt ((confined earlier placed).placed placed) attempt

theorem halted (reaches : Reaches machine after) (halted : machine.status = .halted) :
    after.status = .halted := by
  induction reaches with
  | refl => exact halted
  | tail _ attempt ih => exact attempt_halted attempt ih

theorem no_frame (reaches : Reaches machine after) (empty : machine.calls = []) :
    after.calls = [] := by
  induction reaches with
  | refl => exact empty
  | tail _ attempt ih =>
      obtain ⟨fault, final, failed, none⟩ := step_of_no_frame ih
      cases attempt
      rw [leaves_of_error failed]
      exact none

end Reaches

/-- The call stack in every machine that a story reaches, whatever it reads, however
many of its steps fail and however many are made after its end.  A story that goes on
has a frame, and one that is over does not go on again.  Once there is no frame there
is none ever after, and every step fails.  The frame at the bottom is that of the main
routine, and every other runs a routine at an even address inside the image. -/
theorem call_stack_founded {image : Array UInt8} {settings : Settings} {entropy : Entropy}
    {input : List InputLine} {output : Output} {log : Log} {loaded machine : Machine}
    (isLoaded : load image settings entropy = .ok loaded)
    (reached : Reaches { loaded with input, output, log } machine) :
    (machine.status = .running → machine.calls ≠ []) ∧
      (machine.status = .halted → ∀ after, Reaches machine after → after.status = .halted) ∧
      (machine.calls = [] → ∀ after, Reaches machine after →
        after.calls = [] ∧ ∃ fault final, step after = .error fault final) ∧
      ∀ nonempty : machine.calls ≠ [],
        (machine.calls.getLast nonempty).routine = 0 ∧
        ∀ frame ∈ machine.calls.dropLast, 2 ∣ frame.routine ∧ 2 ≤ frame.routine ∧
          frame.routine ≤ 131070 ∧ frame.routine < machine.memory.size := by
  have founded := reached.founded (load_placed isLoaded input output log)
    (load_founded isLoaded input output log)
  refine ⟨founded.running, ?_, ?_, ?_⟩
  · intro halted after later
    exact later.halted halted
  · intro empty after later
    have none := later.no_frame empty
    obtain ⟨fault, final, failed, -⟩ := step_of_no_frame none
    exact ⟨none, fault, final, failed⟩
  · intro nonempty
    have grounded := founded.grounded nonempty
    refine ⟨grounded.bottom nonempty, ?_⟩
    intro frame member
    have address := grounded.above frame member
    exact ⟨address.even, address.positive, address.bounded, address.inside⟩

/-- A small story that calls a routine twice.  The first result goes to a variable that
cannot be written, so that the return fails after it has left the frame. -/
def callingStory : Array UInt8 :=
  let code : List UInt8 := [0xe0, 0x3f, 0x01, 0x3e, 0xff, 0xe0, 0x3f, 0x01, 0x3e, 0, 0, 0xb0]
  (sampleStory.toList.take 0x272 ++ code).toArray

theorem call_stack_founded_sample : ∃ loaded machine : Machine,
    load callingStory {} (.ofSeed 0) = .ok loaded ∧
      Reaches { loaded with input := [], log := {} } machine ∧
      machine.calls.map Frame.routine = [0x27c, 0] ∧
      (machine.status = .running → machine.calls ≠ []) ∧
      ∀ frame ∈ machine.calls.dropLast, 2 ∣ frame.routine ∧ 2 ≤ frame.routine ∧
        frame.routine ≤ 131070 ∧ frame.routine < machine.memory.size := by
  have checked : ((load callingStory {} (.ofSeed 0)).toOption.any fun loaded =>
      steps? { loaded with input := [], log := {} } fun _ entered =>
        entered.fails? fun _ dropped =>
          dropped.steps? fun _ machine => machine.calls.map Frame.routine = [0x27c, 0]) = true := by
    decide +kernel
  obtain ⟨loaded, isLoaded, checked⟩ := exists_of_toOption_any checked
  obtain ⟨_, entered, called, checked⟩ := exists_of_steps? checked
  obtain ⟨_, dropped, failed, checked⟩ := exists_of_fails? checked
  obtain ⟨_, machine, again, routines⟩ := exists_of_steps? checked
  have routines : machine.calls.map Frame.routine = [0x27c, 0] := of_decide_eq_true routines
  have reached : Reaches { loaded with input := [], log := {} } machine :=
    .tail (.tail (.single (leaves_of_ok called)) (leaves_of_error failed)) (leaves_of_ok again)
  obtain ⟨running, -, -, frames⟩ := call_stack_founded isLoaded reached
  have nonempty : machine.calls ≠ [] := by
    intro empty
    simp [empty] at routines
  exact ⟨loaded, machine, isLoaded, reached, routines, running, (frames nonempty).2⟩

end Machine

end StoryMachine
