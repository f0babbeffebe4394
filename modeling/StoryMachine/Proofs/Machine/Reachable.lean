import StoryMachine.Proofs.Machine.Atomicity
import StoryMachine.Proofs.Machine.Coherence
import StoryMachine.Proofs.Machine.Guise
import StoryMachine.Proofs.Machine.Outcome

/-!
# Machines that a story can reach

A run may go on after a fault: the next step starts from whatever the failed one
left.  The machines that are reached in this way from a loaded story have their
tables where they were loaded and inside the image (`Reaches.confined`,
`load_placed`).

Three results follow.  No access to a table leaves the image (`tables_inside`).  A
run without raw writes alters nothing but the tables (`tame_run_writes_tables`).
And what a failed step leaves behind is the machine before it but for its frames
and counters, unless it was one of seven operations (`fault_leaves`).
-/

namespace StoryMachine

namespace Machine

variable {machine middle after loaded : Machine} {image : Array UInt8} {settings : Settings}
  {entropy : Entropy} {input : List InputLine} {output : Output} {log : Log}

/-! ## Runs through faults -/

/-- One machine becomes another by a step, which may fail. -/
def Attempts (machine after : Machine) : Prop := leaves step machine = after

/-- One machine becomes another by some number of steps, any of which may fail. -/
def Reaches : Machine → Machine → Prop := Relation.ReflTransGen Attempts

/-- One machine becomes another by some number of steps, any of which may fail and
none of which executes an operation that writes past the copies of the tables. -/
def ReachesTamely : Machine → Machine → Prop :=
  Relation.ReflTransGen fun machine after => machine.nextIsRaw = false ∧ Attempts machine after

theorem Reaches.confined (reaches : Reaches machine after) (placed : machine.Placed) :
    Confined true machine after := by
  induction reaches with
  | refl => exact .refl true machine
  | tail _ attempt ih =>
      cases attempt
      exact ih.trans ((step_confined (ih.placed placed)).mono fun _ => rfl)

theorem ReachesTamely.confined (reaches : ReachesTamely machine after) (placed : machine.Placed) :
    Confined false machine after := by
  induction reaches with
  | refl => exact .refl false machine
  | tail _ attempt ih =>
      obtain ⟨tame, rfl⟩ := attempt
      have later := step_confined (ih.placed placed)
      rw [tame] at later
      exact ih.trans later

/-- The tables of a loaded story lie inside its image. -/
theorem load_placed (isLoaded : load image settings entropy = .ok loaded)
    (input : List InputLine) (output : Output) (log : Log) :
    ({ loaded with input, output, log } : Machine).Placed := by
  obtain ⟨header, abbreviations, dictionary, objects, globals, -, -, -, -, loadObjects,
    loadGlobals, rfl⟩ := load_eq_ok.1 isLoaded
  obtain ⟨agrees, tidy, -⟩ := ObjectTable.load_agrees loadObjects
  exact ⟨(Globals.load_agrees loadGlobals).within, agrees.inside tidy⟩

theorem load_memory (isLoaded : load image settings entropy = .ok loaded) :
    loaded.memory = ⟨image⟩ := by
  obtain ⟨_, _, _, _, _, -, -, -, -, -, -, rfl⟩ := load_eq_ok.1 isLoaded
  rfl

/-- A small story that sets the first global variable and then a property that its
object lacks. -/
def faultyStory : Array UInt8 :=
  let code : List UInt8 := [0x0d, 0x10, 0x05, 0xe3, 0x57, 0x01, 0x09, 0x00]
  (sampleStory.toList.take 0x272 ++ code).toArray

/-- Its first step succeeds, and its second one fails. -/
theorem faultyStory_runs : ∃ (loaded middle after : Machine) (outcome : Outcome)
    (instruction : Instruction) (opcode : Opcode) (fault : Fault),
    load faultyStory {} (.ofSeed 0) = .ok loaded ∧
      ({ loaded with input := [], log := {} } : Machine).nextIsRaw = false ∧
      (∀ region ∈ loaded.writable, region.Misses 0x272) ∧
      step { loaded with input := [], log := {} } = .ok outcome middle ∧
      middle.globals.get 0 = .ok 5 ∧
      (middle.nextInstruction = .ok (instruction, opcode) ∧ opcode.mayBreakOff = false) ∧
      step middle = .error fault after ∧ fault.cause = .missingProperty 1 9 := by
  have checked : ((load faultyStory {} (.ofSeed 0)).toOption.any fun loaded =>
      let start : Machine := { loaded with input := [], log := {} }
      !start.nextIsRaw && (decide (∀ region ∈ loaded.writable, region.Misses 0x272) &&
        start.steps? fun _ middle => middle.globals.get 0 = .ok 5 &&
          (middle.nextInstruction.toOption.any fun next => !next.2.mayBreakOff) &&
            middle.fails? fun fault _ => fault.cause = .missingProperty 1 9)) = true := by
    decide +kernel
  obtain ⟨loaded, isLoaded, checked⟩ := exists_of_toOption_any checked
  obtain ⟨tame, checked⟩ := Bool.and_eq_true_iff.1 checked
  obtain ⟨misses, checked⟩ := Bool.and_eq_true_iff.1 checked
  obtain ⟨outcome, middle, stepped, checked⟩ := exists_of_steps? checked
  obtain ⟨checked, fails⟩ := Bool.and_eq_true_iff.1 checked
  obtain ⟨written, whole⟩ := Bool.and_eq_true_iff.1 checked
  obtain ⟨⟨instruction, opcode⟩, next, whole⟩ := exists_of_toOption_any whole
  obtain ⟨fault, after, failed, cause⟩ := exists_of_fails? fails
  exact ⟨loaded, middle, after, outcome, instruction, opcode, fault, isLoaded,
    Bool.not_eq_true' _ |>.mp tame, of_decide_eq_true misses, stepped,
    of_decide_eq_true written, ⟨next, Bool.not_eq_true' _ |>.mp whole⟩, failed,
    of_decide_eq_true cause⟩

/-! ## The tables stay inside the image -/

/-- In every machine that a story reaches, whatever it reads and however many of
its steps fail, the image has the size it was loaded with and no access to a table
leaves it.  The copies can be refreshed after a write to any range, the global
variables can be read and set, and a link of an object can be led to any other.
An edit of a flag, a property or a link that fails does so for another cause and
leaves both memory and copy as they were. -/
theorem tables_inside {image : Array UInt8} {settings : Settings} {entropy : Entropy}
    {input : List InputLine} {output : Output} {log : Log} {loaded machine : Machine}
    (isLoaded : load image settings entropy = .ok loaded)
    (reached : Reaches { loaded with input, output, log } machine) :
    machine.memory.size = image.size ∧
      (∀ address count,
        (∃ globals, machine.globals.refresh machine.memory address count = .ok globals) ∧
        ∃ objects, machine.objects.refresh machine.memory address count = .ok objects) ∧
      (∀ index : UInt8, index.toNat < globalCount →
        (∃ value, machine.globals.get index = .ok value) ∧
        ∀ value, ∃ globals memory,
          machine.globals.set index value machine.memory = .ok globals memory) ∧
      (∀ number flag value cause store,
        ObjectStore.setAttribute number flag value machine.store = .error cause store →
          store = machine.store ∧ ∀ address size, cause ≠ .outOfBounds address size) ∧
      (∀ number property value cause store,
        ObjectStore.setProperty number property value machine.store = .error cause store →
          store = machine.store ∧ ∀ address size, cause ≠ .outOfBounds address size) ∧
      (∀ link number target, number ≠ 0 → number.toNat ≤ machine.objects.size →
        target.toNat ≤ machine.objects.size →
          ∃ store, ObjectStore.setLink link number target machine.store = .ok () store) ∧
      ∀ link number target cause store,
        ObjectStore.setLink link number target machine.store = .error cause store →
          store = machine.store ∧ ∀ address size, cause ≠ .outOfBounds address size := by
  have confined := reached.confined (load_placed isLoaded input output log)
  have placed := confined.placed (load_placed isLoaded input output log)
  have size : machine.memory.size = image.size := by
    rw [confined.size]
    show loaded.memory.size = image.size
    rw [load_memory isLoaded]
    rfl
  refine ⟨size, ?_, ?_, ?_, ?_, ?_, ?_⟩
  · intro address count
    obtain ⟨globals, run, -⟩ := Globals.exists_refresh placed.globals address count
    obtain ⟨objects, run', -⟩ := ObjectTable.exists_refresh address count placed.objects
    exact ⟨⟨globals, run⟩, ⟨objects, run'⟩⟩
  · intro index h
    refine ⟨⟨machine.globals.cells[index.toNat], ?_⟩, Globals.exists_set placed.globals h⟩
    rw [Globals.get, dif_pos h]
  · intro number flag value cause store failed
    exact (ObjectStore.setAttribute_edited placed.objects number flag value).of_error failed
  · intro number property value cause store failed
    exact (ObjectStore.setProperty_edited placed.objects number property value).of_error failed
  · intro link number target nonzero known targetKnown
    exact ObjectStore.exists_setLink placed.objects link nonzero known targetKnown
  · intro link number target cause store failed
    exact (ObjectStore.setLink_edited placed.objects link number target).of_error failed

theorem tables_inside_sample : ∃ loaded machine : Machine,
    load faultyStory {} (.ofSeed 0) = .ok loaded ∧
      Reaches { loaded with input := [], log := {} } machine ∧
      machine.memory.size = faultyStory.size ∧
      ∀ address count,
        ∃ objects, machine.objects.refresh machine.memory address count = .ok objects := by
  obtain ⟨loaded, middle, machine, outcome, _, _, fault, isLoaded, -, -, stepped, -, -, failed, -⟩ :=
    faultyStory_runs
  have reached : Reaches { loaded with input := [], log := {} } machine :=
    .tail (.single (leaves_of_ok stepped)) (leaves_of_error failed)
  obtain ⟨size, refreshes, -⟩ := tables_inside isLoaded reached
  exact ⟨loaded, machine, isLoaded, reached, size, fun address count => (refreshes address count).2⟩

/-! ## What is written -/

/-- In a run without raw writes, every byte outside the table of global variables,
the flags and links of the objects and the data of their properties keeps its value
from the image that was loaded, and so does every range that is apart from all of
these regions.  It makes no difference whether the regions overlap each other and
whether steps fail, and the regions stay the same. -/
theorem tame_run_writes_tables {image : Array UInt8} {settings : Settings} {entropy : Entropy}
    {input : List InputLine} {output : Output} {log : Log} {loaded after : Machine}
    (isLoaded : load image settings entropy = .ok loaded)
    (run : ReachesTamely { loaded with input, output, log } after) :
    after.writable = loaded.writable ∧
      (∀ x, (∀ region ∈ loaded.writable, region.Misses x) →
        after.memory.getByte x = Memory.getByte ⟨image⟩ x) ∧
      ∀ range : Region, (∀ region ∈ loaded.writable, range.Apart region) →
        after.memory.slice range.start range.length =
          Memory.slice ⟨image⟩ range.start range.length := by
  have confined := run.confined (load_placed isLoaded input output log)
  have size : after.memory.size = Memory.size ⟨image⟩ := by
    rw [confined.size, ← load_memory isLoaded]
  have bytes (x : Nat) (misses : ∀ region ∈ loaded.writable, region.Misses x) :
      after.memory.getByte x = Memory.getByte ⟨image⟩ x := by
    rw [← load_memory isLoaded]
    exact confined.getByte rfl x misses
  refine ⟨confined.writable_eq, bytes, ?_⟩
  intro range apart
  apply Memory.slice_congr size
  intro i h
  refine bytes _ fun region member => ?_
  have apart := apart region member
  simp only [Region.Apart] at apart
  simp only [Region.Misses]
  omega

theorem tame_run_writes_tables_sample : ∃ loaded after : Machine,
    load faultyStory {} (.ofSeed 0) = .ok loaded ∧
      ReachesTamely { loaded with input := [], log := {} } after ∧
      after.globals.get 0 = .ok 5 ∧ (∀ region ∈ loaded.writable, region.Misses 0x272) ∧
      after.memory.getByte 0x272 = Memory.getByte ⟨faultyStory⟩ 0x272 := by
  obtain ⟨loaded, after, _, _, _, _, _, isLoaded, tame, misses, stepped, written, -⟩ :=
    faultyStory_runs
  have run : ReachesTamely { loaded with input := [], log := {} } after :=
    .single ⟨tame, leaves_of_ok stepped⟩
  obtain ⟨-, bytes, -⟩ := tame_run_writes_tables isLoaded run
  exact ⟨loaded, after, isLoaded, run, written, misses, bytes 0x272 misses⟩

/-! ## What a fault leaves behind -/

theorem nextInstruction_fault_pc {fault : Fault}
    (failed : machine.nextInstruction = .error fault) : fault.pc = machine.pc := by
  simp only [nextInstruction] at failed
  grind

/-- A fault names the address of the instruction. -/
theorem step_fault_pc {fault : Fault} (failed : step machine = .error fault after) :
    fault.pc = machine.pc := by
  simp only [step] at failed
  cases next : machine.nextInstruction with
  | error found =>
      rw [next] at failed
      cases failed
      exact nextInstruction_fault_pc next
  | ok pair =>
      rw [next] at failed
      dsimp only at failed
      split at failed
      next =>
        cases failed
        rfl
      next =>
        split at failed
        next => cases failed
        next =>
          cases failed
          rfl

/-- A fault of an operation has a cause that arises in operations. -/
theorem step_fault_arises {fault : Fault} {instruction : Instruction} {opcode : Opcode}
    (next : machine.nextInstruction = .ok (instruction, opcode))
    (failed : step machine = .error fault after) : fault.cause.Arises := by
  rcases step_eq_error failed with ⟨none, -⟩ | ⟨instruction, opcode, -, ⟨cause, -⟩ | run⟩
  · rw [next] at none
    cases none
  · rw [cause]
    trivial
  · exact (execute_blind {} opcode instruction.operands fun _ => ⟨rfl, rfl⟩).fails _ _ _ run

/-- A step that finds nothing to execute changes nothing. -/
theorem step_of_no_instruction {fault found : Fault}
    (next : machine.nextInstruction = .error found)
    (failed : step machine = .error fault after) : after = machine := by
  rcases step_eq_error failed with ⟨-, same⟩ | ⟨_, _, next', -⟩
  · exact same
  · rw [next] at next'
    cases next'

theorem opcode_of_nextInstruction {instruction : Instruction} {opcode : Opcode}
    (next : machine.nextInstruction = .ok (instruction, opcode)) :
    instruction.opcode = .ok opcode := by
  simp only [nextInstruction] at next
  grind

/-- An atomic operation that fails has written nothing. -/
theorem step_fault_unwritten {fault : Fault} {instruction : Instruction} {opcode : Opcode}
    (placed : machine.Placed)
    (decoded : Instruction.decode machine.memory machine.pc = .ok instruction)
    (named : instruction.opcode = .ok opcode) (whole : opcode.mayBreakOff = false)
    (failed : step machine = .error fault after) : Unwritten machine after := by
  rcases step_eq_error failed with ⟨-, rfl⟩ | ⟨_, _, next, ⟨-, rfl⟩ | run⟩
  · exact .refl _
  · exact .of_parts ..
  · cases decoded.symm.trans (decode_of_nextInstruction next)
    cases named.symm.trans (opcode_of_nextInstruction next)
    have begun := machine.begun_unwritten instruction opcode
    have settled := execute_atomic whole instruction.operands _ (begun.placed placed)
    rw [run] at settled
    cases settled with
    | failed unwritten => exact begun.trans unwritten

/-- What a fault leaves behind, in every machine that a story reaches.  It names the
address of the instruction.  If the budget is used up, or no instruction or operation
is found, nothing at all has changed.  And if an operation failed, then unless it is
one of those that may break off, nothing has changed but the frames, the count, the
random numbers, the output and the log. -/
theorem fault_leaves {image : Array UInt8} {settings : Settings} {entropy : Entropy}
    {input : List InputLine} {output : Output} {log : Log} {loaded machine after : Machine}
    {fault : Fault}
    (isLoaded : load image settings entropy = .ok loaded)
    (reached : Reaches { loaded with input, output, log } machine)
    (failed : step machine = .error fault after) :
    fault.pc = machine.pc ∧
      ((∃ limit, fault.cause = .instructionLimit limit) ∨
          (∃ pc byte, fault.cause = .undecodable pc byte) ∨
          (∃ arity number, fault.cause = .unimplemented arity number) ∨
          (∃ cause, Instruction.decode machine.memory machine.pc = .error cause) →
        after = machine) ∧
      ∀ instruction opcode, Instruction.decode machine.memory machine.pc = .ok instruction →
        instruction.opcode = .ok opcode → opcode.mayBreakOff = false →
        ∃ calls count generator entropy output log,
          after = { machine with calls, count, generator, entropy, output, log } := by
  refine ⟨step_fault_pc failed, ?_, ?_⟩
  · intro early
    cases next : machine.nextInstruction with
    | error found => exact step_of_no_instruction next failed
    | ok pair =>
        obtain ⟨instruction, opcode⟩ := pair
        have arises := step_fault_arises next failed
        rcases early with ⟨limit, cause⟩ | ⟨pc, byte, cause⟩ | ⟨arity, number, cause⟩ | ⟨cause, undecoded⟩
        · rw [cause] at arises
          cases arises
        · rw [cause] at arises
          cases arises
        · rw [cause] at arises
          cases arises
        · rw [(decode_of_nextInstruction next)] at undecoded
          cases undecoded
  · intro instruction opcode decoded named whole
    have start := load_placed isLoaded input output log
    have placed := (reached.confined start).placed start
    have status := (step_failed failed).2
    obtain ⟨calls, output, generator, entropy, _, count, log, rfl⟩ :=
      step_fault_unwritten placed decoded named whole failed
    cases status
    exact ⟨calls, count, generator, entropy, output, log, rfl⟩

theorem fault_leaves_sample : ∃ (loaded machine after : Machine) (fault : Fault),
    load faultyStory {} (.ofSeed 0) = .ok loaded ∧
      Reaches { loaded with input := [], log := {} } machine ∧
      step machine = .error fault after ∧ machine.globals.get 0 = .ok 5 ∧
      fault.cause = .missingProperty 1 9 ∧ fault.pc = machine.pc ∧
      ∃ calls count generator entropy output log,
        after = { machine with calls, count, generator, entropy, output, log } := by
  obtain ⟨loaded, machine, after, _, instruction, opcode, fault, isLoaded, -, -, stepped, written,
    ⟨next, whole⟩, failed, cause⟩ := faultyStory_runs
  have reached : Reaches { loaded with input := [], log := {} } machine :=
    .single (leaves_of_ok stepped)
  obtain ⟨pc, -, unwritten⟩ := fault_leaves isLoaded reached failed
  exact ⟨loaded, machine, after, fault, isLoaded, reached, failed, written, cause, pc,
    unwritten instruction opcode (decode_of_nextInstruction next)
      (opcode_of_nextInstruction next) whole⟩

end Machine

end StoryMachine
