import StoryMachine.Proofs.Machine.Isolation

/-!
# What actions leave alone

A local action that fails has done part of what it does.  Still it changes only
the running frame, never moves it back, and leaves the count, the status and the
settings as they are (`Local.steady`).

What an operation as a whole leaves alone depends on its outcome, and is said
here once for each way in which an operation ends (`execute_told`).
-/

namespace StoryMachine

namespace Machine

variable {machine middle after : Machine} {α β : Type}

/-! ## Actions that fail -/

@[simp] theorem ask_eq_error {question : Machine → Except Error α} {e : Error} :
    ask question machine = .error e after ↔ question machine = .error e ∧ after = machine := by
  simp only [ask]
  cases question machine with
  | ok b => simp
  | error e => simp [eq_comm]

theorem frame_eq_error {e : Error} (run : frame machine = .error e after) : after = machine :=
  (ask_eq_error.1 run).2

/-- A change of the running frame is made as a whole or not at all. -/
theorem onFrame_eq_error {change : Frame → Except Error (α × Frame)} {e : Error}
    (run : onFrame change machine = .error e after) : after = machine := by
  simp only [onFrame, bind_eq_error, frame_eq_ok] at run
  rcases run with noFrame | ⟨running, _, ⟨-, rfl⟩, run⟩
  · exact frame_eq_error noFrame
  · cases result : change running with
    | ok pair =>
        obtain ⟨a, changed⟩ := pair
        rw [result] at run
        cases run
    | error e =>
        rw [result] at run
        cases run
        rfl

theorem fetchByte_eq_error {e : Error} (run : fetchByte machine = .error e after) :
    after = machine := by
  simp only [fetchByte, bind_eq_error, frame_eq_ok, ask_eq_ok, ask_eq_error] at run
  rcases run with noFrame | ⟨_, _, ⟨-, rfl⟩, ⟨-, rfl⟩ | ⟨_, _, ⟨-, rfl⟩, unmoved | ⟨_, _, -, no⟩⟩⟩
  · exact frame_eq_error noFrame
  · rfl
  · exact onFrame_eq_error unmoved
  · cases no

theorem jumpBy_eq_error {offset : Int} {e : Error}
    (run : jumpBy offset machine = .error e after) : after = machine := by
  simp only [jumpBy, bind_eq_error, frame_eq_ok] at run
  rcases run with noFrame | ⟨_, _, ⟨-, rfl⟩, run⟩
  · exact frame_eq_error noFrame
  · split at run
    next => exact (ask_eq_error.1 run).2
    next => exact onFrame_eq_error run

/-- An inline text that is not found changes only the log.  If it is found and the sink
refuses it, the running frame has moved past it. -/
theorem printInline_eq_error {e : Error} (run : printInline machine = .error e after) :
    (∃ log, after = { machine with log }) ∨
      ∃ running below text stop reason log, machine.calls = running :: below ∧
        Packed.decodeAt machine.memory running.pc machine.abbreviations.get = .ok (text, stop) ∧
        machine.output.reception = .refused reason ∧ e = .inputOutput reason ∧
        after = { machine with
          calls := { running with pc := stop } :: below
          output := machine.output.refuse
          log } := by
  simp only [printInline, textAt, bind_eq_error, bind_eq_ok, frame_eq_ok, narrate_eq_ok, ask_eq_ok,
    ask_eq_error] at run
  rcases run with noFrame | ⟨running, _, ⟨⟨below, calls⟩, rfl⟩, (no | ⟨_, _, rfl, -, rfl⟩) |
    ⟨⟨text, stop⟩, _, ⟨_, _, rfl, decoded, rfl⟩, unmoved | ⟨_, _, moved, unprinted⟩⟩⟩
  · exact .inl ⟨machine.log, frame_eq_error noFrame⟩
  · cases no
  · exact .inl ⟨_, rfl⟩
  · exact .inl ⟨_, onFrame_eq_error unmoved⟩
  · obtain ⟨running', below', calls', rfl⟩ := setPc_eq_ok.1 moved
    obtain ⟨reason, refused, rfl, rfl⟩ := print_eq_error.1 unprinted
    cases calls.symm.trans calls'
    exact .inr ⟨running, below, text, stop, reason, _, calls, decoded, refused, rfl, rfl⟩

/-- A return fails only when there is a caller in which its value cannot be stored. -/
theorem returnValue_eq_error {value : UInt16} {e : Error}
    (run : returnValue value machine = .error e after) :
    machine.calls.tail ≠ [] ∧ ∃ log,
      storeResult value { machine with calls := machine.calls.tail, log } = .error e after := by
  simp only [returnValue, popFrame, note] at run
  simp only [bind_eq_error, get_ne_error, modify_ne_error, false_or, get_eq_ok, modify_eq_ok] at run
  obtain ⟨_, _, ⟨rfl, rfl⟩, _, _, rfl, _, _, rfl, _, _, ⟨rfl, rfl⟩, run⟩ := run
  split at run
  next => cases run
  next nonempty =>
    rcases bind_eq_error.1 run with unstored | ⟨_, _, -, no⟩
    · exact ⟨fun empty => nonempty (List.isEmpty_iff.2 empty), _, unstored⟩
    · cases no

/-! ## Steady actions -/

/-- A machine has become another with the same count, status and settings. -/
structure Alike (machine after : Machine) : Prop where
  count : after.count = machine.count
  status : after.status = machine.status
  settings : after.settings = machine.settings

namespace Alike

theorem refl (machine : Machine) : Alike machine machine := ⟨rfl, rfl, rfl⟩

theorem trans (first : Alike machine middle) (second : Alike middle after) :
    Alike machine after where
  count := second.count.trans first.count
  status := second.status.trans first.status
  settings := second.settings.trans first.settings

end Alike

/-- A machine has become another like it without leaving its running frame or
moving it back. -/
structure Steady (machine after : Machine) : Prop extends Alike machine after where
  calls : OnTop machine.calls after.calls
  pc : machine.pc ≤ after.pc

namespace Steady

theorem refl (machine : Machine) : Steady machine machine where
  toAlike := .refl machine
  calls := .refl _
  pc := Nat.le_refl _

theorem trans (first : Steady machine middle) (second : Steady middle after) :
    Steady machine after where
  toAlike := first.toAlike.trans second.toAlike
  calls := first.calls.trans second.calls
  pc := Nat.le_trans first.pc second.pc

/-- Whatever happens to the memory, the tables, the output, the input, the random
numbers and the log is steady. -/
theorem of_parts (machine : Machine) (memory : Memory) (objects : ObjectTable) (globals : Globals)
    (output : Output) (input : List InputLine) (generator : Generator) (entropy : Entropy)
    (log : Log) :
    Steady machine
      { machine with memory, objects, globals, output, input, generator, entropy, log } where
  toAlike := ⟨rfl, rfl, rfl⟩
  calls := .refl _
  pc := Nat.le_refl _

/-- So is what happens to the running frame, as long as it does not go back. -/
theorem of_running {running changed : Frame} {below : CallStack}
    (calls : machine.calls = running :: below) (routine : changed.routine = running.routine)
    (forward : running.pc ≤ changed.pc) :
    Steady machine { machine with calls := changed :: below } where
  toAlike := ⟨rfl, rfl, rfl⟩
  calls := by
    rw [calls]
    exact .some below routine
  pc := by
    rw [Machine.pc, calls]
    exact forward

end Steady

/-- An action whose end is steady, whether it succeeds or fails. -/
def IsSteady (action : Action α) : Prop := ∀ machine, Steady machine (leaves action machine)

end Machine

/-- A text does not end before it starts. -/
theorem Packed.le_of_decodeAt {memory : Memory} {address stop : Nat} {expand : Nat → String}
    {text : String} (decoded : decodeAt memory address expand = .ok (text, stop)) :
    address ≤ stop := by
  simp only [decodeAt, read] at decoded
  split at decoded
  next =>
    cases decoded
    exact Nat.le_add_right _ _
  next => cases decoded

namespace Machine

/-- Moving past the text after an instruction is steady, whatever becomes of the text. -/
theorem Steady.past_text {running : Frame} {below : CallStack} {text : String} {stop : Nat}
    (calls : machine.calls = running :: below)
    (decoded : Packed.decodeAt machine.memory running.pc machine.abbreviations.get =
      .ok (text, stop))
    (output : Output) (log : Log) :
    Steady machine
      { machine with calls := { running with pc := stop } :: below, output, log } := by
  have moved : Steady machine { machine with calls := { running with pc := stop } :: below } :=
    .of_running calls rfl (Packed.le_of_decodeAt decoded)
  exact moved.trans (.of_parts ..)

namespace IsSteady

theorem bind {first : Action α} {next : α → Action β} (steady : IsSteady first)
    (rest : ∀ a, IsSteady (next a)) : IsSteady (first >>= next) := by
  intro machine
  rcases leaves_bind first next machine with same | ⟨a, same⟩
  · rw [same]
    exact steady machine
  · rw [same]
    exact (steady machine).trans (rest a _)

theorem refl {action : Action α} (same : ∀ machine, leaves action machine = machine) :
    IsSteady action := by
  intro machine
  rw [same machine]
  exact .refl machine

theorem ask (question : Machine → Except Error α) : IsSteady (ask question) := by
  refine .refl ?_
  intro machine
  cases answer : question machine with
  | ok a => simp only [leaves, Machine.ask, answer]
  | error e => simp only [leaves, Machine.ask, answer]

theorem onMemory (update : Memory.Update α) : IsSteady (onMemory update) := by
  intro machine
  cases updated : update machine.memory with
  | ok a memory =>
      simp only [leaves, Machine.onMemory, updated]
      exact .of_parts ..
  | error e memory =>
      simp only [leaves, Machine.onMemory, updated]
      exact .of_parts ..

theorem onObjects (edit : ObjectStore.Edit α) : IsSteady (onObjects edit) := by
  intro machine
  cases edited : edit { memory := machine.memory, table := machine.objects } with
  | ok a store =>
      simp only [leaves, Machine.onObjects, edited]
      exact .of_parts ..
  | error e store =>
      simp only [leaves, Machine.onObjects, edited]
      exact .of_parts ..

theorem setGlobal (index : UInt8) (value : UInt16) : IsSteady (setGlobal index value) :=
  .bind (fun machine => .refl machine) fun _ => .bind (onMemory _) fun _ _ => .of_parts ..

theorem refresh (address count : Nat) : IsSteady (refresh address count) :=
  .bind (.bind (ask _) fun _ _ => .of_parts ..) fun _ =>
    .bind (fun _ => .of_parts ..) fun _ => .bind (ask _) fun _ _ => .of_parts ..

theorem overwrite (address : Nat) (length : α → Nat) (update : Memory.Update α) :
    IsSteady (overwrite address length update) :=
  .bind (onMemory update) fun a => .bind (refresh address (length a)) fun _ machine => .refl machine

theorem readLine : IsSteady readLine := by
  refine .bind (fun machine => .refl machine) ?_
  intro asked
  split
  next => exact fun machine => .refl machine
  next =>
    refine .bind (fun _ => .of_parts ..) ?_
    intro _
    split
    next => exact fun machine => .refl machine
    next => exact fun machine => .refl machine

theorem onFrame {change : Frame → Except Error (α × Frame)}
    (keeps : ∀ running a changed, change running = .ok (a, changed) →
      changed.pc = running.pc ∧ changed.routine = running.routine) :
    IsSteady (onFrame change) := by
  intro machine
  cases run : Machine.onFrame change machine with
  | ok a after =>
      obtain ⟨running, below, changed, calls, changes, rfl⟩ := onFrame_eq_ok.1 run
      obtain ⟨pc, routine⟩ := keeps running a changed changes
      rw [leaves_of_ok run]
      exact .of_running calls routine (Nat.le_of_eq pc.symm)
  | error e after =>
      rw [leaves_of_error run, onFrame_eq_error run]
      exact .refl machine

theorem fetchByte : IsSteady fetchByte := by
  intro machine
  cases run : Machine.fetchByte machine with
  | ok byte after =>
      obtain ⟨running, below, calls, -, rfl⟩ := fetchByte_eq_ok.1 run
      rw [leaves_of_ok run]
      exact .of_running calls rfl (Nat.le_succ _)
  | error e after =>
      rw [leaves_of_error run, fetchByte_eq_error run]
      exact .refl machine

theorem print (text : String) : IsSteady (print text) := by
  intro machine
  obtain ⟨_, left⟩ := leaves_print text machine
  rw [left]
  exact .of_parts ..

theorem printInline : IsSteady printInline := by
  intro machine
  cases run : Machine.printInline machine with
  | ok u after =>
      obtain ⟨running, below, text, stop, log, calls, decoded, -, rfl⟩ := printInline_eq_ok run
      rw [leaves_of_ok run]
      exact .past_text calls decoded _ log
  | error e after =>
      rw [leaves_of_error run]
      rcases printInline_eq_error run with
        ⟨log, rfl⟩ | ⟨running, below, text, stop, _, log, calls, decoded, -, -, rfl⟩
      · exact .of_parts ..
      · exact .past_text calls decoded _ log

end IsSteady

/-- A local action is steady, whether it succeeds or fails. -/
theorem Local.steady {action : Action α} (isLocal : Local action) : IsSteady action := by
  induction isLocal with
  | pure a => exact .refl fun _ => rfl
  | throw e => exact .refl fun _ => rfl
  | bind _ _ ihFirst ihNext => exact .bind ihFirst ihNext
  | get => exact .refl fun _ => rfl
  | ask question => exact .ask question
  | note level text => exact fun _ => .of_parts ..
  | narrate level texts => exact fun _ => .of_parts ..
  | print text => exact .print text
  | readLine => exact .readLine
  | onGenerator draw => exact fun _ => .of_parts ..
  | randomize => exact fun _ => .of_parts ..
  | onFrame keeps => exact .onFrame keeps
  | fetchByte => exact .fetchByte
  | printInline => exact .printInline
  | setGlobal index value => exact .setGlobal index value
  | insert number destination => exact .onObjects _
  | remove number => exact .onObjects _
  | setAttribute number flag value => exact .onObjects _
  | setProperty number property value => exact .onObjects _
  | overwrite within => exact .overwrite _ _ _

/-! ## What outcomes tell -/

/-- What the result of an operation tells of the machine before and after it.
Only an operation that halts changes the status, and then it leaves no frame
but the last. -/
inductive Told (machine : Machine) : EStateM.Result Error Machine Outcome → Prop where
  | failed {e : Error} {after : Machine} : Alike machine after → Told machine (.error e after)
  | continued {after : Machine} : Steady machine after → Told machine (.ok .continued after)
  | elsewhere {outcome : Outcome} {after : Machine} :
      outcome ≠ .continued → outcome ≠ .halted → Alike machine after →
      Told machine (.ok outcome after)
  | halted {after : Machine} :
      after.status = .halted → after.count = machine.count → after.settings = machine.settings →
      (OnTop machine.calls after.calls ∨ machine.calls.tail = [] ∧ after.calls = []) →
      Told machine (.ok .halted after)

theorem Told.of_steady {result : EStateM.Result Error Machine Outcome}
    (steady : Steady machine middle) (told : Told middle result) : Told machine result := by
  cases told with
  | failed alike => exact .failed (steady.toAlike.trans alike)
  | continued rest => exact .continued (steady.trans rest)
  | elsewhere goes ends alike => exact .elsewhere goes ends (steady.toAlike.trans alike)
  | halted status count settings calls =>
      refine .halted status (count.trans steady.count) (settings.trans steady.settings) ?_
      rcases calls with onTop | ⟨last, empty⟩
      · exact .inl (steady.calls.trans onTop)
      · rw [steady.calls.tail] at last
        exact .inr ⟨last, empty⟩

theorem Told.tally {outcome : Outcome} (told : Told machine (.ok outcome after)) :
    after.count = machine.count ∧ after.settings = machine.settings := by
  cases told with
  | continued steady => exact ⟨steady.count, steady.settings⟩
  | elsewhere _ _ alike => exact ⟨alike.count, alike.settings⟩
  | halted _ count settings => exact ⟨count, settings⟩

/-- An operation all of whose results are told. -/
def Tells (operation : Action Outcome) : Prop := ∀ machine, Told machine (operation machine)

theorem Tells.bind {first : Action α} {next : α → Action Outcome} (steady : IsSteady first)
    (rest : ∀ a, Tells (next a)) : Tells (first >>= next) := by
  intro machine
  have steady := steady machine
  show Told machine (EStateM.bind first next machine)
  cases run : first machine with
  | ok a middle =>
      rw [leaves_of_ok run] at steady
      simp only [EStateM.bind, run]
      exact .of_steady steady (rest a middle)
  | error e middle =>
      rw [leaves_of_error run] at steady
      simp only [EStateM.bind, run]
      exact .failed steady.toAlike

theorem Tells.throw (e : Error) : Tells (throw e) := fun machine => .failed (.refl machine)

theorem Tells.continued : Tells (pure .continued) := fun machine => .continued (.refl machine)

theorem Tells.halt : Tells halt := fun _ => .halted rfl rfl rfl (.inl (.refl _))

theorem Tells.jump (offset : Int) : Tells (do jumpBy offset; return .branched) := by
  intro machine
  cases run : (do jumpBy offset; return Outcome.branched : Action Outcome) machine with
  | ok outcome after =>
      simp only [bind_eq_ok, pure_eq_ok] at run
      obtain ⟨_, _, jumped, rfl, rfl⟩ := run
      obtain ⟨_, _, -, -, rfl⟩ := jumpBy_eq_ok jumped
      exact .elsewhere Outcome.noConfusion Outcome.noConfusion ⟨rfl, rfl, rfl⟩
  | error e after =>
      rcases bind_eq_error.1 run with unmoved | ⟨_, _, -, no⟩
      · rw [jumpBy_eq_error unmoved]
        exact .failed (.refl machine)
      · cases no

theorem Tells.enter (routine : Nat) (arguments : List UInt16) (level : Level)
    (texts : Machine → List String) :
    Tells (do
      let entered ← ask fun machine => Frame.call machine.memory routine arguments
      narrate level texts
      pushFrame entered
      return .called) :=
  .bind (.ask _) fun _ _ => .elsewhere Outcome.noConfusion Outcome.noConfusion ⟨rfl, rfl, rfl⟩

theorem Tells.returnValue (value : UInt16) : Tells (returnValue value) := by
  intro machine
  have stored := (storeResult_local value).steady
  cases run : Machine.returnValue value machine with
  | ok outcome after =>
      obtain ⟨log, ⟨last, rfl, rfl⟩ | ⟨-, rfl, store⟩⟩ := returnValue_eq_ok run
      · exact .halted rfl rfl rfl (.inr ⟨last, rfl⟩)
      · have alike := (stored { machine with calls := machine.calls.tail, log }).toAlike
        rw [leaves_of_ok store] at alike
        exact .elsewhere Outcome.noConfusion Outcome.noConfusion
          ⟨alike.count, alike.status, alike.settings⟩
  | error e after =>
      obtain ⟨-, log, store⟩ := returnValue_eq_error run
      have alike := (stored { machine with calls := machine.calls.tail, log }).toAlike
      rw [leaves_of_error store] at alike
      exact .failed ⟨alike.count, alike.status, alike.settings⟩

theorem Tells.branchOn (condition : Bool) : Tells (branchOn condition) := by
  refine .bind fetchBranch_local.steady ?_
  intro branch
  split
  next => exact .continued
  next =>
    split
    next => exact .returnValue 0
    next =>
      split
      next => exact .returnValue 1
      next => exact .jump _

theorem Straight.tells {operation : Action Outcome} (isStraight : Straight operation) :
    Tells operation := by
  induction isStraight with
  | bind isLocal _ ih => exact .bind isLocal.steady ih
  | throw e => exact .throw e
  | continued => exact .continued
  | jump offset => exact .jump offset
  | halt => exact .halt
  | enter routine arguments level texts => exact .enter routine arguments level texts

/-- The result of every operation is told. -/
theorem execute_told (opcode : Opcode) (operands : List Operand) (machine : Machine) :
    Told machine (opcode.execute operands machine) := by
  have described := opcode.execute_ending operands
  cases ending : opcode.ending operands with
  | leave result =>
      rw [ending] at described
      rw [described.2]
      exact Tells.bind described.1.steady Tells.returnValue machine
  | branch condition =>
      rw [ending] at described
      rw [described.2]
      exact Tells.bind described.1.steady Tells.branchOn machine
  | straight =>
      rw [ending] at described
      exact Straight.tells described machine

/-! ## Steps -/

theorem step_told {outcome : Outcome} (step : Machine.step machine = .ok outcome after) :
    ∃ instruction opcode, machine.nextInstruction = .ok (instruction, opcode) ∧
      machine.calls ≠ [] ∧ Told (machine.begun instruction opcode) (.ok outcome after) := by
  obtain ⟨instruction, opcode, next, nonempty, run⟩ := step_eq_ok.1 step
  refine ⟨instruction, opcode, next, nonempty, ?_⟩
  rw [← run]
  exact execute_told opcode instruction.operands _

/-- A step that succeeds counts one instruction. -/
theorem step_tally {outcome : Outcome} (step : Machine.step machine = .ok outcome after) :
    after.count = machine.count + 1 ∧ after.settings = machine.settings := by
  obtain ⟨instruction, opcode, -, -, told⟩ := step_told step
  exact told.tally

/-- A story goes on until a step says that it is over. -/
theorem step_status {outcome : Outcome} (step : Machine.step machine = .ok outcome after) :
    after.status = if outcome = .halted then .halted else machine.status := by
  obtain ⟨instruction, opcode, -, -, told⟩ := step_told step
  cases told with
  | continued steady => exact steady.status
  | elsewhere _ goes alike =>
      rw [if_neg goes]
      exact alike.status
  | halted status => exact status

/-- A step that fails counts at most one instruction, and leaves the status. -/
theorem step_failed {fault : Fault} (step : Machine.step machine = .error fault after) :
    after.count ≤ machine.count + 1 ∧ after.status = machine.status := by
  rcases step_eq_error step with ⟨-, rfl⟩ | ⟨instruction, opcode, -, ⟨-, rfl⟩ | run⟩
  · exact ⟨Nat.le_succ _, rfl⟩
  · exact ⟨Nat.le_refl _, rfl⟩
  · have told := execute_told opcode instruction.operands (machine.begun instruction opcode)
    rw [run] at told
    cases told with
    | failed alike => exact ⟨Nat.le_of_eq alike.count, alike.status⟩

end Machine

end StoryMachine
