import StoryMachine.Proofs.Machine.Step
import StoryMachine.Proofs.Table.Agreement

/-!
# Calls do not disturb their callers

A local action changes the running frame and no other (`Local.onTop`).  A step
therefore changes the running frame, enters one frame on top of it, or leaves it
and changes the caller (`step_shifts`).  While a routine and the routines it
calls run, the frames below stay as they are, and only the return touches the
caller: it moves past one byte and stores the value in the variable that this
byte names.
-/

namespace StoryMachine

/-! ## Changes of the running frame -/

/-- Two call stacks differ in the running frame at most, and it runs the same
routine. -/
inductive OnTop : CallStack → CallStack → Prop where
  | none : OnTop [] []
  | some {running changed : Frame} (below : CallStack) :
      changed.routine = running.routine → OnTop (running :: below) (changed :: below)

namespace OnTop

theorem refl : ∀ calls : CallStack, OnTop calls calls
  | [] => .none
  | _ :: below => .some below rfl

theorem trans {calls middle after : CallStack} (first : OnTop calls middle)
    (second : OnTop middle after) : OnTop calls after := by
  cases first with
  | none => exact second
  | some below same =>
      cases second with
      | some _ same' => exact .some below (same'.trans same)

theorem tail {calls after : CallStack} (onTop : OnTop calls after) : after.tail = calls.tail := by
  cases onTop with
  | none => rfl
  | some below same => rfl

theorem length {calls after : CallStack} (onTop : OnTop calls after) :
    after.length = calls.length := by
  cases onTop with
  | none => rfl
  | some below same => rfl

theorem ne_nil {calls after : CallStack} (onTop : OnTop calls after) (nonempty : calls ≠ []) :
    after ≠ [] := by
  cases onTop with
  | none => exact nonempty
  | some below same => exact List.cons_ne_nil _ _

end OnTop

namespace Machine

variable {machine after : Machine}

/-- A local action changes the running frame only. -/
theorem Local.onTop {α : Type} {action : Action α} (isLocal : Local action) :
    ∀ {a : α} {machine after : Machine}, action machine = .ok a after →
      OnTop machine.calls after.calls := by
  induction isLocal with
  | pure b =>
      intro a machine after run
      cases run
      exact .refl _
  | throw e =>
      intro a machine after run
      exact absurd run throw_ne_ok
  | bind _ _ ihFirst ihNext =>
      intro b machine after run
      obtain ⟨a, middle, first, next⟩ := bind_eq_ok.1 run
      exact (ihFirst first).trans (ihNext a next)
  | get =>
      intro a machine after run
      cases run
      exact .refl _
  | ask question =>
      intro a machine after run
      obtain ⟨-, rfl⟩ := ask_eq_ok.1 run
      exact .refl _
  | note level text =>
      intro a machine after run
      cases run
      exact .refl _
  | narrate level texts =>
      intro a machine after run
      cases run
      exact .refl _
  | print text =>
      intro a machine after run
      obtain ⟨-, rfl⟩ := print_eq_ok.1 run
      exact .refl _
  | readLine =>
      intro a machine after run
      rcases readLine_eq_ok.1 run with ⟨-, -, rfl⟩ | ⟨_, _, -, -, rfl⟩
      · exact .refl _
      · exact .refl _
  | onGenerator draw =>
      intro a machine after run
      cases run
      exact .refl _
  | randomize =>
      intro a machine after run
      cases run
      exact .refl _
  | onFrame keeps =>
      intro a machine after run
      obtain ⟨running, below, changed, calls, change, rfl⟩ := onFrame_eq_ok.1 run
      rw [calls]
      exact .some below (keeps running a changed change).2
  | fetchByte =>
      intro a machine after run
      obtain ⟨running, below, calls, -, rfl⟩ := fetchByte_eq_ok.1 run
      rw [calls]
      exact .some below rfl
  | printInline =>
      intro a machine after run
      obtain ⟨running, below, _, _, _, calls, -, -, rfl⟩ := printInline_eq_ok run
      rw [calls]
      exact .some below rfl
  | setGlobal index value =>
      intro a machine after run
      obtain ⟨_, _, -, rfl⟩ := setGlobal_eq_ok.1 run
      exact .refl _
  | insert number destination =>
      intro a machine after run
      obtain ⟨_, -, rfl⟩ := onObjects_eq_ok.1 run
      exact .refl _
  | remove number =>
      intro a machine after run
      obtain ⟨_, -, rfl⟩ := onObjects_eq_ok.1 run
      exact .refl _
  | setAttribute number flag value =>
      intro a machine after run
      obtain ⟨_, -, rfl⟩ := onObjects_eq_ok.1 run
      exact .refl _
  | setProperty number property value =>
      intro a machine after run
      obtain ⟨_, -, rfl⟩ := onObjects_eq_ok.1 run
      exact .refl _
  | overwrite within =>
      intro a machine after run
      obtain ⟨_, _, _, _, -, -, -, rfl⟩ := overwrite_eq_ok run
      exact .refl _

/-! ## What a step does to the call stack -/

/-- A call stack becomes another by a step with an outcome. -/
inductive Shifts (calls : CallStack) : Outcome → CallStack → Prop where
  | continued {after : CallStack} : OnTop calls after → Shifts calls .continued after
  | branched {after : CallStack} : OnTop calls after → Shifts calls .branched after
  | halted {after : CallStack} : OnTop calls after → Shifts calls .halted after
  | finished : Shifts calls .halted []
  | called {after : CallStack} (entered : Frame) :
      OnTop calls after → Shifts calls .called (entered :: after)
  | returned {after : CallStack} (value : UInt16) :
      calls.tail ≠ [] → OnTop calls.tail after → Shifts calls (.returned value) after

theorem Shifts.of_onTop {calls middle after : CallStack} {outcome : Outcome}
    (onTop : OnTop calls middle) (shifts : Shifts middle outcome after) :
    Shifts calls outcome after := by
  cases shifts with
  | continued rest => exact .continued (onTop.trans rest)
  | branched rest => exact .branched (onTop.trans rest)
  | halted rest => exact .halted (onTop.trans rest)
  | finished => exact .finished
  | called entered rest => exact .called entered (onTop.trans rest)
  | returned value nonempty rest =>
      rw [onTop.tail] at nonempty rest
      exact .returned value nonempty rest

theorem jumpBy_onTop {offset : Int} {u : Unit} (run : jumpBy offset machine = .ok u after) :
    OnTop machine.calls after.calls := by
  obtain ⟨running, below, calls, -, rfl⟩ := jumpBy_eq_ok run
  rw [calls]
  exact .some below rfl

theorem returnValue_shifts {value : UInt16} {outcome : Outcome}
    (run : returnValue value machine = .ok outcome after) :
    Shifts machine.calls outcome after.calls := by
  obtain ⟨log, ⟨-, rfl, rfl⟩ | ⟨nonempty, rfl, stored⟩⟩ := returnValue_eq_ok run
  · exact .finished
  · exact .returned value nonempty ((storeResult_local value).onTop stored)

theorem branchOn_shifts {condition : Bool} {outcome : Outcome}
    (run : branchOn condition machine = .ok outcome after) :
    Shifts machine.calls outcome after.calls := by
  obtain ⟨branch, middle, fetched, ending⟩ := branchOn_eq_ok run
  refine .of_onTop (fetchBranch_local.onTop fetched) ?_
  rcases ending with ⟨value, -, returned⟩ | ⟨-, rfl, rfl⟩ | ⟨-, rfl, jumped⟩
  · exact returnValue_shifts returned
  · exact .continued (.refl _)
  · exact .branched (jumpBy_onTop jumped)

theorem Straight.shifts {operation : Action Outcome} (isStraight : Straight operation) :
    ∀ {machine after : Machine} {outcome : Outcome}, operation machine = .ok outcome after →
      Shifts machine.calls outcome after.calls := by
  induction isStraight with
  | bind isLocal _ ih =>
      intro machine after outcome run
      obtain ⟨a, middle, first, rest⟩ := bind_eq_ok.1 run
      exact .of_onTop (isLocal.onTop first) (ih a rest)
  | throw e =>
      intro machine after outcome run
      exact absurd run throw_ne_ok
  | continued =>
      intro machine after outcome run
      cases run
      exact .continued (.refl _)
  | jump offset =>
      intro machine after outcome run
      simp only [bind_eq_ok, pure_eq_ok] at run
      obtain ⟨_, _, jumped, rfl, rfl⟩ := run
      exact .branched (jumpBy_onTop jumped)
  | halt =>
      intro machine after outcome run
      obtain ⟨rfl, rfl⟩ := halt_eq_ok.1 run
      exact .halted (.refl _)
  | enter routine arguments level texts =>
      intro machine after outcome run
      simp only [bind_eq_ok, ask_eq_ok, narrate_eq_ok, pushFrame_eq_ok, pure_eq_ok] at run
      obtain ⟨entered, _, ⟨-, rfl⟩, _, _, rfl, _, _, rfl, rfl, rfl⟩ := run
      exact .called entered (.refl _)

theorem execute_shifts {opcode : Opcode} {operands : List Operand} {outcome : Outcome}
    (run : opcode.execute operands machine = .ok outcome after) :
    Shifts machine.calls outcome after.calls := by
  rcases execute_eq_ok run with ⟨_, _, middle, -, isLocal, first, rest⟩ |
    ⟨_, _, middle, -, isLocal, first, rest⟩ | isStraight
  · exact .of_onTop (isLocal.onTop first) (returnValue_shifts rest)
  · exact .of_onTop (isLocal.onTop first) (branchOn_shifts rest)
  · exact isStraight.shifts run

theorem begun_onTop (instruction : Instruction) (opcode : Opcode) :
    OnTop machine.calls (machine.begun instruction opcode).calls := by
  simp only [begun]
  cases machine.calls with
  | nil => exact .none
  | cons running below => exact .some below rfl

/-- A step changes the running frame, enters a frame or leaves one. -/
theorem step_shifts {outcome : Outcome} (step : Machine.step machine = .ok outcome after) :
    Shifts machine.calls outcome after.calls := by
  obtain ⟨instruction, opcode, -, -, run⟩ := step_eq_ok.1 step
  exact .of_onTop (begun_onTop instruction opcode) (execute_shifts run)

/-! ## The moment of a return -/

end Machine

/-- An operation up to the moment when it leaves the running frame, with the
value that it then returns, if it does. -/
def Opcode.leaving (opcode : Opcode) (operands : List Operand) : Action (Option UInt16) :=
  match opcode.ending operands with
  | .leave result => do
      let value ← result
      return some value
  | .branch condition => do
      let holds ← condition
      let branch ← Machine.fetchBranch
      return branch.leaving holds
  | .straight => pure none

namespace Machine

theorem Straight.ne_returned {operation : Action Outcome} (isStraight : Straight operation) :
    ∀ {machine after : Machine} {value : UInt16},
      operation machine ≠ .ok (.returned value) after := by
  induction isStraight with
  | bind isLocal _ ih =>
      intro machine after value run
      obtain ⟨a, middle, -, rest⟩ := bind_eq_ok.1 run
      exact ih a rest
  | throw e =>
      intro machine after value run
      exact absurd run throw_ne_ok
  | continued =>
      intro machine after value run
      cases run
  | jump offset =>
      intro machine after value run
      simp only [bind_eq_ok, pure_eq_ok] at run
      obtain ⟨_, _, -, other, -⟩ := run
      cases other
  | halt =>
      intro machine after value run
      obtain ⟨other, -⟩ := halt_eq_ok.1 run
      cases other
  | enter routine arguments level texts =>
      intro machine after value run
      simp only [bind_eq_ok, pure_eq_ok] at run
      obtain ⟨_, _, -, _, _, -, _, _, -, other, -⟩ := run
      cases other

/-- An operation that returns a value does so at the moment that `leaving`
gives. -/
theorem execute_eq_returned {opcode : Opcode} {operands : List Operand} {value : UInt16}
    (run : opcode.execute operands machine = .ok (.returned value) after) :
    ∃ returning, opcode.leaving operands machine = .ok (some value) returning ∧
      OnTop machine.calls returning.calls ∧
      returnValue value returning = .ok (.returned value) after := by
  have same {given : UInt16} {middle : Machine}
      (rest : returnValue given middle = .ok (.returned value) after) : given = value := by
    obtain ⟨_, ⟨-, other, -⟩ | ⟨-, same, -⟩⟩ := returnValue_eq_ok rest
    · cases other
    · cases same
      rfl
  simp only [Opcode.leaving]
  rcases execute_eq_ok run with ⟨result, given, middle, ending, isLocal, first, rest⟩ |
    ⟨condition, holds, middle, ending, isLocal, first, rest⟩ | isStraight
  · obtain rfl := same rest
    rw [ending]
    exact ⟨middle, bind_eq_ok.2 ⟨given, middle, first, rfl⟩, isLocal.onTop first, rest⟩
  · obtain ⟨branch, returning, fetched, ⟨given, leaves, rest⟩ | ⟨-, other, -⟩ | ⟨-, other, -⟩⟩ :=
      branchOn_eq_ok rest
    · obtain rfl := same rest
      rw [ending]
      refine ⟨returning, ?_, (isLocal.onTop first).trans (fetchBranch_local.onTop fetched), rest⟩
      refine bind_eq_ok.2 ⟨holds, middle, first, bind_eq_ok.2 ⟨branch, returning, fetched, ?_⟩⟩
      rw [leaves]
      rfl
    · cases other
    · cases other
  · exact absurd run isStraight.ne_returned

/-! ## Storing a result -/

/-- A machine with the frame `caller` on top of `below` has become another by
moving that frame past one byte and storing a value in the variable of a
number. -/
inductive Receives (machine : Machine) (caller : Frame) (below : CallStack) (value : UInt16) :
    UInt8 → Machine → Prop where
  | onStack {after : Machine} :
      after.calls = { caller with pc := caller.pc + 1, stack := value :: caller.stack } :: below →
      after.memory = machine.memory → after.globals = machine.globals →
      Receives machine caller below value 0 after
  | inLocal {after : Machine} {number : UInt8} (h : number.toNat - 1 < maxLocals) :
      1 ≤ number.toNat → number.toNat ≤ 15 →
      after.calls = { caller with
        pc := caller.pc + 1
        locals := caller.locals.set (number.toNat - 1) (some value) } :: below →
      after.memory = machine.memory → after.globals = machine.globals →
      Receives machine caller below value number after
  | inGlobal {after : Machine} {number : UInt8} (h : number.toNat - 16 < globalCount) :
      16 ≤ number.toNat → number.toNat ≤ 254 →
      after.calls = { caller with pc := caller.pc + 1 } :: below →
      after.globals = { machine.globals with
        cells := machine.globals.cells.set (number.toNat - 16) value } →
      Memory.setWord (machine.globals.address (number.toNat - 16)) value machine.memory =
        .ok () after.memory →
      Receives machine caller below value number after

theorem writeVariable_receives {caller : Frame} {below : CallStack} {number : UInt8}
    {value : UInt16} {log : Log} {u : Unit}
    (run : writeVariable number value { machine with
      calls := { caller with pc := caller.pc + 1 } :: below, log } = .ok u after) :
    Receives machine caller below value number after := by
  simp only [writeVariable] at run
  split at run
  next small =>
    obtain ⟨running, rest, changed, calls, write, rfl⟩ := onFrame_eq_ok.1 run
    cases calls
    obtain ⟨frame, write, same⟩ := except_map_eq_ok.1 write
    cases same
    simp only [Frame.write] at write
    split at write
    next zero =>
      subst zero
      cases write
      exact .onStack rfl rfl rfl
    next nonzero =>
      have positive : number.toNat ≠ 0 := fun zero => nonzero (UInt8.toNat_inj.1 zero)
      split at write
      next => cases write
      next inside =>
        cases write
        have h : number.toNat - 1 < maxLocals := by omega
        refine .inLocal h (by omega) (Nat.not_lt.1 inside) ?_ rfl rfl
        have same : caller.locals.setIfInBounds (number.toNat - 1) (some value) =
            caller.locals.set (number.toNat - 1) (some value) := by
          ext i hi
          rw [Vector.getElem_setIfInBounds, Vector.getElem_set]
        rw [← same]
  next large =>
    have least : 16 ≤ number.toNat := Nat.not_lt.1 fun less => large (UInt8.lt_iff_toNat_lt.2 less)
    split at run
    next => exact absurd run throw_ne_ok
    next other =>
      obtain ⟨globals, memory, set, rfl⟩ := setGlobal_eq_ok.1 run
      obtain ⟨inside, write, rfl⟩ := Globals.set_eq_ok set
      have index : (number - 16).toNat = number.toNat - 16 := UInt8.toNat_sub_of_le _ _ least
      have most : number.toNat ≠ 255 := fun last => other (UInt8.toNat_inj.1 last)
      have bound := number.toNat_lt
      rw [index] at write
      refine .inGlobal (index ▸ inside) least (by omega) rfl ?_ write
      simp only [index]

theorem storeResult_receives {caller : Frame} {below : CallStack} {value : UInt16} {u : Unit}
    {log : Log}
    (run : storeResult value { machine with calls := caller :: below, log } = .ok u after) :
    ∃ number, machine.memory.getByte caller.pc = .ok number ∧
      Receives machine caller below value number after := by
  simp only [storeResult, bind_eq_ok, fetchByte_eq_ok, note_eq_ok] at run
  obtain ⟨number, _, ⟨running, rest, calls, read, rfl⟩, _, _, rfl, written⟩ := run
  cases calls
  exact ⟨number, read, writeVariable_receives written⟩

/-! ## Calls -/

/-- A run of steps after each of which more than `depth` calls are under way. -/
def RunsAbove (depth : Nat) : Machine → Machine → Prop :=
  Relation.ReflTransGen fun machine after => Steps machine after ∧ depth < after.depth

end Machine

theorem OnTop.append {above kept after : CallStack} (onTop : OnTop (above ++ kept) after)
    (nonempty : above ≠ []) : ∃ changed, changed ≠ [] ∧ after = changed ++ kept := by
  cases above with
  | nil => exact absurd rfl nonempty
  | cons running rest =>
      cases onTop with
      | some _ same => exact ⟨_ :: rest, List.cons_ne_nil _ _, rfl⟩

namespace Machine

/-- A step keeps the frames below the running one, unless it leaves it. -/
theorem Steps.append {above kept : CallStack} (step : Steps machine after)
    (calls : machine.calls = above ++ kept) (nonempty : above ≠ [])
    (deep : kept.length < after.depth) :
    ∃ changed, changed ≠ [] ∧ after.calls = changed ++ kept := by
  obtain ⟨outcome, step⟩ := step
  have shifts := step_shifts step
  rw [calls] at shifts
  simp only [depth] at deep
  generalize after.calls = stack at shifts deep
  cases shifts with
  | continued onTop => exact onTop.append nonempty
  | branched onTop => exact onTop.append nonempty
  | halted onTop => exact onTop.append nonempty
  | finished => exact absurd deep (Nat.not_lt_zero _)
  | called entered onTop =>
      obtain ⟨changed, -, rfl⟩ := onTop.append nonempty
      exact ⟨entered :: changed, List.cons_ne_nil _ _, rfl⟩
  | returned value _ onTop =>
      cases above with
      | nil => exact absurd rfl nonempty
      | cons running rest =>
          cases rest with
          | nil => exact absurd onTop.length (Nat.ne_of_gt deep)
          | cons caller rest => exact OnTop.append onTop (List.cons_ne_nil _ _)

/-- A run above a depth keeps the frames at that depth. -/
theorem RunsAbove.append {above kept : CallStack} (run : RunsAbove kept.length machine after)
    (calls : machine.calls = above ++ kept) (nonempty : above ≠ []) :
    ∃ changed, changed ≠ [] ∧ after.calls = changed ++ kept := by
  induction run with
  | refl => exact ⟨above, nonempty, calls⟩
  | tail _ step ih =>
      obtain ⟨changed, nonempty, calls⟩ := ih
      exact step.1.append calls nonempty step.2

theorem step_called {entered : Machine} (called : step machine = .ok .called entered) :
    ∃ running callee caller below, machine.calls = running :: below ∧
      caller.routine = running.routine ∧ entered.calls = callee :: caller :: below := by
  obtain ⟨instruction, opcode, -, nonempty, -⟩ := step_eq_ok.1 called
  have shifts := step_shifts called
  generalize machine.calls = calls at shifts nonempty
  generalize entered.calls = stack at shifts
  cases shifts with
  | called callee onTop =>
      cases onTop with
      | none => exact absurd rfl nonempty
      | some below same => exact ⟨_, callee, _, below, rfl, same, rfl⟩

/-- A step that returns a value leaves the running frame.  At the moment of the
return the frames below are as they were, and the caller receives the value. -/
theorem step_returned {value : UInt16} {caller : Frame} {below : CallStack}
    (returned : step machine = .ok (.returned value) after)
    (calls : machine.calls.tail = caller :: below) :
    ∃ instruction opcode returning number,
      machine.nextInstruction = .ok (instruction, opcode) ∧
      opcode.leaving instruction.operands (machine.begun instruction opcode) =
        .ok (some value) returning ∧
      returning.calls.tail = caller :: below ∧
      returning.memory.getByte caller.pc = .ok number ∧
      Receives returning caller below value number after := by
  obtain ⟨instruction, opcode, next, -, run⟩ := step_eq_ok.1 returned
  obtain ⟨returning, leaving, onTop, left⟩ := execute_eq_returned run
  have tail : returning.calls.tail = caller :: below := by
    rw [← calls]
    exact ((begun_onTop instruction opcode).trans onTop).tail
  obtain ⟨log, ⟨-, other, -⟩ | ⟨-, -, stored⟩⟩ := returnValue_eq_ok left
  · cases other
  · rw [tail] at stored
    obtain ⟨number, read, receives⟩ := storeResult_receives stored
    exact ⟨instruction, opcode, returning, number, next, leaving, tail, read, receives⟩

/-- From a call to the return from it, whatever happens in between, the frames
below the caller stay as they are, and so does the caller until the return.  The
return moves the caller past one byte, and stores the value in the variable that
this byte names in memory at the moment of the return. -/
theorem call_isolated {entered last final : Machine} {value : UInt16}
    (called : step machine = .ok .called entered)
    (inner : RunsAbove machine.depth entered last)
    (returned : step last = .ok (.returned value) final)
    (depth : final.depth = machine.depth) :
    ∃ running callee caller below instruction opcode returning number,
      machine.calls = running :: below ∧
      entered.calls = callee :: caller :: below ∧
      last.nextInstruction = .ok (instruction, opcode) ∧
      opcode.leaving instruction.operands (last.begun instruction opcode) =
        .ok (some value) returning ∧
      returning.calls.tail = caller :: below ∧
      returning.memory.getByte caller.pc = .ok number ∧
      Receives returning caller below value number final := by
  obtain ⟨running, callee, caller, below, calls, -, enteredCalls⟩ := step_called called
  have depths : machine.depth = (caller :: below).length := by
    rw [Machine.depth, calls]
    rfl
  rw [depths] at inner depth
  have split : entered.calls = [callee] ++ (caller :: below) := enteredCalls
  obtain ⟨above, nonempty, lastCalls⟩ := inner.append split (List.cons_ne_nil _ _)
  have tail : last.calls.tail = caller :: below := by
    have shifts := step_shifts returned
    simp only [Machine.depth] at depth
    generalize final.calls = stack at shifts depth
    cases shifts with
    | returned _ _ onTop =>
        cases above with
        | nil => exact absurd rfl nonempty
        | cons frame rest =>
            have length := onTop.length
            rw [lastCalls, List.cons_append, List.tail_cons, List.length_append, depth] at length
            have empty : rest = [] := List.eq_nil_of_length_eq_zero (by omega)
            rw [lastCalls, empty]
            rfl
  obtain ⟨instruction, opcode, returning, number, next, leaving, returningCalls, read, receives⟩ :=
    step_returned returned tail
  exact ⟨running, callee, caller, below, instruction, opcode, returning, number, calls,
    enteredCalls, next, leaving, returningCalls, read, receives⟩

/-- The bytes of a call whose result goes to local 3, and of a routine that pushes
7 and returns it. -/
def sampleCall : List UInt8 := [0xe0, 0x3f, 0, 5, 3, 0, 0, 0, 0, 0, 0, 0xe8, 0x7f, 7, 0xb8]

theorem call_isolated_sample : ∃ (entered last final returning : Machine) (callee caller : Frame)
    (below : CallStack) (number : UInt8),
    step (ofBytes sampleCall []) = .ok .called entered ∧
      RunsAbove (ofBytes sampleCall []).depth entered last ∧
      step last = .ok (.returned 7) final ∧ final.depth = (ofBytes sampleCall []).depth ∧
      entered.calls = callee :: caller :: below ∧
      returning.memory.getByte caller.pc = .ok number ∧
      Receives returning caller below 7 number final := by
  obtain ⟨entered, last, final, called, inner, returned, depth⟩ :
      ∃ entered last final : Machine, step (ofBytes sampleCall []) = .ok .called entered ∧
        RunsAbove (ofBytes sampleCall []).depth entered last ∧
        step last = .ok (.returned 7) final ∧ final.depth = (ofBytes sampleCall []).depth := by
    refine ⟨_, _, _, rfl, .single ⟨⟨_, rfl⟩, ?_⟩, rfl, ?_⟩
    · decide
    · decide
  obtain ⟨_, callee, caller, below, _, _, returning, number, -, calls, -, -, -, read, receives⟩ :=
    call_isolated called inner returned depth
  exact ⟨entered, last, final, returning, callee, caller, below, number, called, inner, returned,
    depth, calls, read, receives⟩

end Machine

end StoryMachine
