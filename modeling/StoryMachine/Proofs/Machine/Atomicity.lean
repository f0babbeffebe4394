import StoryMachine.Proofs.Machine.Footprint
import StoryMachine.Proofs.Machine.Step

/-!
# Operations that write all or nothing

An operation first collects its operands and answers its questions, which writes
nothing, and then it writes, as its last act that can fail.  So nearly every
operation is atomic (`execute_atomic`): the proof follows its sequence of actions up
to the one that writes.  The operations that are not atomic are confined all the
same (`execute_confines`), and with them every step, whether it succeeds or fails
(`step_confined`).
-/

namespace StoryMachine

namespace Machine

variable {machine middle after : Machine} {α : Type} {raw : Bool}

/-! ## Parts of operations -/

namespace Atomic

theorem continued {first : Action α} (atomic : Atomic raw first) :
    Atomic raw (first >>= fun _ => pure Outcome.continued) :=
  .followedBy atomic fun _ => .pure _

theorem overwrite_then {address : Nat} (length : α → Nat) {update : Memory.Update α}
    (keeps : update.KeepsSize)
    (whole : ∀ memory e written, update memory = .error e written → written = memory) :
    Atomic true (do
      let a ← onMemory update
      refresh address (length a)
      return Outcome.continued) := by
  rw [overwrite_bind]
  exact .continued (.overwrite keeps whole)

theorem writeVariable (number : UInt8) (value : UInt16) :
    Atomic raw (writeVariable number value) := by
  simp only [Machine.writeVariable]
  split
  next => exact (Inert.onFrame _).atomic
  next =>
    split
    next => exact (Inert.throw _).atomic
    next => exact .setGlobal _ _

theorem storeResult (value : UInt16) : Atomic raw (storeResult value) :=
  .bind .fetchByte fun _ => .bind (.note _ _) fun _ => .writeVariable _ _

theorem storeAndContinue (value : UInt16) : Atomic raw (storeAndContinue value) :=
  .continued (.storeResult value)

theorem countVariable (direction : Direction) (word : UInt16) :
    Atomic raw (countVariable direction word) := by
  refine .bind (.variableOfWord word) fun number => .bind (.readVariable number) ?_
  intro old
  dsimp only
  split
  next => exact .bind (.note _ _) fun _ => .followedBy (.writeVariable _ _) fun _ => .pure _
  next => exact .followedBy (.writeVariable _ _) fun _ => .pure _

theorem changeFlag (object flag : UInt16) (value : Bool) :
    Atomic raw (changeFlag object flag value) := by
  refine .followedBy (.onObjects fun _ inside => ObjectStore.setAttribute_edited inside _ _ _) ?_
  intro _
  split
  next => exact .note _ _
  next => exact .pure _

theorem returnValue (value : UInt16) : Atomic raw (returnValue value) := by
  refine .bind .get fun _ => .bind .popFrame fun _ => .bind (.note _ _) fun _ => .bind .get ?_
  intro caller
  split
  next => exact .bind (.note _ _) fun _ => Inert.halt.atomic
  next => exact .followedBy (.storeResult value) fun _ => .pure _

theorem branchOn (condition : Bool) : Atomic raw (branchOn condition) := by
  refine .bind .fetchBranch ?_
  intro branch
  split
  next => exact (Inert.pure _).atomic
  next =>
    split
    next => exact .returnValue 0
    next =>
      split
      next => exact .returnValue 1
      next => exact .bind (.jumpBy _) fun _ => (Inert.pure _).atomic

theorem call (operands : List Operand) : Atomic raw (call operands) := by
  refine .bind (.operandValues operands) ?_
  intro values
  split
  next packed arguments =>
    simp only [callRoutine]
    split
    next => exact .bind (.note _ _) fun _ => .storeAndContinue 0
    next =>
      exact .bind (.ask _) fun _ => .bind (.narrate _ _) fun _ => .bind (.pushFrame _) fun _ =>
        (Inert.pure _).atomic
  next => exact (Inert.throw _).atomic

theorem branchEqual (operands : List Operand) : Atomic raw (branchEqual operands) := by
  refine .bind (.operandValues operands) ?_
  intro values
  split
  next => exact .branchOn _
  next => exact (Inert.throw _).atomic

theorem random (operands : List Operand) : Atomic raw (random operands) := by
  refine .bind (.oneOperand operands) ?_
  intro range
  dsimp only
  split
  next => exact .bind (.onGenerator _) fun _ => .storeAndContinue _
  next =>
    split
    next => exact .bind (.note _ _) fun _ => .bind (.onGenerator _) fun _ => .storeAndContinue 0
    next => exact .bind (.note _ _) fun _ => .bind .randomize fun _ => .storeAndContinue 0

theorem printChar (operands : List Operand) : Atomic raw (printChar operands) := by
  refine .bind (.oneOperand operands) ?_
  intro code
  split
  next => exact .continued (Inert.print _).atomic
  next => exact .continued (Inert.print _).atomic

theorem writeWord (operands : List Operand) : Atomic true (writeWord operands) :=
  .bind (.threeOperands operands) fun _ => .bind (.note _ _) fun _ =>
    .overwrite_then (fun _ => 2) (.setWord _ _) fun _ _ _ => Memory.setWord_eq_error

theorem writeByte (operands : List Operand) : Atomic true (writeByte operands) :=
  .bind (.threeOperands operands) fun _ => .bind (.note _ _) fun _ =>
    .overwrite_then (fun _ => 1) (.setByte _ _) fun _ _ _ => Memory.setByte_eq_error

end Atomic

/-! ## Operations -/

/-- All operations are atomic but those that may break off. -/
theorem execute_atomic {opcode : Opcode} (whole : opcode.mayBreakOff = false)
    (operands : List Operand) : Atomic opcode.isRaw (opcode.execute operands) := by
  cases opcode with
  | sread | insertObj | removeObj | getSibling | getChild | incChk | decChk => cases whole
  | je => exact .branchEqual operands
  | jl | jg | test => exact .bind (.twoOperands operands) fun _ => .branchOn _
  | jz => exact .bind (.oneOperand operands) fun _ => .branchOn _
  | jin => exact .bind (.twoOperands operands) fun _ => .bind (.ask _) fun _ => .branchOn _
  | testAttr => exact .bind (.twoOperands operands) fun _ => .bind (.testFlag _ _) fun _ => .branchOn _
  | or | and | add | sub | mul | div | mod | loadw | loadb | getProp | getPropAddr | getNextProp =>
      exact .bind (.twoOperands operands) fun _ => .bind (.ask _) fun _ => .storeAndContinue _
  | getParent | getPropLen =>
      exact .bind (.oneOperand operands) fun _ => .bind (.ask _) fun _ => .storeAndContinue _
  | not => exact .bind (.oneOperand operands) fun _ => .storeAndContinue _
  | load =>
      exact .bind (.oneOperand operands) fun _ => .bind (.variableOfWord _) fun _ =>
        .bind (.readVariable _) fun _ => .storeAndContinue _
  | store =>
      exact .bind (.twoOperands operands) fun _ => .bind (.variableOfWord _) fun _ =>
        .continued (.writeVariable _ _)
  | pull =>
      exact .bind (.oneOperand operands) fun _ => .bind (.variableOfWord _) fun _ =>
        .bind (.onFrame _) fun _ => .continued (.writeVariable _ _)
  | inc | dec => exact .bind (.oneOperand operands) fun _ => .continued (.countVariable _ _)
  | setAttr | clearAttr => exact .bind (.twoOperands operands) fun _ => .continued (.changeFlag _ _ _)
  | putProp =>
      exact .bind (.threeOperands operands) fun _ =>
        .continued (.onObjects fun _ inside => ObjectStore.setProperty_edited inside _ _ _)
  | storew => exact .writeWord operands
  | storeb => exact .writeByte operands
  | random => exact .random operands
  | call => exact .call operands
  | ret => exact .bind (.oneOperand operands) fun _ => .returnValue _
  | rtrue | rfalse => exact .returnValue _
  | printRet => exact .bind .printInline fun _ => .bind (.print _) fun _ => .returnValue 1
  | retPopped => exact .bind (.onFrame _) fun _ => .bind (.note _ _) fun _ => .returnValue _
  | jump => exact .bind (.oneOperand operands) fun _ => .bind (.jumpBy _) fun _ => (Inert.pure _).atomic
  | nop => exact (Inert.pure _).atomic
  | quit => exact .bind (.note _ _) fun _ => Inert.halt.atomic
  | print => exact .continued Inert.printInline.atomic
  | newLine => exact .continued (Inert.print _).atomic
  | pop => exact .continued (Inert.onFrame _).atomic
  | push => exact .bind (.oneOperand operands) fun _ => .continued (Inert.onFrame _).atomic
  | printNum => exact .bind (.oneOperand operands) fun _ => .continued (Inert.print _).atomic
  | printChar => exact .printChar operands
  | printAddr | printPaddr =>
      exact .bind (.oneOperand operands) fun _ => .bind (.textAt _) fun _ =>
        .continued (Inert.print _).atomic
  | printObj =>
      exact .bind (.oneOperand operands) fun _ => .bind (.ask _) fun _ =>
        .continued (Inert.print _).atomic

/-! ## Operations that may break off -/

namespace Confines

theorem storeLine (textBuffer : UInt16) (line : String) :
    Confines true (storeLine textBuffer line) :=
  .bind (.onMemory (TextBuffer.write_keepsSize _ _)) fun _ => .bind (.refresh _ _) fun _ =>
    .bind (Inert.note _ _).confines fun _ => (Inert.pure _).confines

theorem storeWords (parseBuffer : UInt16) (text : String) :
    Confines true (storeWords parseBuffer text) :=
  .bind Inert.get.confines fun _ => .bind (Inert.narrate _ _).confines fun _ =>
    .bind (.onMemory (ParseBuffer.write_keepsSize _ _ _)) fun _ => .refresh _ _

theorem readInput (operands : List Operand) : Confines true (readInput operands) := by
  refine .bind (Inert.operandValues operands).confines ?_
  intro values
  cases values with
  | nil => exact (Inert.throw _).confines
  | cons textBuffer buffers =>
      refine .bind .readLine ?_
      intro line
      cases line with
      | none => exact .bind (Inert.note _ _).confines fun _ => Inert.halt.confines
      | some line =>
          refine .bind (.storeLine textBuffer line) ?_
          intro stored
          cases buffers with
          | nil => exact (Inert.pure _).confines
          | cons parseBuffer _ =>
              exact .bind (.storeWords parseBuffer stored) fun _ => (Inert.pure _).confines

theorem adjustAndBranch (operands : List Operand) (direction : Direction) :
    Confines raw (adjustAndBranch operands direction) := by
  refine .bind (Inert.twoOperands operands).confines fun _ =>
    .bind (Atomic.countVariable direction _).confines ?_
  intro value
  cases direction with
  | up => exact (Atomic.branchOn _).confines
  | down => exact (Atomic.branchOn _).confines

theorem storeLinkAndBranch (operands : List Operand) (link : Link) :
    Confines raw (storeLinkAndBranch operands link) :=
  .bind (Inert.oneOperand operands).confines fun _ => .bind (Inert.ask _).confines fun _ =>
    .bind (Atomic.storeResult _).confines fun _ => (Atomic.branchOn _).confines

end Confines

/-- Every operation is confined, whether it succeeds or fails. -/
theorem execute_confines (opcode : Opcode) (operands : List Operand) :
    Confines opcode.isRaw (opcode.execute operands) := by
  cases breaks : opcode.mayBreakOff with
  | false => exact (execute_atomic breaks operands).confines
  | true =>
      cases opcode with
      | sread => exact .readInput operands
      | insertObj =>
          exact .bind (Inert.twoOperands operands).confines fun _ =>
            .bind (Inert.note _ _).confines fun _ =>
              .bind (.bind (Inert.narrate _ _).confines fun _ => .onObjects (.insert _ _)) fun _ =>
                (Inert.pure _).confines
      | removeObj =>
          exact .bind (Inert.oneOperand operands).confines fun _ =>
            .bind (Inert.note _ _).confines fun _ =>
              .bind (.bind (Inert.narrate _ _).confines fun _ => .onObjects (.remove _)) fun _ =>
                (Inert.pure _).confines
      | getSibling => exact .storeLinkAndBranch operands .sibling
      | getChild => exact .storeLinkAndBranch operands .child
      | incChk => exact .adjustAndBranch operands .up
      | decChk => exact .adjustAndBranch operands .down
      | _ => cases breaks

/-! ## Steps -/

/-- Whether a step executes an operation that writes past the copies of the tables. -/
def nextIsRaw (machine : Machine) : Bool :=
  match machine.nextInstruction with
  | .ok (_, opcode) => !machine.calls.isEmpty && opcode.isRaw
  | .error _ => false

theorem begun_unwritten (machine : Machine) (instruction : Instruction) (opcode : Opcode) :
    Unwritten machine (machine.begun instruction opcode) := .of_parts ..

/-- Without a frame no operation is executed. -/
theorem step_unwritten (calls : machine.calls = []) : Unwritten machine (leaves step machine) := by
  simp only [leaves, step, counted, calls, List.isEmpty_nil]
  cases machine.nextInstruction with
  | ok pair => exact .of_parts ..
  | error fault => exact .refl machine

theorem execute_confined (placed : machine.Placed) (calls : machine.calls ≠ [])
    {instruction : Instruction} {opcode : Opcode}
    (next : machine.nextInstruction = .ok (instruction, opcode)) :
    Confined machine.nextIsRaw machine
      (leaves (opcode.execute instruction.operands) (machine.begun instruction opcode)) := by
  have begun := machine.begun_unwritten instruction opcode
  have confined := execute_confines opcode instruction.operands _ (begun.placed placed)
  have same : machine.nextIsRaw = opcode.isRaw := by simp [nextIsRaw, next, calls]
  rw [same]
  exact (begun.confined _).trans confined

/-- A step is confined, whether it succeeds or fails. -/
theorem step_confined (placed : machine.Placed) :
    Confined machine.nextIsRaw machine (leaves step machine) := by
  by_cases calls : machine.calls = []
  · exact (step_unwritten calls).confined _
  · cases stepped : step machine with
    | ok outcome after =>
        obtain ⟨instruction, opcode, next, -, run⟩ := step_eq_ok.1 stepped
        rw [leaves_of_ok stepped, ← leaves_of_ok run]
        exact execute_confined placed calls next
    | error fault after =>
        rw [leaves_of_error stepped]
        rcases step_eq_error stepped with ⟨-, rfl⟩ | ⟨instruction, opcode, next, ⟨-, rfl⟩ | run⟩
        · exact .refl _ _
        · exact (Unwritten.of_parts ..).confined _
        · rw [← leaves_of_error run]
          exact execute_confined placed calls next

end Machine

end StoryMachine
