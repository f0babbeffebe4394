import StoryMachine.Proofs.Input.Buffer
import StoryMachine.Proofs.Machine.Action

/-!
# What instructions are made of

Every operation of the machine is put together from few actions, and this
module says from which.

An action is `Local` when it stays in the running frame: it may move that frame
forward, change its variables, write memory and print, but it neither enters
nor leaves a frame and does not end the story.  Memory is written in three ways
only: through a global variable, through an edit of an object, and by
overwriting a range of bytes after which the copies of the tables are brought
up to date.

An operation ends in one of three ways (`Opcode.ending`).  It may compute a
value and return it, or compute a condition and take the branch that follows.
All other operations are `Straight`: local actions followed by at most one jump,
call or halt.  `Opcode.execute_ending` says that this is what `execute` does, so
an invariant of all instructions needs one case for each kind of action and none
for each operation.
-/

namespace StoryMachine

namespace Machine

/-! ## Local actions -/

/-- Changes a range of bytes of memory and brings the copies up to date.  The
length of the range may depend on what the change gives. -/
def overwrite {α : Type} (address : Nat) (length : α → Nat) (update : Memory.Update α) :
    Action α := do
  let a ← onMemory update
  refresh address (length a)
  return a

theorem overwrite_eq_ok {α : Type} {address : Nat} {length : α → Nat} {update : Memory.Update α}
    {machine after : Machine} {a : α}
    (run : overwrite address length update machine = .ok a after) :
    ∃ memory globals objects log, update machine.memory = .ok a memory ∧
      machine.globals.refresh memory address (length a) = .ok globals ∧
      machine.objects.refresh memory address (length a) = .ok objects ∧
      after = { machine with memory, globals, objects, log } := by
  simp only [overwrite, bind_eq_ok, onMemory_eq_ok, pure_eq_ok] at run
  obtain ⟨_, _, ⟨memory, write, rfl⟩, _, _, refreshed, rfl, rfl⟩ := run
  obtain ⟨globals, objects, log, refreshGlobals, refreshObjects, rfl⟩ := refresh_eq_ok refreshed
  exact ⟨memory, globals, objects, log, write, refreshGlobals, refreshObjects, rfl⟩

/-- An action that stays in the running frame. -/
inductive Local : {α : Type} → Action α → Prop where
  | pure {α : Type} (a : α) : Local (pure a)
  | throw {α : Type} (e : Error) : Local (throw e : Action α)
  | bind {α β : Type} {first : Action α} {next : α → Action β} :
      Local first → (∀ a, Local (next a)) → Local (first >>= next)
  | get : Local get
  | ask {α : Type} (question : Machine → Except Error α) : Local (ask question)
  | note (level : Level) (text : Unit → String) : Local (note level text)
  | narrate (level : Level) (texts : Machine → List String) : Local (narrate level texts)
  | print (text : String) : Local (print text)
  | readLine : Local readLine
  | onGenerator {α : Type} (draw : Generator → α × Generator) : Local (onGenerator draw)
  | randomize : Local randomize
  | onFrame {α : Type} {change : Frame → Except Error (α × Frame)} :
      (∀ running a changed, change running = .ok (a, changed) →
        changed.pc = running.pc ∧ changed.routine = running.routine) → Local (onFrame change)
  | fetchByte : Local fetchByte
  | printInline : Local printInline
  | setGlobal (index : UInt8) (value : UInt16) : Local (setGlobal index value)
  | insert (number destination : UInt16) :
      Local (onObjects (ObjectStore.insert number destination))
  | remove (number : UInt16) : Local (onObjects (ObjectStore.remove number))
  | setAttribute (number flag : UInt16) (value : Bool) :
      Local (onObjects (ObjectStore.setAttribute number flag value))
  | setProperty (number : UInt16) (property : UInt8) (value : UInt16) :
      Local (onObjects (ObjectStore.setProperty number property value))
  | overwrite {α : Type} {address : Nat} {length : α → Nat} {update : Memory.Update α} :
      (∀ memory a written, update memory = .ok a written →
        memory.SameOutside written address (length a)) → Local (overwrite address length update)

/-! ## Variables and operands -/

theorem readVariable_local (number : UInt8) : Local (readVariable number) := by
  simp only [readVariable]
  split
  next =>
    refine .onFrame ?_
    intro running a changed read
    simp only [Frame.read, Frame.pop] at read
    grind
  next =>
    split
    next => exact .throw _
    next => exact .ask _

theorem writeVariable_local (number : UInt8) (value : UInt16) :
    Local (writeVariable number value) := by
  simp only [writeVariable]
  split
  next =>
    refine .onFrame ?_
    intro running a changed write
    obtain ⟨frame, write, same⟩ := except_map_eq_ok.1 write
    cases same
    simp only [Frame.write, Frame.push] at write
    grind
  next =>
    split
    next => exact .throw _
    next => exact .setGlobal _ _

theorem variableOfWord_local (word : UInt16) : Local (variableOfWord word) := by
  simp only [variableOfWord]
  split
  next => exact .pure _
  next => exact .throw _

theorem operandValue_local (operand : Operand) : Local (operandValue operand) := by
  simp only [operandValue]
  split
  next => exact .pure _
  next => exact .pure _
  next => exact readVariable_local _
  next => exact .throw _

theorem operandValues_local : ∀ operands : List Operand, Local (operandValues operands)
  | [] => .pure _
  | operand :: rest =>
      .bind (operandValue_local operand) fun _ => .bind (operandValues_local rest) fun _ => .pure _

theorem firstOperands_local (count : Nat) (operands : List Operand) :
    Local (firstOperands count operands) := by
  refine .bind (operandValues_local operands) ?_
  intro values
  split
  next => exact .pure _
  next => exact .throw _

theorem oneOperand_local (operands : List Operand) : Local (oneOperand operands) :=
  .bind (firstOperands_local 1 operands) fun _ => .pure _

theorem twoOperands_local (operands : List Operand) : Local (twoOperands operands) :=
  .bind (firstOperands_local 2 operands) fun _ => .pure _

theorem threeOperands_local (operands : List Operand) : Local (threeOperands operands) :=
  .bind (firstOperands_local 3 operands) fun _ => .pure _

theorem storeResult_local (value : UInt16) : Local (storeResult value) :=
  .bind .fetchByte fun _ => .bind (.note _ _) fun _ => writeVariable_local _ _

theorem onFrame_pop_local : Local (onFrame Frame.pop) := by
  refine .onFrame ?_
  intro running a changed pop
  simp only [Frame.pop] at pop
  grind

theorem fetchBranch_local : Local fetchBranch := by
  refine .bind .fetchByte ?_
  intro first
  dsimp only
  split
  next => exact .pure _
  next => exact .bind .fetchByte fun _ => .pure _

theorem countVariable_local (direction : Direction) (word : UInt16) :
    Local (countVariable direction word) := by
  refine .bind (variableOfWord_local word) fun number => .bind (readVariable_local number) ?_
  intro old
  dsimp only
  split
  next => exact .bind (.note _ _) fun _ => .bind (writeVariable_local _ _) fun _ => .pure _
  next => exact .bind (writeVariable_local _ _) fun _ => .pure _

/-! ## Texts, objects and buffers -/

theorem textAt_local (address : Nat) : Local (textAt address) :=
  .bind (.narrate _ _) fun _ => .ask _

theorem printNewline_local : Local printNewline := .print _

theorem insertInto_local (object destination : UInt16) : Local (insertInto object destination) :=
  .bind (.narrate _ _) fun _ => .insert _ _

theorem takeOut_local (object : UInt16) : Local (takeOut object) :=
  .bind (.narrate _ _) fun _ => .remove _

theorem testFlag_local (object flag : UInt16) : Local (testFlag object flag) := by
  refine .bind (.ask _) ?_
  intro isSet
  split
  next => exact .bind (.note _ _) fun _ => .pure _
  next => exact .pure _

theorem changeFlag_local (object flag : UInt16) (value : Bool) :
    Local (changeFlag object flag value) := by
  refine .bind (.setAttribute _ _ _) ?_
  intro _
  split
  next => exact .note _ _
  next => exact .pure _

/-- A write followed by an update of the copies is an overwriting, whatever
follows. -/
theorem overwrite_bind {α β : Type} (address : Nat) (length : α → Nat)
    (update : Memory.Update α) (next : α → Action β) :
    (do let a ← onMemory update; refresh address (length a); next a) =
      overwrite address length update >>= next := by
  simp only [overwrite, bind_assoc, pure_bind]

theorem Local.overwrite_then {α β : Type} {address : Nat} (length : α → Nat)
    {update : Memory.Update α} {next : α → Action β}
    (within : ∀ memory a written, update memory = .ok a written →
      memory.SameOutside written address (length a)) (rest : ∀ a, Local (next a)) :
    Local (do let a ← onMemory update; refresh address (length a); next a) := by
  rw [overwrite_bind]
  exact .bind (.overwrite within) rest

theorem storeLine_local (textBuffer : UInt16) (line : String) :
    Local (storeLine textBuffer line) :=
  Local.overwrite_then _ (fun _ _ _ write => TextBuffer.sameOutside_of_write write)
    fun _ => .bind (.note _ _) fun _ => .pure _

theorem storeWords_local (parseBuffer : UInt16) (text : String) :
    Local (storeWords parseBuffer text) := by
  refine .bind .get fun machine => .bind (.narrate _ _) fun _ => ?_
  have within : ∀ memory count written, ParseBuffer.write machine.dictionary parseBuffer.toNat
      (Token.split machine.dictionary.separators text) memory = .ok count written →
        memory.SameOutside written parseBuffer.toNat (2 + 4 * count) :=
    fun _ _ _ write => ParseBuffer.sameOutside_of_write write
  have whole := Local.overwrite_then _ within fun _ => .pure ()
  simp only [bind_pure_unit] at whole
  exact whole

/-! ## Operations that neither branch nor return -/

/-- An operation that neither branches nor returns from its frame. -/
inductive Straight : Action Outcome → Prop where
  | bind {α : Type} {first : Action α} {next : α → Action Outcome} :
      Local first → (∀ a, Straight (next a)) → Straight (first >>= next)
  | throw (e : Error) : Straight (throw e)
  | continued : Straight (pure .continued)
  | jump (offset : Int) : Straight (do jumpBy offset; return .branched)
  | halt : Straight halt
  | enter (routine : Nat) (arguments : List UInt16) (level : Level)
      (texts : Machine → List String) :
      Straight (do
        let entered ← ask fun machine => Frame.call machine.memory routine arguments
        narrate level texts
        pushFrame entered
        return .called)

theorem Straight.overwrite_then {α : Type} {address : Nat} (length : α → Nat)
    {update : Memory.Update α} {next : α → Action Outcome}
    (within : ∀ memory a written, update memory = .ok a written →
      memory.SameOutside written address (length a)) (rest : ∀ a, Straight (next a)) :
    Straight (do let a ← onMemory update; refresh address (length a); next a) := by
  rw [overwrite_bind]
  exact .bind (.overwrite within) rest

theorem storeAndContinue_straight (value : UInt16) : Straight (storeAndContinue value) :=
  .bind (storeResult_local value) fun _ => .continued

theorem callRoutine_straight (packed : UInt16) (arguments : List UInt16) :
    Straight (callRoutine packed arguments) := by
  simp only [callRoutine]
  split
  next => exact .bind (.note _ _) fun _ => storeAndContinue_straight 0
  next => exact .enter _ _ _ _

theorem storeBinary_straight (operands : List Operand)
    (operation : UInt16 → UInt16 → Except Error UInt16) :
    Straight (storeBinary operands operation) :=
  .bind (twoOperands_local operands) fun _ => .bind (.ask _) fun _ => storeAndContinue_straight _

theorem setFlag_straight (operands : List Operand) (value : Bool) :
    Straight (setFlag operands value) :=
  .bind (twoOperands_local operands) fun _ => .bind (changeFlag_local _ _ _) fun _ => .continued

theorem storeProperty_straight (operands : List Operand)
    (question : ObjectTable → UInt16 → UInt8 → Except Error UInt16) :
    Straight (storeProperty operands question) :=
  .bind (twoOperands_local operands) fun _ => .bind (.ask _) fun _ => storeAndContinue_straight _

theorem adjust_straight (operands : List Operand) (direction : Direction) :
    Straight (adjust operands direction) :=
  .bind (oneOperand_local operands) fun _ =>
    .bind (countVariable_local direction _) fun _ => .continued

theorem printAt_straight (operands : List Operand) (address : UInt16 → Nat) :
    Straight (printAt operands address) :=
  .bind (oneOperand_local operands) fun _ => .bind (textAt_local _) fun _ =>
    .bind (.print _) fun _ => .continued

theorem printChar_straight (operands : List Operand) : Straight (printChar operands) := by
  refine .bind (oneOperand_local operands) ?_
  intro code
  split
  next => exact .bind printNewline_local fun _ => .continued
  next => exact .bind (.print _) fun _ => .continued

theorem random_straight (operands : List Operand) : Straight (random operands) := by
  refine .bind (oneOperand_local operands) ?_
  intro range
  dsimp only
  split
  next => exact .bind (.onGenerator _) fun _ => storeAndContinue_straight _
  next =>
    split
    next =>
      exact .bind (.note _ _) fun _ => .bind (.onGenerator _) fun _ => storeAndContinue_straight 0
    next =>
      exact .bind (.note _ _) fun _ => .bind .randomize fun _ => storeAndContinue_straight 0

theorem call_straight (operands : List Operand) : Straight (call operands) := by
  refine .bind (operandValues_local operands) ?_
  intro values
  split
  next => exact callRoutine_straight _ _
  next => exact .throw _

theorem writeWord_straight (operands : List Operand) : Straight (writeWord operands) :=
  .bind (threeOperands_local operands) fun _ => .bind (.note _ _) fun _ =>
    .overwrite_then (fun _ => 2) (fun _ _ _ write => (Memory.setWord_eq_ok write).1)
      fun _ => .continued

theorem writeByte_straight (operands : List Operand) : Straight (writeByte operands) :=
  .bind (threeOperands_local operands) fun _ => .bind (.note _ _) fun _ =>
    .overwrite_then (fun _ => 1) (fun _ _ _ write => (Memory.setByte_eq_ok write).1)
      fun _ => .continued

theorem readInput_straight (operands : List Operand) : Straight (readInput operands) := by
  refine .bind (operandValues_local operands) ?_
  intro values
  cases values with
  | nil => exact .throw _
  | cons textBuffer buffers =>
      refine .bind .readLine ?_
      intro line
      cases line with
      | none => exact .bind (.note _ _) fun _ => .halt
      | some line =>
          refine .bind (storeLine_local textBuffer line) ?_
          intro stored
          cases buffers with
          | nil => exact .continued
          | cons parseBuffer _ =>
              exact .bind (storeWords_local parseBuffer stored) fun _ => .continued

theorem push_straight (operands : List Operand) : Straight (push operands) := by
  refine .bind (oneOperand_local operands) fun value => .bind (.onFrame ?_) fun _ => .continued
  intro running a changed pushed
  cases pushed
  exact ⟨rfl, rfl⟩

/-! ## How operations end -/

/-- How an operation ends. -/
inductive Ending where
  | leave (result : Action UInt16)
  | branch (condition : Action Bool)
  | straight

/-- An operation ends as described. -/
def Ending.Describes : Ending → Action Outcome → Prop
  | .leave result, operation => Local result ∧ operation = result >>= returnValue
  | .branch condition, operation => Local condition ∧ operation = condition >>= branchOn
  | .straight, operation => Straight operation

/-- The condition that two words are related. -/
def related (operands : List Operand) (relation : UInt16 → UInt16 → Bool) : Action Bool := do
  let (a, b) ← twoOperands operands
  return relation a b

/-- The condition that the first word equals one of the others. -/
def listed (operands : List Operand) : Action Bool := do
  match ← operandValues operands with
  | a :: b :: rest => return (b :: rest).contains a
  | values => throw (.operandCount 2 values.length)

/-- The condition that a counted variable is past a limit. -/
def counting (operands : List Operand) (direction : Direction) : Action Bool := do
  let (number, limit) ← twoOperands operands
  let value ← countVariable direction number
  match direction with
  | .up => return limit.toInt16 < value.toInt16
  | .down => return value.toInt16 < limit.toInt16

/-- The condition that a link, which is stored, leads to an object. -/
def linked (operands : List Operand) (link : Link) : Action Bool := do
  let object ← oneOperand operands
  let target ← ask (·.objects.link link object)
  storeResult target
  return target ≠ 0

/-- The condition that the parent of the first object is the second. -/
def inside (operands : List Operand) : Action Bool := do
  let (object, parent) ← twoOperands operands
  let actual ← ask (·.objects.link .parent object)
  return actual == parent

/-- The condition that an object has a flag. -/
def flagged (operands : List Operand) : Action Bool := do
  let (object, flag) ← twoOperands operands
  testFlag object flag

theorem branchBinary_ending (operands : List Operand) (relation : UInt16 → UInt16 → Bool) :
    (Ending.branch (related operands relation)).Describes (branchBinary operands relation) := by
  refine ⟨.bind (twoOperands_local operands) fun _ => .pure _, ?_⟩
  simp only [branchBinary, related, bind_assoc, pure_bind]

theorem branchEqual_ending (operands : List Operand) :
    (Ending.branch (listed operands)).Describes (branchEqual operands) := by
  constructor
  · refine .bind (operandValues_local operands) ?_
    intro values
    split
    next => exact .pure _
    next => exact .throw _
  · simp only [branchEqual, listed, bind_assoc]
    congr 1
    funext values
    rcases values with _ | ⟨a, _ | ⟨b, rest⟩⟩
    · rfl
    · rfl
    · simp only [pure_bind]

theorem adjustAndBranch_ending (operands : List Operand) (direction : Direction) :
    (Ending.branch (counting operands direction)).Describes
      (adjustAndBranch operands direction) := by
  cases direction with
  | up =>
      refine ⟨.bind (twoOperands_local operands) fun _ =>
        .bind (countVariable_local .up _) fun _ => .pure _, ?_⟩
      simp only [adjustAndBranch, counting, bind_assoc, pure_bind]
  | down =>
      refine ⟨.bind (twoOperands_local operands) fun _ =>
        .bind (countVariable_local .down _) fun _ => .pure _, ?_⟩
      simp only [adjustAndBranch, counting, bind_assoc, pure_bind]

theorem storeLinkAndBranch_ending (operands : List Operand) (link : Link) :
    (Ending.branch (linked operands link)).Describes (storeLinkAndBranch operands link) := by
  refine ⟨.bind (oneOperand_local operands) fun _ => .bind (.ask _) fun _ =>
    .bind (storeResult_local _) fun _ => .pure _, ?_⟩
  simp only [storeLinkAndBranch, linked, bind_assoc, pure_bind]

theorem branchInside_ending (operands : List Operand) :
    (Ending.branch (inside operands)).Describes (branchInside operands) := by
  refine ⟨.bind (twoOperands_local operands) fun _ => .bind (.ask _) fun _ => .pure _, ?_⟩
  simp only [branchInside, inside, bind_assoc, pure_bind]

theorem branchFlag_ending (operands : List Operand) :
    (Ending.branch (flagged operands)).Describes (branchFlag operands) := by
  refine ⟨.bind (twoOperands_local operands) fun _ => testFlag_local _ _, ?_⟩
  simp only [branchFlag, flagged, bind_assoc]

theorem branchZero_ending (operands : List Operand) :
    (Ending.branch (oneOperand operands >>= fun a => pure (a == 0))).Describes
      (branchZero operands) := by
  refine ⟨.bind (oneOperand_local operands) fun _ => .pure _, ?_⟩
  simp only [branchZero, bind_assoc, pure_bind]

theorem returnValue_ending (value : UInt16) :
    (Ending.leave (pure value)).Describes (returnValue value) := by
  refine ⟨.pure value, ?_⟩
  rw [pure_bind]

end Machine

open Machine in
/-- How each operation ends. -/
def Opcode.ending (opcode : Opcode) (operands : List Operand) : Ending :=
  match opcode with
  | .je => .branch (listed operands)
  | .jl => .branch (related operands fun a b => a.toInt16 < b.toInt16)
  | .jg => .branch (related operands fun a b => b.toInt16 < a.toInt16)
  | .decChk => .branch (counting operands .down)
  | .incChk => .branch (counting operands .up)
  | .jin => .branch (inside operands)
  | .test => .branch (related operands fun bitmap flags => bitmap &&& flags == flags)
  | .testAttr => .branch (flagged operands)
  | .jz => .branch do
      let a ← oneOperand operands
      return a == 0
  | .getSibling => .branch (linked operands .sibling)
  | .getChild => .branch (linked operands .child)
  | .ret => .leave (oneOperand operands)
  | .rtrue => .leave (pure 1)
  | .rfalse => .leave (pure 0)
  | .printRet => .leave do
      printInline
      printNewline
      return 1
  | .retPopped => .leave do
      let value ← onFrame Frame.pop
      note .debug fun _ => s!"ret_popped {Numeral.hex 4 value.toNat}"
      return value
  | _ => .straight

open Machine in
/-- Every operation ends as `ending` says. -/
theorem Opcode.execute_ending (opcode : Opcode) (operands : List Operand) :
    (opcode.ending operands).Describes (opcode.execute operands) := by
  cases opcode with
  | je => exact branchEqual_ending operands
  | jl => exact branchBinary_ending operands _
  | jg => exact branchBinary_ending operands _
  | decChk => exact adjustAndBranch_ending operands .down
  | incChk => exact adjustAndBranch_ending operands .up
  | jin => exact branchInside_ending operands
  | test => exact branchBinary_ending operands _
  | or => exact storeBinary_straight operands fun a b => .ok (a ||| b)
  | and => exact storeBinary_straight operands fun a b => .ok (a &&& b)
  | testAttr => exact branchFlag_ending operands
  | setAttr => exact setFlag_straight operands true
  | clearAttr => exact setFlag_straight operands false
  | store =>
      exact .bind (twoOperands_local operands) fun _ => .bind (variableOfWord_local _) fun _ =>
        .bind (writeVariable_local _ _) fun _ => .continued
  | insertObj =>
      exact .bind (twoOperands_local operands) fun _ => .bind (.note _ _) fun _ =>
        .bind (insertInto_local _ _) fun _ => .continued
  | loadw =>
      exact .bind (twoOperands_local operands) fun _ => .bind (.ask _) fun _ =>
        storeAndContinue_straight _
  | loadb =>
      exact .bind (twoOperands_local operands) fun _ => .bind (.ask _) fun _ =>
        storeAndContinue_straight _
  | getProp => exact storeProperty_straight operands _
  | getPropAddr => exact storeProperty_straight operands _
  | getNextProp => exact storeProperty_straight operands _
  | add => exact storeBinary_straight operands fun a b => .ok (a + b)
  | sub => exact storeBinary_straight operands fun a b => .ok (a - b)
  | mul => exact storeBinary_straight operands fun a b => .ok (a * b)
  | div => exact storeBinary_straight operands _
  | mod => exact storeBinary_straight operands _
  | jz => exact branchZero_ending operands
  | getSibling => exact storeLinkAndBranch_ending operands .sibling
  | getChild => exact storeLinkAndBranch_ending operands .child
  | getParent =>
      exact .bind (oneOperand_local operands) fun _ => .bind (.ask _) fun _ =>
        storeAndContinue_straight _
  | getPropLen =>
      exact .bind (oneOperand_local operands) fun _ => .bind (.ask _) fun _ =>
        storeAndContinue_straight _
  | inc => exact adjust_straight operands .up
  | dec => exact adjust_straight operands .down
  | printAddr => exact printAt_straight operands _
  | removeObj =>
      exact .bind (oneOperand_local operands) fun _ => .bind (.note _ _) fun _ =>
        .bind (takeOut_local _) fun _ => .continued
  | printObj =>
      exact .bind (oneOperand_local operands) fun _ => .bind (.ask _) fun _ =>
        .bind (.print _) fun _ => .continued
  | ret => exact ⟨oneOperand_local operands, rfl⟩
  | jump => exact .bind (oneOperand_local operands) fun _ => .jump _
  | printPaddr => exact printAt_straight operands _
  | load =>
      exact .bind (oneOperand_local operands) fun _ => .bind (variableOfWord_local _) fun _ =>
        .bind (readVariable_local _) fun _ => storeAndContinue_straight _
  | not => exact .bind (oneOperand_local operands) fun _ => storeAndContinue_straight _
  | rtrue => exact returnValue_ending 1
  | rfalse => exact returnValue_ending 0
  | print => exact .bind .printInline fun _ => .continued
  | printRet =>
      refine ⟨.bind .printInline fun _ => .bind printNewline_local fun _ => .pure _, ?_⟩
      simp only [bind_assoc, pure_bind]
      rfl
  | nop => exact .continued
  | retPopped =>
      refine ⟨.bind onFrame_pop_local fun _ => .bind (.note _ _) fun _ => .pure _, ?_⟩
      simp only [bind_assoc, pure_bind]
      rfl
  | pop => exact .bind onFrame_pop_local fun _ => .continued
  | quit => exact .bind (.note _ _) fun _ => .halt
  | newLine => exact .bind printNewline_local fun _ => .continued
  | call => exact call_straight operands
  | storew => exact writeWord_straight operands
  | storeb => exact writeByte_straight operands
  | putProp =>
      exact .bind (threeOperands_local operands) fun _ => .bind (.setProperty _ _ _) fun _ =>
        .continued
  | sread => exact readInput_straight operands
  | printChar => exact printChar_straight operands
  | printNum =>
      exact .bind (oneOperand_local operands) fun _ => .bind (.print _) fun _ => .continued
  | random => exact random_straight operands
  | push => exact push_straight operands
  | pull =>
      exact .bind (oneOperand_local operands) fun _ => .bind (variableOfWord_local _) fun _ =>
        .bind onFrame_pop_local fun _ => .bind (writeVariable_local _ _) fun _ => .continued

end StoryMachine
