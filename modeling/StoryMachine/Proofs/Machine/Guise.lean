import StoryMachine.Proofs.Machine.Action
import StoryMachine.Proofs.Machine.Failure

/-!
# What operations do not look at

The settings steer how a run is counted and noted, but no operation looks at
them.  At the random numbers only `random` looks.  A `Guise` changes these parts
of a machine and no others, and an action that is `Blind` to it does the same
with and without it.

Every operation is blind to every guise, except for `random`, which is blind to
those that leave the random numbers alone (`execute_blind`).  Along the way it is
shown that operations fail only for causes that arise in operations.
-/

namespace StoryMachine

/-- A result with its state changed. -/
def mapState {ε σ α : Type} (change : σ → σ) : EStateM.Result ε σ α → EStateM.Result ε σ α
  | .ok a state => .ok a (change state)
  | .error e state => .error e (change state)

namespace Machine

/-- A change of the settings and of the random numbers. -/
structure Guise where
  /-- The change of the settings. -/
  settings : Settings → Settings := id
  /-- The change of the source of random numbers. -/
  generator : Generator → Generator := id
  /-- The change of the supply of keys. -/
  entropy : Entropy → Entropy := id

/-- The machine in a guise. -/
def Guise.apply (guise : Guise) (machine : Machine) : Machine :=
  { machine with
    settings := guise.settings machine.settings
    generator := guise.generator machine.generator
    entropy := guise.entropy machine.entropy }

/-- An action that does the same in a guise, and fails only for causes that arise
in operations. -/
structure Blind {α : Type} (guise : Guise) (action : Action α) : Prop where
  same : ∀ machine, action (guise.apply machine) = mapState guise.apply (action machine)
  fails : RunFailsOnly Error.Arises action

variable {guise : Guise} {α β : Type}

namespace Blind

/-! ## Sequences -/

theorem pure (a : α) : Blind guise (pure a) := ⟨fun _ => rfl, .pure a⟩

theorem throw {e : Error} (arises : e.Arises) : Blind guise (throw e : Action α) :=
  ⟨fun _ => rfl, .throw arises⟩

theorem bind {first : Action α} {next : α → Action β} (blind : Blind guise first)
    (rest : ∀ a, Blind guise (next a)) : Blind guise (first >>= next) := by
  refine ⟨?_, .bind blind.fails fun a => (rest a).fails⟩
  intro machine
  show EStateM.bind first next (guise.apply machine) = mapState _ (EStateM.bind first next machine)
  simp only [EStateM.bind, blind.same machine]
  cases first machine with
  | ok a middle => exact (rest a).same middle
  | error e middle => rfl

theorem ite {condition : Prop} [Decidable condition] {yes no : Action α}
    (blind : Blind guise yes) (other : Blind guise no) :
    Blind guise (if condition then yes else no) := by
  split
  · exact blind
  · exact other

/-- What follows a look at the machine may depend on what a guise leaves alone. -/
theorem get_bind {next : Machine → Action β}
    (hidden : ∀ machine, next (guise.apply machine) = next machine)
    (rest : ∀ machine, Blind guise (next machine)) : Blind guise (get >>= next) := by
  refine ⟨?_, .bind .get fun machine => (rest machine).fails⟩
  intro machine
  show next (guise.apply machine) (guise.apply machine) = mapState _ (next machine machine)
  rw [hidden machine]
  exact (rest machine).same machine

theorem modify {change : Machine → Machine}
    (commutes : ∀ machine, change (guise.apply machine) = guise.apply (change machine)) :
    Blind guise (modify change) := by
  refine ⟨?_, .modify change⟩
  intro machine
  show EStateM.Result.ok _ (change (guise.apply machine)) = .ok _ (guise.apply (change machine))
  rw [commutes machine]

/-! ## Actions -/

theorem note (level : Level) (text : Unit → String) : Blind guise (note level text) :=
  .modify fun _ => rfl

theorem narrate {level : Level} {texts : Machine → List String}
    (hidden : ∀ machine, texts (guise.apply machine) = texts machine) :
    Blind guise (narrate level texts) := by
  refine .modify ?_
  intro machine
  simp only [hidden machine]
  rfl

theorem ask {question : Machine → Except Error α}
    (hidden : ∀ machine, question (guise.apply machine) = question machine)
    (fails : ∀ machine, FailsOnly Error.Arises (question machine)) :
    Blind guise (ask question) := by
  constructor
  · intro machine
    simp only [Machine.ask, hidden machine]
    cases question machine with
    | ok a => rfl
    | error e => rfl
  · intro machine e after failed
    simp only [Machine.ask] at failed
    split at failed
    next => cases failed
    next answered =>
      cases failed
      exact fails machine e answered

theorem onMemory {update : Memory.Update α} (fails : RunFailsOnly Error.Arises update) :
    Blind guise (onMemory update) := by
  constructor
  · intro machine
    simp only [Machine.onMemory, Guise.apply]
    cases update machine.memory with
    | ok a memory => rfl
    | error e memory => rfl
  · intro machine e after failed
    simp only [Machine.onMemory] at failed
    split at failed
    next => cases failed
    next updated =>
      cases failed
      exact fails _ e _ updated

theorem onObjects {edit : ObjectStore.Edit α} (fails : RunFailsOnly Error.Arises edit) :
    Blind guise (onObjects edit) := by
  constructor
  · intro machine
    simp only [Machine.onObjects, Guise.apply]
    cases edit { memory := machine.memory, table := machine.objects } with
    | ok a store => rfl
    | error e store => rfl
  · intro machine e after failed
    simp only [Machine.onObjects] at failed
    split at failed
    next => cases failed
    next edited =>
      cases failed
      exact fails _ e _ edited

theorem setGlobal (index : UInt8) (value : UInt16) : Blind guise (setGlobal index value) :=
  .get_bind (fun _ => rfl) fun machine =>
    .bind (onMemory (machine.globals.set_arises index value)) fun _ => .modify fun _ => rfl

theorem refresh (address count : Nat) : Blind guise (refresh address count) := by
  refine .bind (.bind (ask (fun _ => rfl) fun machine => ?_) fun _ => .modify fun _ => rfl) ?_
  · exact (machine.globals.refresh_failsOnly machine.memory address count).arises
  · intro _
    refine .bind (narrate fun _ => rfl) fun _ =>
      .bind (ask (fun _ => rfl) fun machine => ?_) fun _ => .modify fun _ => rfl
    exact (machine.objects.refresh_failsOnly machine.memory address count).arises

theorem frame : Blind guise frame := by
  refine ask (fun _ => rfl) ?_
  intro machine
  split
  next => exact FailsOnly.error.2 trivial
  next => exact .ok _

theorem onFrame {change : Frame → Except Error (α × Frame)}
    (fails : ∀ running, FailsOnly Error.Arises (change running)) :
    Blind guise (onFrame change) := by
  refine .bind frame ?_
  intro running
  cases result : change running with
  | ok pair => exact .bind (.modify fun _ => rfl) fun _ => .pure _
  | error e => exact .throw (fails running e result)

theorem setPc (pc : Nat) : Blind guise (setPc pc) := .onFrame fun _ => .ok _

theorem print (text : String) : Blind guise (print text) := by
  refine .get_bind (fun _ => rfl) ?_
  intro machine
  split
  next => exact .modify fun _ => rfl
  next => exact .bind (.modify fun _ => rfl) fun _ => .throw trivial

theorem readLine : Blind guise readLine := by
  refine .get_bind (fun _ => rfl) ?_
  intro machine
  split
  next => exact .pure _
  next =>
    refine .bind (.modify fun _ => rfl) ?_
    intro _
    split
    next => exact .pure _
    next => exact .throw trivial

theorem halt : Blind guise halt := .bind (.modify fun _ => rfl) fun _ => .pure _

/-! ## Variables and operands -/

theorem readVariable (number : UInt8) : Blind guise (readVariable number) := by
  simp only [Machine.readVariable]
  split
  next => exact .onFrame fun running => running.read_arises number
  next =>
    split
    next => exact .throw trivial
    next => exact .ask (fun _ => rfl) fun machine => machine.globals.get_arises _

theorem writeVariable (number : UInt8) (value : UInt16) :
    Blind guise (writeVariable number value) := by
  simp only [Machine.writeVariable]
  split
  next => exact .onFrame fun running => (running.write_arises number value).map _
  next =>
    split
    next => exact .throw trivial
    next => exact .setGlobal _ _

theorem variableOfWord (word : UInt16) : Blind guise (variableOfWord word) :=
  .ite (.pure _) (.throw trivial)

theorem operandValue : ∀ operand : Operand, Blind guise (operandValue operand)
  | ⟨.large, _⟩ => .pure _
  | ⟨.small, _⟩ => .pure _
  | ⟨.variable, _⟩ => readVariable _
  | ⟨.omitted, _⟩ => .throw trivial

theorem operandValues : ∀ operands : List Operand, Blind guise (operandValues operands)
  | [] => .pure _
  | operand :: rest =>
      .bind (operandValue operand) fun _ => .bind (operandValues rest) fun _ => .pure _

theorem firstOperands (count : Nat) (operands : List Operand) :
    Blind guise (firstOperands count operands) := by
  refine .bind (operandValues operands) ?_
  intro values
  split
  next => exact .pure _
  next => exact .throw trivial

theorem oneOperand (operands : List Operand) : Blind guise (oneOperand operands) :=
  .bind (firstOperands 1 operands) fun _ => .pure _

theorem twoOperands (operands : List Operand) : Blind guise (twoOperands operands) :=
  .bind (firstOperands 2 operands) fun _ => .pure _

theorem threeOperands (operands : List Operand) : Blind guise (threeOperands operands) :=
  .bind (firstOperands 3 operands) fun _ => .pure _

theorem fetchByte : Blind guise fetchByte :=
  .bind frame fun _ =>
    .bind (.ask (fun _ => rfl) fun machine => (machine.memory.getByte_failsOnly _).arises) fun _ =>
      .bind (setPc _) fun _ => .pure _

theorem storeResult (value : UInt16) : Blind guise (storeResult value) :=
  .bind fetchByte fun _ => .bind (note _ _) fun _ => writeVariable _ _

theorem storeAndContinue (value : UInt16) : Blind guise (storeAndContinue value) :=
  .bind (storeResult value) fun _ => .pure _

theorem countVariable (direction : Direction) (word : UInt16) :
    Blind guise (countVariable direction word) := by
  refine .bind (variableOfWord word) fun number => .bind (readVariable number) ?_
  intro old
  dsimp only
  split
  next => exact .bind (note _ _) fun _ => .bind (writeVariable _ _) fun _ => .pure _
  next => exact .bind (writeVariable _ _) fun _ => .pure _

/-! ## Branches, calls and returns -/

theorem fetchBranch : Blind guise fetchBranch := by
  refine .bind fetchByte ?_
  intro first
  dsimp only
  split
  next => exact .pure _
  next => exact .bind fetchByte fun _ => .pure _

theorem jumpBy (offset : Int) : Blind guise (jumpBy offset) := by
  refine .bind frame ?_
  intro running
  dsimp only
  split
  next => exact .ask (fun _ => rfl) fun _ => FailsOnly.error.2 trivial
  next => exact setPc _

theorem returnValue (value : UInt16) : Blind guise (returnValue value) := by
  refine .get_bind (fun _ => rfl) fun _ => .bind (.modify fun _ => rfl) fun _ =>
    .bind (note _ _) fun _ => .get_bind (fun _ => rfl) ?_
  intro machine
  split
  next => exact .bind (note _ _) fun _ => halt
  next => exact .bind (storeResult value) fun _ => .pure _

theorem branchOn (condition : Bool) : Blind guise (branchOn condition) := by
  refine .bind fetchBranch ?_
  intro branch
  exact .ite (.pure _) (.ite (returnValue 0)
    (.ite (returnValue 1) (.bind (jumpBy _) fun _ => .pure _)))

theorem call (operands : List Operand) : Blind guise (call operands) := by
  refine .bind (operandValues operands) ?_
  intro values
  cases values with
  | nil => exact .throw trivial
  | cons packed arguments =>
      refine .ite (.bind (note _ _) fun _ => storeAndContinue 0) ?_
      exact .bind (.ask (fun _ => rfl) fun machine => Frame.call_arises machine.memory _ _) fun _ =>
        .bind (narrate fun _ => rfl) fun _ => .bind (.modify fun _ => rfl) fun _ => .pure _

/-! ## Texts, objects and buffers -/

theorem textAt (address : Nat) : Blind guise (textAt address) :=
  .bind (narrate fun _ => rfl) fun _ => .ask (fun _ => rfl) fun machine =>
    (Packed.decodeAt_failsOnly machine.memory address _).arises

theorem printInline : Blind guise printInline :=
  .bind frame fun _ => .bind (textAt _) fun _ => .bind (setPc _) fun _ => print _

theorem link (link : Link) (object : UInt16) :
    Blind guise (Machine.ask (·.objects.link link object)) :=
  .ask (fun _ => rfl) fun machine => machine.objects.link_arises object link

theorem storeLine (textBuffer : UInt16) (line : String) : Blind guise (storeLine textBuffer line) :=
  .bind (onMemory (TextBuffer.write_arises _ line)) fun _ =>
    .bind (refresh _ _) fun _ => .bind (note _ _) fun _ => .pure _

theorem storeWords (parseBuffer : UInt16) (text : String) :
    Blind guise (storeWords parseBuffer text) := by
  refine .get_bind (fun _ => rfl) fun machine => .bind (narrate fun _ => rfl) fun _ =>
    .bind (onMemory ?_) fun _ => refresh _ _
  exact ParseBuffer.write_arises machine.dictionary _ _

theorem readInput (operands : List Operand) : Blind guise (readInput operands) := by
  refine .bind (operandValues operands) ?_
  intro values
  cases values with
  | nil => exact .throw trivial
  | cons textBuffer buffers =>
      refine .bind readLine ?_
      intro line
      cases line with
      | none => exact .bind (note _ _) fun _ => halt
      | some line =>
          refine .bind (storeLine textBuffer line) ?_
          intro stored
          cases buffers with
          | nil => exact .pure _
          | cons parseBuffer _ => exact .bind (storeWords parseBuffer stored) fun _ => .pure _

/-! ## Families of operations -/

theorem storeBinary (operands : List Operand) {operation : UInt16 → UInt16 → Except Error UInt16}
    (fails : ∀ a b, FailsOnly Error.Arises (operation a b)) :
    Blind guise (storeBinary operands operation) :=
  .bind (twoOperands operands) fun _ => .bind (ask (fun _ => rfl) fun _ => fails _ _) fun _ =>
    storeAndContinue _

theorem branchEqual (operands : List Operand) : Blind guise (branchEqual operands) := by
  refine .bind (operandValues operands) ?_
  intro values
  split
  next => exact branchOn _
  next => exact .throw trivial

theorem adjust (operands : List Operand) (direction : Direction) :
    Blind guise (adjust operands direction) :=
  .bind (oneOperand operands) fun _ => .bind (countVariable direction _) fun _ => .pure _

theorem adjustAndBranch (operands : List Operand) (direction : Direction) :
    Blind guise (adjustAndBranch operands direction) := by
  refine .bind (twoOperands operands) fun _ => .bind (countVariable direction _) fun _ => ?_
  cases direction with
  | up => exact branchOn _
  | down => exact branchOn _

theorem storeLinkAndBranch (operands : List Operand) (direction : Link) :
    Blind guise (storeLinkAndBranch operands direction) :=
  .bind (oneOperand operands) fun _ => .bind (link direction _) fun _ =>
    .bind (storeResult _) fun _ => branchOn _

theorem branchFlag (operands : List Operand) : Blind guise (branchFlag operands) := by
  refine .bind (twoOperands operands) fun _ => .bind (.bind (ask (fun _ => rfl) ?_) ?_) fun _ =>
    branchOn _
  · exact fun machine => machine.objects.testAttribute_arises _ _
  · intro isSet
    split
    next => exact .bind (note _ _) fun _ => .pure _
    next => exact .pure _

theorem setFlag (operands : List Operand) (value : Bool) : Blind guise (setFlag operands value) := by
  refine .bind (twoOperands operands) fun _ => .bind (.bind (onObjects ?_) ?_) fun _ => .pure _
  · exact ObjectStore.setAttribute_arises _ _ value
  · intro _
    split
    next => exact note _ _
    next => exact .pure _

theorem storeProperty (operands : List Operand)
    {question : ObjectTable → UInt16 → UInt8 → Except Error UInt16}
    (fails : ∀ table object property, FailsOnly Error.Arises (question table object property)) :
    Blind guise (storeProperty operands question) :=
  .bind (twoOperands operands) fun _ =>
    .bind (ask (fun _ => rfl) fun machine => fails machine.objects _ _) fun _ => storeAndContinue _

theorem printAt (operands : List Operand) (address : UInt16 → Nat) :
    Blind guise (printAt operands address) :=
  .bind (oneOperand operands) fun _ => .bind (textAt _) fun _ => .bind (print _) fun _ => .pure _

theorem random (operands : List Operand) (generator : guise.generator = id)
    (entropy : guise.entropy = id) : Blind guise (random operands) := by
  obtain ⟨settings, _, _⟩ := guise
  subst generator entropy
  have draws {α : Type} (draw : Generator → α × Generator) :
      Blind { settings } (onGenerator draw) :=
    ⟨fun _ => rfl, fun _ _ _ failed => nomatch failed⟩
  have keys : Blind { settings } randomize := .modify fun _ => rfl
  refine .bind (oneOperand operands) ?_
  intro range
  dsimp only
  refine .ite (.bind (draws _) fun _ => storeAndContinue _) (.ite ?_ ?_)
  · exact .bind (note _ _) fun _ => .bind (draws _) fun _ => storeAndContinue 0
  · exact .bind (note _ _) fun _ => .bind keys fun _ => storeAndContinue 0

end Blind

/-- Operations are blind to what a guise changes. -/
theorem execute_blind (guise : Guise) (opcode : Opcode) (operands : List Operand)
    (random : opcode = .random → guise.generator = id ∧ guise.entropy = id) :
    Blind guise (opcode.execute operands) := by
  cases opcode with
  | je => exact .branchEqual operands
  | jl | jg | test => exact .bind (.twoOperands operands) fun _ => .branchOn _
  | decChk | incChk => exact .adjustAndBranch operands _
  | jin => exact .bind (.twoOperands operands) fun _ => .bind (.link _ _) fun _ => .branchOn _
  | or | and | add | sub | mul => exact .storeBinary operands fun _ _ => .ok _
  | div => exact .storeBinary operands floorDiv_arises
  | mod => exact .storeBinary operands floorMod_arises
  | testAttr => exact .branchFlag operands
  | setAttr | clearAttr => exact .setFlag operands _
  | store =>
      exact .bind (.twoOperands operands) fun _ => .bind (.variableOfWord _) fun _ =>
        .bind (.writeVariable _ _) fun _ => .pure _
  | insertObj =>
      exact .bind (.twoOperands operands) fun _ => .bind (.note _ _) fun _ =>
        .bind (.bind (.narrate fun _ => rfl) fun _ =>
          .onObjects (ObjectStore.insert_arises _ _)) fun _ => .pure _
  | loadw =>
      exact .bind (.twoOperands operands) fun _ => .bind (.ask (fun _ => rfl) fun machine =>
        (machine.memory.getWord_failsOnly _).arises) fun _ => .storeAndContinue _
  | loadb =>
      exact .bind (.twoOperands operands) fun _ => .bind (.ask (fun _ => rfl) fun machine =>
        (machine.memory.getByte_failsOnly _).arises) fun _ => .storeAndContinue _
  | getProp => exact .storeProperty operands ObjectTable.property_arises
  | getPropAddr => exact .storeProperty operands ObjectTable.propertyAddress_arises
  | getNextProp => exact .storeProperty operands ObjectTable.nextProperty_arises
  | jz => exact .bind (.oneOperand operands) fun _ => .branchOn _
  | getSibling | getChild => exact .storeLinkAndBranch operands _
  | getParent =>
      exact .bind (.oneOperand operands) fun _ => .bind (.link _ _) fun _ => .storeAndContinue _
  | getPropLen =>
      exact .bind (.oneOperand operands) fun _ => .bind (.ask (fun _ => rfl) fun machine =>
        (machine.memory.propertyLength_failsOnly _).arises) fun _ => .storeAndContinue _
  | inc | dec => exact .adjust operands _
  | printAddr | printPaddr => exact .printAt operands _
  | removeObj =>
      exact .bind (.oneOperand operands) fun _ => .bind (.note _ _) fun _ =>
        .bind (.bind (.narrate fun _ => rfl) fun _ =>
          .onObjects (ObjectStore.remove_arises _)) fun _ => .pure _
  | printObj =>
      exact .bind (.oneOperand operands) fun _ => .bind (.ask (fun _ => rfl) fun machine =>
        machine.objects.name_arises _) fun _ => .bind (.print _) fun _ => .pure _
  | ret => exact .bind (.oneOperand operands) fun _ => .returnValue _
  | jump => exact .bind (.oneOperand operands) fun _ => .bind (.jumpBy _) fun _ => .pure _
  | load =>
      exact .bind (.oneOperand operands) fun _ => .bind (.variableOfWord _) fun _ =>
        .bind (.readVariable _) fun _ => .storeAndContinue _
  | not => exact .bind (.oneOperand operands) fun _ => .storeAndContinue _
  | rtrue | rfalse => exact .returnValue _
  | print => exact .bind .printInline fun _ => .pure _
  | printRet => exact .bind .printInline fun _ => .bind (.print _) fun _ => .returnValue 1
  | nop => exact .pure _
  | retPopped =>
      exact .bind (.onFrame Frame.pop_arises) fun _ => .bind (.note _ _) fun _ => .returnValue _
  | pop => exact .bind (.onFrame Frame.pop_arises) fun _ => .pure _
  | quit => exact .bind (.note _ _) fun _ => .halt
  | newLine => exact .bind (.print _) fun _ => .pure _
  | call => exact .call operands
  | storew =>
      exact .bind (.threeOperands operands) fun _ => .bind (.note _ _) fun _ =>
        .bind (.onMemory (Memory.setWord_arises _ _)) fun _ => .bind (.refresh _ _) fun _ => .pure _
  | storeb =>
      exact .bind (.threeOperands operands) fun _ => .bind (.note _ _) fun _ =>
        .bind (.onMemory (Memory.setByte_arises _ _)) fun _ => .bind (.refresh _ _) fun _ => .pure _
  | putProp =>
      exact .bind (.threeOperands operands) fun _ =>
        .bind (.onObjects (ObjectStore.setProperty_arises _ _ _)) fun _ => .pure _
  | sread => exact .readInput operands
  | printChar =>
      refine .bind (.oneOperand operands) fun code => ?_
      dsimp only
      exact .ite (.bind (.print _) fun _ => .pure _) (.bind (.print _) fun _ => .pure _)
  | printNum => exact .bind (.oneOperand operands) fun _ => .bind (.print _) fun _ => .pure _
  | random =>
      obtain ⟨generator, entropy⟩ := random rfl
      exact .random operands generator entropy
  | push =>
      exact .bind (.oneOperand operands) fun _ => .bind (.onFrame fun _ => .ok _) fun _ => .pure _
  | pull =>
      exact .bind (.oneOperand operands) fun _ => .bind (.variableOfWord _) fun _ =>
        .bind (.onFrame Frame.pop_arises) fun _ => .bind (.writeVariable _ _) fun _ => .pure _

/-- A step that finds the same instruction in a guise, and notes it at the same
level, does the same. -/
theorem step_blind (guise : Guise) {machine : Machine}
    (next : (guise.apply machine).nextInstruction = machine.nextInstruction)
    (level : instructionLevel (guise.settings machine.settings) =
      instructionLevel machine.settings)
    (random : ∀ instruction, machine.nextInstruction = .ok (instruction, .random) →
      guise.generator = id ∧ guise.entropy = id) :
    step (guise.apply machine) = mapState guise.apply (step machine) := by
  simp only [step, next]
  cases found : machine.nextInstruction with
  | error fault => rfl
  | ok pair =>
      obtain ⟨instruction, opcode⟩ := pair
      have performed : Blind guise (perform instruction opcode) := by
        refine .bind (.setPc _) fun _ => execute_blind guise opcode _ ?_
        rintro rfl
        exact random instruction found
      have counted : (guise.apply machine).counted instruction opcode =
          guise.apply (machine.counted instruction opcode) := by
        simp only [Machine.counted, Guise.apply, level]
        rfl
      have calls : (guise.apply (machine.counted instruction opcode)).calls =
          (machine.counted instruction opcode).calls := rfl
      dsimp only
      rw [counted, calls, performed.same]
      split
      next => rfl
      next =>
        cases perform instruction opcode (machine.counted instruction opcode) with
        | ok outcome after => rfl
        | error cause after => rfl

end Machine

end StoryMachine
