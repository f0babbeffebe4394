import StoryMachine.Proofs.Machine.Atomicity
import StoryMachine.Proofs.Machine.Coherence
import StoryMachine.Proofs.Table.Refresh

/-!
# Raw writes keep the copies up to date

Three operations write to any bytes of memory, past the copies of the tables
(`Opcode.isRaw`).  Each of their writes is followed by a refresh of a range that
holds every byte it may have changed, and such an overwriting restores the agreement
of both copies with memory wherever the tables lie (`Faithful.overwrite`).  Reading a
line overwrites twice, and the second range may meet the first and any table.

So, unlike a write through one copy, a raw write does not need that the tables are
apart.
-/

namespace StoryMachine

namespace Machine

variable {first machine after : Machine}

/-! ## Faithful copies -/

/-- Both copies agree with memory, and the tables lie where they lay in another
machine. -/
structure Faithful (first machine : Machine) : Prop where
  globals : machine.globals.Agrees machine.memory
  objects : machine.objects.Agrees machine.memory
  base : machine.globals.base = first.globals.base
  shape : machine.objects.shape = first.objects.shape

namespace Faithful

theorem unwritten (faithful : first.Faithful machine) (unwritten : Unwritten machine after) :
    first.Faithful after := by
  obtain ⟨_, _, _, _, _, _, _, rfl⟩ := unwritten
  exact ⟨faithful.globals, faithful.objects, faithful.base, faithful.shape⟩

theorem readLine {line : Option String} (faithful : first.Faithful machine)
    (run : Machine.readLine machine = .ok line after) : first.Faithful after := by
  rcases readLine_eq_ok.1 run with ⟨-, -, rfl⟩ | ⟨_, _, -, -, rfl⟩
  · exact faithful
  · exact ⟨faithful.globals, faithful.objects, faithful.base, faithful.shape⟩

/-- Overwriting bytes of a range and refreshing the range restores agreement, whatever
the range meets. -/
theorem overwrite {α : Type} {address : Nat} {length : α → Nat} {update : Memory.Update α} {a : α}
    (faithful : first.Faithful machine)
    (within : ∀ memory a written, update memory = .ok a written →
      memory.SameOutside written address (length a))
    (run : Machine.overwrite address length update machine = .ok a after) :
    first.Faithful after := by
  obtain ⟨memory, globals, objects, _, write, refreshGlobals, refreshObjects, rfl⟩ :=
    overwrite_eq_ok run
  have frame := within _ _ _ write
  obtain ⟨globalsAgree, base⟩ := Globals.refresh_agrees frame faithful.globals refreshGlobals
  obtain ⟨objectsAgree, shape⟩ :=
    ObjectTable.refresh_agrees frame faithful.objects refreshObjects
  exact ⟨globalsAgree, objectsAgree, base.trans faithful.base, shape.trans faithful.shape⟩

end Faithful

/-! ## Actions that write raw -/

/-- An action that writes memory only by overwriting a range and refreshing it. -/
inductive Overwriting : {α : Type} → Action α → Prop where
  | inert {α : Type} {action : Action α} : Inert action → Overwriting action
  | bind {α β : Type} {action : Action α} {next : α → Action β} :
      Overwriting action → (∀ a, Overwriting (next a)) → Overwriting (action >>= next)
  | readLine : Overwriting readLine
  | overwrite {α : Type} {address : Nat} {length : α → Nat} {update : Memory.Update α} :
      (∀ memory a written, update memory = .ok a written →
        memory.SameOutside written address (length a)) →
      Overwriting (overwrite address length update)

namespace Overwriting

theorem overwrite_then {α β : Type} {address : Nat} (length : α → Nat)
    {update : Memory.Update α} {next : α → Action β}
    (within : ∀ memory a written, update memory = .ok a written →
      memory.SameOutside written address (length a)) (rest : ∀ a, Inert (next a)) :
    Overwriting (do let a ← onMemory update; refresh address (length a); next a) := by
  rw [overwrite_bind]
  exact .bind (.overwrite within) fun a => .inert (rest a)

theorem writeWord (operands : List Operand) : Overwriting (writeWord operands) :=
  .bind (.inert (.threeOperands operands)) fun _ => .bind (.inert (.note _ _)) fun _ =>
    .overwrite_then (fun _ => 2) (fun _ _ _ write => (Memory.setWord_eq_ok write).1)
      fun _ => .pure _

theorem writeByte (operands : List Operand) : Overwriting (writeByte operands) :=
  .bind (.inert (.threeOperands operands)) fun _ => .bind (.inert (.note _ _)) fun _ =>
    .overwrite_then (fun _ => 1) (fun _ _ _ write => (Memory.setByte_eq_ok write).1)
      fun _ => .pure _

theorem storeLine (textBuffer : UInt16) (line : String) :
    Overwriting (storeLine textBuffer line) :=
  .overwrite_then _ (fun _ _ _ write => TextBuffer.sameOutside_of_write write)
    fun _ => .bind (.note _ _) fun _ => .pure _

theorem storeWords (parseBuffer : UInt16) (text : String) :
    Overwriting (storeWords parseBuffer text) := by
  refine .bind (.inert .get) fun machine => .bind (.inert (.narrate _ _)) fun _ => ?_
  have within : ∀ memory count written, ParseBuffer.write machine.dictionary parseBuffer.toNat
      (Token.split machine.dictionary.separators text) memory = .ok count written →
        memory.SameOutside written parseBuffer.toNat (2 + 4 * count) :=
    fun _ _ _ write => ParseBuffer.sameOutside_of_write write
  have whole := overwrite_then _ within fun _ => Inert.pure ()
  simp only [bind_pure_unit] at whole
  exact whole

theorem readInput (operands : List Operand) : Overwriting (readInput operands) := by
  refine .bind (.inert (.operandValues operands)) ?_
  intro values
  cases values with
  | nil => exact .inert (.throw _)
  | cons textBuffer buffers =>
      refine .bind .readLine ?_
      intro line
      cases line with
      | none => exact .inert (.bind (.note _ _) fun _ => .halt)
      | some line =>
          refine .bind (.storeLine textBuffer line) ?_
          intro stored
          cases buffers with
          | nil => exact .inert (.pure _)
          | cons parseBuffer _ =>
              exact .bind (.storeWords parseBuffer stored) fun _ => .inert (.pure _)

theorem execute {opcode : Opcode} (isRaw : opcode.isRaw = true) (operands : List Operand) :
    Overwriting (opcode.execute operands) := by
  cases opcode with
  | storew => exact .writeWord operands
  | storeb => exact .writeByte operands
  | sread => exact .readInput operands
  | _ => cases isRaw

/-- Faithful copies stay so, however many ranges are overwritten. -/
theorem faithful {α : Type} {action : Action α} (overwriting : Overwriting action) :
    ∀ {a : α} {machine after : Machine}, action machine = .ok a after →
      first.Faithful machine → first.Faithful after := by
  induction overwriting with
  | inert inert =>
      intro a machine after run faithful
      have unwritten := inert machine
      rw [leaves_of_ok run] at unwritten
      exact faithful.unwritten unwritten
  | bind _ _ ihAction ihNext =>
      intro b machine after run faithful
      obtain ⟨a, middle, earlier, later⟩ := bind_eq_ok.1 run
      exact ihNext a later (ihAction earlier faithful)
  | readLine =>
      intro line machine after run faithful
      exact faithful.readLine run
  | overwrite within =>
      intro a machine after run faithful
      exact faithful.overwrite within run

end Overwriting

/-! ## Steps that write raw -/

/-- A loaded story has faithful copies. -/
theorem load_faithful {image : Array UInt8} {settings : Settings} {entropy : Entropy}
    {loaded : Machine} (isLoaded : load image settings entropy = .ok loaded) :
    loaded.Faithful loaded := by
  obtain ⟨header, abbreviations, dictionary, objects, globals, -, -, -, -, loadObjects,
    loadGlobals, rfl⟩ := load_eq_ok.1 isLoaded
  exact ⟨Globals.load_agrees loadGlobals, (ObjectTable.load_agrees loadObjects).1, rfl, rfl⟩

/-- A raw write or a read that succeeds leaves every global variable, default value,
flag, link and property in agreement with memory if they were so before, and moves
nothing: the names, the property headers, and the numbers, addresses and lengths of
the properties stay.  The tables and buffers may overlap in any way. -/
theorem step_raw_agrees {machine after : Machine} {outcome : Outcome}
    (globals : machine.globals.Agrees machine.memory)
    (objects : machine.objects.Agrees machine.memory) (isRaw : machine.nextIsRaw = true)
    (stepped : step machine = .ok outcome after) :
    after.globals.Agrees after.memory ∧ after.objects.Agrees after.memory ∧
      after.globals.base = machine.globals.base ∧ after.objects.shape = machine.objects.shape := by
  obtain ⟨instruction, opcode, next, calls, run⟩ := step_eq_ok.1 stepped
  have isRaw : opcode.isRaw = true := by simpa [nextIsRaw, next, calls] using isRaw
  have before : machine.Faithful machine := ⟨globals, objects, rfl, rfl⟩
  have begun := before.unwritten (machine.begun_unwritten instruction opcode)
  have faithful := (Overwriting.execute isRaw _).faithful run begun
  exact ⟨faithful.globals, faithful.objects, faithful.base, faithful.shape⟩

/-- A small story whose object table lies inside its global variables, one byte off
their words.  Its one instruction reads a line.  The words go to the last default value
and from there over the flags of the object, the text goes over the data of its
property, and all of these are global variables too. -/
def overlappingStory : Array UInt8 :=
  let header : List UInt8 :=
    [3, 0, 0x80, 0, 0, 0, 0x02, 0x24, 0x02, 0x20, 0x01, 0x01, 0, 0x40, 0, 0]
      ++ List.replicate 8 0 ++ [0, 0x40] ++ List.replicate 38 0
  let objects : List UInt8 :=
    List.replicate (2 * defaultCount - 2) 0 ++ [1, 0] ++ [0, 0, 0, 0, 0, 0, 0, 0x01, 0x48]
      ++ [0, 0x22, 0x12, 0x34, 0, 0, 0]
  let globals : List UInt8 := List.replicate 193 0 ++ objects ++ List.replicate 209 0
  let dictionary : List UInt8 := [0, 4, 0, 0]
  let code : List UInt8 := [0xe4, 0x0f, 0x01, 0x49, 0x01, 0x3d]
  (header ++ globals ++ dictionary ++ code).toArray

theorem step_raw_agrees_overlapping : ∃ loaded after : Machine,
    load overlappingStory {} (.ofSeed 0) = .ok loaded ∧
      ¬Separated loaded.globals loaded.objects ∧
      (∃ outcome, step { loaded with input := [.text "Go"] } = .ok outcome after) ∧
      (after.objects.objects.map fun object => object.properties.map Property.data) =
        #[[[0x67, 0x6f]]] ∧
      after.globals.Agrees after.memory ∧ after.objects.Agrees after.memory ∧
      after.objects.shape = loaded.objects.shape := by
  have checked : ((load overlappingStory {} (.ofSeed 0)).toOption.any fun loaded =>
      decide (¬Separated loaded.globals loaded.objects) && (loaded.nextIsRaw &&
        steps? { loaded with input := [.text "Go"] } fun _ after =>
          (after.objects.objects.map fun object => object.properties.map Property.data) =
            #[[[0x67, 0x6f]]])) = true := by
    decide +kernel
  obtain ⟨loaded, isLoaded, checked⟩ := exists_of_toOption_any checked
  obtain ⟨overlap, checked⟩ := Bool.and_eq_true_iff.1 checked
  obtain ⟨isRaw, checked⟩ := Bool.and_eq_true_iff.1 checked
  obtain ⟨outcome, after, stepped, written⟩ := exists_of_steps? checked
  have faithful := load_faithful isLoaded
  obtain ⟨globals, objects, -, shape⟩ :=
    @step_raw_agrees { loaded with input := [.text "Go"] } after outcome faithful.globals
      faithful.objects isRaw stepped
  exact ⟨loaded, after, isLoaded, of_decide_eq_true overlap, ⟨outcome, stepped⟩,
    of_decide_eq_true written, globals, objects, shape⟩

end Machine

end StoryMachine
