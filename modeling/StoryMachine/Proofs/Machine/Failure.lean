import StoryMachine.Machine.Step
import StoryMachine.Proofs.Memory.Bytes

/-!
# Why operations fail

Three causes belong to the search for the next instruction: the budget is used
up, the byte starts no instruction, or the number has no operation.  No operation
fails for one of them.  This module shows it for everything that operations ask
of the memory, the tables and the frames, and for every change they make there.
-/

namespace StoryMachine

/-- The causes for which an operation may fail. -/
def Error.Arises : Error → Prop
  | .undecodable _ _ => False
  | .unimplemented _ _ => False
  | .instructionLimit _ => False
  | _ => True

theorem FailsOnly.arises {α : Type} {memory : Memory} {computation : Except Error α}
    (fails : FailsOnly memory.Outside computation) : FailsOnly Error.Arises computation := by
  refine fails.mono ?_
  rintro _ ⟨place, rfl⟩
  trivial

/-! ## Memory -/

namespace Memory

variable (memory : Memory) (address : Nat)

theorem slice_failsOnly (count : Nat) : FailsOnly memory.Outside (memory.slice address count) :=
  .ite (.ok _) (FailsOnly.error.2 ⟨address, rfl⟩)

theorem getWords_failsOnly : ∀ count, FailsOnly memory.Outside (memory.getWords address count)
  | 0 => .ok _
  | count + 1 =>
      .bind (getWords_failsOnly count) fun _ _ =>
        .bind (memory.getWord_failsOnly _) fun _ _ => .pure _

theorem propertyLength_failsOnly (dataAddress : UInt16) :
    FailsOnly memory.Outside (memory.propertyLength dataAddress) :=
  .ite (.ok _) (.bind (memory.getByte_failsOnly _) fun _ _ => .pure _)

theorem setByte_arises (value : UInt8) : RunFailsOnly Error.Arises (setByte address value) := by
  intro memory e written failed
  simp only [setByte] at failed
  split at failed
  next => cases failed
  next =>
    cases failed
    trivial

theorem setWord_arises (value : UInt16) : RunFailsOnly Error.Arises (setWord address value) := by
  intro memory e written failed
  simp only [setWord] at failed
  split at failed
  next => cases failed
  next =>
    cases failed
    trivial

theorem setBytes_arises : ∀ (address : Nat) (bytes : List UInt8),
    RunFailsOnly Error.Arises (setBytes address bytes)
  | _, [] => .pure _
  | address, byte :: rest => .bind (setByte_arises address byte) fun _ => setBytes_arises _ rest

theorem reading_arises {α : Type} {read : Memory → Except Error α}
    (fails : ∀ memory, FailsOnly Error.Arises (read memory)) :
    RunFailsOnly Error.Arises (Update.reading read) := by
  intro memory e written failed
  simp only [Update.reading] at failed
  split at failed
  next => cases failed
  next cause found =>
    cases failed
    exact fails memory e found

end Memory

theorem Packed.read_failsOnly (memory : Memory) (address : Nat) :
    FailsOnly memory.Outside (read memory address) :=
  .ite (.ok _) (FailsOnly.error.2 ⟨_, rfl⟩)

theorem Packed.decodeAt_failsOnly (memory : Memory) (address : Nat) (expand : Nat → String) :
    FailsOnly memory.Outside (decodeAt memory address expand) :=
  .bind (read_failsOnly memory address) fun _ _ => .pure _

theorem TextBuffer.write_arises (address : Nat) (line : String) :
    RunFailsOnly Error.Arises (write address line) :=
  .bind (Memory.reading_arises fun memory => (memory.getByte_failsOnly address).arises) fun _ =>
    .bind (Memory.setBytes_arises _ _) fun _ => .bind (Memory.setByte_arises _ _) fun _ => .pure _

namespace ParseBuffer

theorem writeBlocks_arises (dictionary : Dictionary) : ∀ (address : Nat) (tokens : List Token),
    RunFailsOnly Error.Arises (writeBlocks dictionary address tokens)
  | _, [] => .pure _
  | address, token :: rest => by
      refine .bind ?_ fun _ => writeBlocks_arises dictionary _ rest
      exact .bind (Memory.setWord_arises _ _) fun _ =>
        .bind (Memory.setByte_arises _ _) fun _ => Memory.setByte_arises _ _

theorem write_arises (dictionary : Dictionary) (address : Nat) (tokens : List Token) :
    RunFailsOnly Error.Arises (write dictionary address tokens) :=
  .bind (Memory.reading_arises fun memory => (memory.getByte_failsOnly address).arises) fun _ =>
    .bind (Memory.setByte_arises _ _) fun _ =>
      .bind (writeBlocks_arises dictionary _ _) fun _ => .pure _

end ParseBuffer

/-! ## Global variables -/

namespace Globals

theorem get_arises (globals : Globals) (index : UInt8) :
    FailsOnly Error.Arises (globals.get index) := by
  simp only [get]
  split
  next => exact .ok _
  next => exact FailsOnly.error.2 trivial

theorem set_arises (globals : Globals) (index : UInt8) (value : UInt16) :
    RunFailsOnly Error.Arises (globals.set index value) := by
  simp only [set]
  split
  next => exact .bind (Memory.setWord_arises _ _) fun _ => .pure _
  next => exact .throw trivial

theorem refresh_failsOnly (globals : Globals) (memory : Memory) (address count : Nat) :
    FailsOnly memory.Outside (globals.refresh memory address count) := by
  refine FailsOnly.foldlM ?_ _ globals
  intro globals index
  simp only [reload]
  split
  next => exact .bind (memory.getWord_failsOnly _) fun _ _ => .pure _
  next => exact .ok _

end Globals

/-! ## Objects -/

namespace ObjectTable

variable (table : ObjectTable) (number : UInt16)

theorem object_arises : FailsOnly Error.Arises (table.object number) := by
  simp only [object]
  split
  next => exact .ok _
  next =>
    split
    next => exact .ok _
    next => exact FailsOnly.error.2 trivial

theorem link_arises (link : Link) : FailsOnly Error.Arises (table.link link number) :=
  .bind (table.object_arises number) fun _ _ => .pure _

theorem name_arises : FailsOnly Error.Arises (table.name number) :=
  .bind (table.object_arises number) fun _ _ => .pure _

theorem testAttribute_arises (flag : UInt16) :
    FailsOnly Error.Arises (table.testAttribute number flag) := by
  refine .bind (table.object_arises number) fun _ _ => ?_
  split
  next => exact .pure _
  next => exact .pure _

theorem property_arises (property : UInt8) :
    FailsOnly Error.Arises (table.property number property) := by
  refine .bind (table.object_arises number) fun _ _ => ?_
  split
  next => exact .pure _
  next => exact .pure _

theorem propertyAddress_arises (property : UInt8) :
    FailsOnly Error.Arises (table.propertyAddress number property) := by
  refine .bind (table.object_arises number) fun _ _ => ?_
  split
  next => exact .pure _
  next => exact .pure _

theorem nextProperty_arises (property : UInt8) :
    FailsOnly Error.Arises (table.nextProperty number property) := by
  refine .bind (table.object_arises number) fun _ _ => .ite (.pure _) ?_
  split
  next => exact .pure _
  next => exact FailsOnly.throw.2 trivial

theorem predecessor_arises : ∀ (limit : Nat) (current : UInt16),
    FailsOnly Error.Arises (table.predecessor number limit current)
  | 0, current => by
      rw [predecessor]
      exact .ite (.ok _) (.ok _)
  | limit + 1, current => by
      rw [predecessor]
      exact .ite (.ok _) (.bind (table.link_arises current .sibling) fun _ _ =>
        .ite (.pure _) (predecessor_arises limit _))

end ObjectTable

theorem Object.readAttributes_failsOnly (memory : Memory) (record : Nat) :
    FailsOnly memory.Outside (readAttributes memory record) :=
  .bind (memory.getByte_failsOnly _) fun _ _ => .bind (memory.getByte_failsOnly _) fun _ _ =>
    .bind (memory.getByte_failsOnly _) fun _ _ => .bind (memory.getByte_failsOnly _) fun _ _ =>
      .pure _

theorem Object.refresh_failsOnly (memory : Memory) (address count record : Nat) (object : Object) :
    FailsOnly memory.Outside (object.refresh memory address count record) := by
  have links : FailsOnly memory.Outside (object.refreshRecord memory record) :=
    .bind (readAttributes_failsOnly memory record) fun _ _ =>
      .bind (memory.getByte_failsOnly _) fun _ _ => .bind (memory.getByte_failsOnly _) fun _ _ =>
        .bind (memory.getByte_failsOnly _) fun _ _ => .pure _
  have property (property : Property) :
      FailsOnly memory.Outside (property.refresh memory address count) :=
    .ite (.bind (memory.slice_failsOnly _ _) fun _ _ => .pure _) (.ok _)
  simp only [refresh]
  split
  next => exact .bind links fun _ _ => .bind (.mapM property _) fun _ _ => .pure _
  next => exact .bind (.ok _) fun _ _ => .bind (.mapM property _) fun _ _ => .pure _

theorem ObjectTable.refresh_failsOnly (table : ObjectTable) (memory : Memory)
    (address count : Nat) : FailsOnly memory.Outside (table.refresh memory address count) := by
  have objects : ∀ (record : Nat) (objects : List Object),
      FailsOnly memory.Outside (refreshObjects memory address count record objects) := by
    intro record objects
    induction objects generalizing record with
    | nil => exact .ok _
    | cons object rest ih =>
        exact .bind (object.refresh_failsOnly memory address count record) fun _ _ =>
          .bind (ih _) fun _ _ => .pure _
  simp only [refresh]
  split
  next =>
    exact .bind (memory.getWords_failsOnly _ _) fun _ _ => .bind (objects _ _) fun _ _ => .pure _
  next => exact .bind (.ok _) fun _ _ => .bind (objects _ _) fun _ _ => .pure _

namespace ObjectStore

theorem onMemory_arises {α : Type} {update : Memory.Update α}
    (fails : RunFailsOnly Error.Arises update) : RunFailsOnly Error.Arises (onMemory update) := by
  intro store e after failed
  simp only [onMemory] at failed
  split at failed
  next => cases failed
  next updated =>
    cases failed
    exact fails _ _ _ updated

theorem asking_arises {α : Type} {question : ObjectTable → Except Error α}
    (fails : ∀ table, FailsOnly Error.Arises (question table)) :
    RunFailsOnly Error.Arises (asking question) := by
  intro store e after failed
  simp only [asking] at failed
  split at failed
  next => cases failed
  next answered =>
    cases failed
    exact fails _ _ answered

theorem setLink_arises (link : Link) (number target : UInt16) :
    RunFailsOnly Error.Arises (setLink link number target) := by
  refine .bind .get fun store => ?_
  dsimp only
  split
  next => exact .pure _
  next =>
    split
    next => exact .throw trivial
    next =>
      split
      next => exact .throw trivial
      next => exact .bind (.modify _) fun _ => onMemory_arises (Memory.setByte_arises _ _)

theorem setAttribute_arises (number flag : UInt16) (value : Bool) :
    RunFailsOnly Error.Arises (setAttribute number flag value) := by
  refine .bind (asking_arises fun table => table.object_arises number) fun object => ?_
  split
  next => exact .pure _
  next =>
    split
    next => exact .pure _
    next =>
      exact .bind .get fun _ => .bind (.modify _) fun _ =>
        onMemory_arises (Memory.setByte_arises _ _)

theorem setProperty_arises (number : UInt16) (property : UInt8) (value : UInt16) :
    RunFailsOnly Error.Arises (setProperty number property value) := by
  refine .bind (asking_arises fun table => table.object_arises number) fun object => ?_
  split
  next => exact .throw trivial
  next =>
    refine .bind (.modify _) fun _ => ?_
    split
    next => exact onMemory_arises (Memory.setByte_arises _ _)
    next => exact onMemory_arises (Memory.setWord_arises _ _)

theorem insert_arises (number destination : UInt16) :
    RunFailsOnly Error.Arises (insert number destination) := by
  simp only [insert]
  split
  next => exact .throw trivial
  next =>
    exact .bind (asking_arises fun table => table.link_arises destination .child) fun _ =>
      .bind (setLink_arises _ _ _) fun _ => .bind (setLink_arises _ _ _) fun _ =>
        setLink_arises _ _ _

theorem unlink_arises (parent number sibling : UInt16) :
    RunFailsOnly Error.Arises (unlink parent number sibling) := by
  refine .bind (asking_arises fun table => table.link_arises parent .child) fun first => ?_
  split
  next => exact setLink_arises _ _ _
  next =>
    refine .bind (asking_arises fun table => table.predecessor_arises number _ first) ?_
    intro found
    cases found with
    | found before => exact setLink_arises _ _ _
    | absent => exact .pure _
    | endless => exact .pure _

theorem remove_arises (number : UInt16) : RunFailsOnly Error.Arises (remove number) := by
  refine .bind (asking_arises fun table => table.link_arises number .parent) fun parent => ?_
  split
  next => exact .pure _
  next =>
    exact .bind (asking_arises fun table => table.link_arises number .sibling) fun _ =>
      .bind (unlink_arises _ _ _) fun _ => .bind (setLink_arises _ _ _) fun _ =>
        setLink_arises _ _ _

end ObjectStore

/-! ## Frames and numbers -/

namespace Frame

theorem pop_arises (frame : Frame) : FailsOnly Error.Arises frame.pop := by
  simp only [pop]
  split
  next => exact FailsOnly.error.2 trivial
  next => exact .ok _

theorem read_arises (frame : Frame) (number : UInt8) :
    FailsOnly Error.Arises (frame.read number) := by
  refine .ite frame.pop_arises (.ite (FailsOnly.error.2 trivial) ?_)
  split
  next => exact .ok _
  next => exact FailsOnly.error.2 trivial

theorem write_arises (frame : Frame) (number : UInt8) (value : UInt16) :
    FailsOnly Error.Arises (frame.write number value) :=
  .ite (.ok _) (.ite (FailsOnly.error.2 trivial) (.ok _))

theorem initialLocals_failsOnly (memory : Memory) : ∀ (address count : Nat)
    (arguments : List UInt16),
    FailsOnly memory.Outside (initialLocals memory address count arguments)
  | _, 0, _ => .ok _
  | address, count + 1, arguments =>
      .bind (memory.getWord_failsOnly address) fun _ _ =>
        .bind (initialLocals_failsOnly memory _ count arguments.tail) fun _ _ => .pure _

theorem call_arises (memory : Memory) (routine : Nat) (arguments : List UInt16) :
    FailsOnly Error.Arises (call memory routine arguments) := by
  have declared : FailsOnly Error.Arises (declaredLocals memory routine) :=
    .bind (memory.getByte_failsOnly routine).arises fun _ _ =>
      .ite (FailsOnly.throw.2 trivial) (.pure _)
  exact .bind declared fun _ _ =>
    .bind (initialLocals_failsOnly memory _ _ arguments).arises fun _ _ => .pure _

end Frame

theorem floorDiv_arises (a b : UInt16) : FailsOnly Error.Arises (floorDiv a b) :=
  .ite (FailsOnly.error.2 trivial) (.ite (.ok _) (.ok _))

theorem floorMod_arises (a b : UInt16) : FailsOnly Error.Arises (floorMod a b) :=
  .ite (FailsOnly.error.2 trivial) (.ite (.ok _) (.ok _))

end StoryMachine
