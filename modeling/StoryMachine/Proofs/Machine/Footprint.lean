import StoryMachine.Proofs.Machine.Grammar
import StoryMachine.Proofs.Table.Bounds

/-!
# What operations write

Most of what an action does leaves the memory and the tables alone
(`Unwritten`).  What is written through the copies of the tables stays in the
regions of the global variables, of the flags and links, and of the property
data.  Only three operations write past the copies (`Opcode.isRaw`).  No operation
changes the size of the image or moves a table (`Confined`).

An operation of which a failure leaves the memory and the tables as they were is
`Atomic`.  The reason is always the same: nothing that can fail comes after the
write.  This holds of all operations but seven (`Opcode.mayBreakOff`), which go on
to write again or to take a branch.

Both need that the tables lie inside the image (`Placed`), and both hold whether
an operation succeeds or fails.
-/

namespace StoryMachine

/-- The operations that write past the copies of the tables. -/
def Opcode.isRaw : Opcode → Bool
  | .storew | .storeb | .sread => true
  | _ => false

/-- The operations that may fail after they have written. -/
def Opcode.mayBreakOff : Opcode → Bool
  | .sread | .insertObj | .removeObj | .getSibling | .getChild | .incChk | .decChk => true
  | _ => false

namespace Machine

variable {machine middle after : Machine} {α β : Type} {raw : Bool}

/-! ## Machines before and after -/

/-- The image of a machine with the copy of its object table. -/
def store (machine : Machine) : ObjectStore := { memory := machine.memory, table := machine.objects }

/-- The regions that are written through the copies of the tables. -/
def writable (machine : Machine) : List Region :=
  machine.globals.region :: machine.objects.editable

/-- The tables lie inside the image. -/
structure Placed (machine : Machine) : Prop where
  globals : machine.globals.region.Within machine.memory.size
  objects : machine.objects.Inside machine.memory.size

/-- The image has kept its size and the tables their places.  Unless there were raw
writes, no byte outside the writable regions has changed. -/
structure Confined (raw : Bool) (machine after : Machine) : Prop where
  size : after.memory.size = machine.memory.size
  base : after.globals.base = machine.globals.base
  shape : after.objects.shape = machine.objects.shape
  getByte : raw = false → ∀ x, (∀ region ∈ machine.writable, region.Misses x) →
    after.memory.getByte x = machine.memory.getByte x

/-- Nothing has changed but the frames, the output, the random numbers, the status,
the count and the log. -/
def Unwritten (machine after : Machine) : Prop :=
  ∃ calls output generator entropy status count log,
    after = { machine with calls, output, generator, entropy, status, count, log }

namespace Confined

theorem refl (raw : Bool) (machine : Machine) : Confined raw machine machine :=
  ⟨rfl, rfl, rfl, fun _ _ _ => rfl⟩

theorem writable_eq (confined : Confined raw machine after) : after.writable = machine.writable := by
  simp only [writable, Globals.region, confined.base,
    ObjectTable.editable_of_shape confined.shape]

theorem trans (first : Confined raw machine middle) (second : Confined raw middle after) :
    Confined raw machine after where
  size := second.size.trans first.size
  base := second.base.trans first.base
  shape := second.shape.trans first.shape
  getByte := by
    intro tame x misses
    have later := second.getByte tame x (first.writable_eq ▸ misses)
    exact later.trans (first.getByte tame x misses)

/-- Raw writes may be allowed for where there are none. -/
theorem mono {other : Bool} (confined : Confined raw machine after)
    (allowed : raw = true → other = true) : Confined other machine after where
  size := confined.size
  base := confined.base
  shape := confined.shape
  getByte := by
    intro tame
    refine confined.getByte (Bool.eq_false_iff.2 fun isRaw => ?_)
    rw [allowed isRaw] at tame
    cases tame

theorem placed (confined : Confined raw machine after) (placed : machine.Placed) :
    after.Placed where
  globals := by
    rw [Globals.region, confined.base, confined.size]
    exact placed.globals
  objects := by
    rw [confined.size]
    exact placed.objects.congr confined.shape

theorem of_store {store : ObjectStore} (confined : machine.store.Confined store) :
    Confined raw machine { machine with memory := store.memory, objects := store.table } where
  size := confined.size
  base := rfl
  shape := confined.shape
  getByte := fun _ x misses => confined.getByte x fun region member => misses region (.tail _ member)

end Confined

namespace Unwritten

theorem of_parts (machine : Machine) (calls : CallStack) (output : Output) (generator : Generator)
    (entropy : Entropy) (status : Status) (count : Nat) (log : Log) :
    Unwritten machine { machine with calls, output, generator, entropy, status, count, log } :=
  ⟨calls, output, generator, entropy, status, count, log, rfl⟩

theorem refl (machine : Machine) : Unwritten machine machine := .of_parts ..

theorem trans (first : Unwritten machine middle) (second : Unwritten middle after) :
    Unwritten machine after := by
  obtain ⟨_, _, _, _, _, _, _, rfl⟩ := first
  obtain ⟨_, _, _, _, _, _, _, rfl⟩ := second
  exact .of_parts ..

theorem confined (unwritten : Unwritten machine after) (raw : Bool) :
    Confined raw machine after := by
  obtain ⟨_, _, _, _, _, _, _, rfl⟩ := unwritten
  exact ⟨rfl, rfl, rfl, fun _ _ _ => rfl⟩

theorem placed (unwritten : Unwritten machine after) (placed : machine.Placed) : after.Placed :=
  (unwritten.confined false).placed placed

end Unwritten

/-! ## Actions that write nothing -/

/-- An action that writes nothing, whether it succeeds or fails. -/
def Inert (action : Action α) : Prop := ∀ machine, Unwritten machine (leaves action machine)

namespace Inert

theorem pure (a : α) : Inert (Pure.pure a) := Unwritten.refl

theorem throw (e : Error) : Inert (throw e : Action α) := Unwritten.refl

theorem get : Inert get := Unwritten.refl

theorem bind {first : Action α} {next : α → Action β} (inert : Inert first)
    (rest : ∀ a, Inert (next a)) : Inert (first >>= next) := by
  intro machine
  rcases leaves_bind first next machine with same | ⟨a, same⟩
  · rw [same]
    exact inert machine
  · rw [same]
    exact (inert machine).trans (rest a _)

theorem ask (question : Machine → Except Error α) : Inert (ask question) := by
  intro machine
  cases answer : question machine with
  | ok a =>
      simp only [leaves, Machine.ask, answer]
      exact .refl machine
  | error e =>
      simp only [leaves, Machine.ask, answer]
      exact .refl machine

theorem note (level : Level) (text : Unit → String) : Inert (note level text) :=
  fun _ => .of_parts ..

theorem narrate (level : Level) (texts : Machine → List String) : Inert (narrate level texts) :=
  fun _ => .of_parts ..

theorem print (text : String) : Inert (print text) := by
  intro machine
  obtain ⟨_, left⟩ := leaves_print text machine
  rw [left]
  exact .of_parts ..

theorem onGenerator (draw : Generator → α × Generator) : Inert (onGenerator draw) :=
  fun _ => .of_parts ..

theorem randomize : Inert randomize := fun _ => .of_parts ..

theorem halt : Inert halt := fun _ => .of_parts ..

theorem pushFrame (entered : Frame) : Inert (pushFrame entered) := fun _ => .of_parts ..

theorem popFrame : Inert popFrame := fun _ => .of_parts ..

theorem onFrame (change : Frame → Except Error (α × Frame)) : Inert (onFrame change) := by
  refine .bind (.ask _) ?_
  intro current
  cases change current with
  | ok pair => exact .bind (fun _ => .of_parts ..) fun _ => .pure _
  | error e => exact .throw e

theorem setPc (pc : Nat) : Inert (setPc pc) := .onFrame _

theorem fetchByte : Inert fetchByte :=
  .bind (.ask _) fun _ => .bind (.ask _) fun _ => .bind (.setPc _) fun _ => .pure _

theorem fetchBranch : Inert fetchBranch := by
  refine .bind .fetchByte ?_
  intro first
  dsimp only
  split
  next => exact .pure _
  next => exact .bind .fetchByte fun _ => .pure _

theorem jumpBy (offset : Int) : Inert (jumpBy offset) := by
  refine .bind (.ask _) ?_
  intro running
  dsimp only
  split
  next => exact .ask _
  next => exact .setPc _

theorem textAt (address : Nat) : Inert (textAt address) := .bind (.narrate _ _) fun _ => .ask _

theorem printInline : Inert printInline :=
  .bind (.ask _) fun _ => .bind (.textAt _) fun _ => .bind (.setPc _) fun _ => .print _

theorem testFlag (object flag : UInt16) : Inert (testFlag object flag) := by
  refine .bind (.ask _) ?_
  intro isSet
  split
  next => exact .bind (.note _ _) fun _ => .pure _
  next => exact .pure _

/-! ### Operands -/

theorem readVariable (number : UInt8) : Inert (readVariable number) := by
  simp only [Machine.readVariable]
  split
  next => exact .onFrame _
  next =>
    split
    next => exact .throw _
    next => exact .ask _

theorem variableOfWord (word : UInt16) : Inert (variableOfWord word) := by
  simp only [Machine.variableOfWord]
  split
  next => exact .pure _
  next => exact .throw _

theorem operandValues (operands : List Operand) : Inert (operandValues operands) := by
  induction operands with
  | nil => exact .pure _
  | cons operand rest ih =>
      refine .bind ?_ fun _ => .bind ih fun _ => .pure _
      simp only [operandValue]
      split
      next => exact .pure _
      next => exact .pure _
      next => exact .readVariable _
      next => exact .throw _

theorem firstOperands (count : Nat) (operands : List Operand) :
    Inert (firstOperands count operands) := by
  refine .bind (.operandValues operands) ?_
  intro values
  split
  next => exact .pure _
  next => exact .throw _

theorem oneOperand (operands : List Operand) : Inert (oneOperand operands) :=
  .bind (firstOperands 1 operands) fun _ => .pure _

theorem twoOperands (operands : List Operand) : Inert (twoOperands operands) :=
  .bind (firstOperands 2 operands) fun _ => .pure _

theorem threeOperands (operands : List Operand) : Inert (threeOperands operands) :=
  .bind (firstOperands 3 operands) fun _ => .pure _

end Inert

/-! ## Confined actions -/

/-- An action that leaves a confined machine, whether it succeeds or fails. -/
def Confines (raw : Bool) (action : Action α) : Prop :=
  ∀ machine, machine.Placed → Confined raw machine (leaves action machine)

theorem Inert.confines {action : Action α} (inert : Inert action) : Confines raw action :=
  fun machine _ => (inert machine).confined raw

namespace Confines

theorem bind {first : Action α} {next : α → Action β} (confines : Confines raw first)
    (rest : ∀ a, Confines raw (next a)) : Confines raw (first >>= next) := by
  intro machine placed
  have confined := confines machine placed
  rcases leaves_bind first next machine with same | ⟨a, same⟩
  · rw [same]
    exact confined
  · rw [same]
    exact confined.trans (rest a _ (confined.placed placed))

theorem onObjects {edit : ObjectStore.Edit α} (confines : ObjectStore.Confines edit) :
    Confines raw (onObjects edit) := by
  intro machine placed
  have confined := confines machine.store placed.objects
  simp only [leaves, store] at confined
  cases run : edit { memory := machine.memory, table := machine.objects } with
  | ok a store =>
      rw [run] at confined
      simp only [leaves, Machine.onObjects, run]
      exact .of_store confined
  | error e store =>
      rw [run] at confined
      simp only [leaves, Machine.onObjects, run]
      exact .of_store confined

theorem onMemory {update : Memory.Update α} (keeps : update.KeepsSize) :
    Confines true (onMemory update) := by
  intro machine placed
  have size := keeps machine.memory
  simp only [leaves] at size
  cases run : update machine.memory with
  | ok a memory =>
      rw [run] at size
      simp only [leaves, Machine.onMemory, run]
      exact ⟨size, rfl, rfl, fun tame => Bool.noConfusion tame⟩
  | error e memory =>
      rw [run] at size
      simp only [leaves, Machine.onMemory, run]
      exact ⟨size, rfl, rfl, fun tame => Bool.noConfusion tame⟩

end Confines

/-- The copies can be brought up to date after any write. -/
theorem exists_refresh (placed : machine.Placed) (address count : Nat) :
    ∃ after, refresh address count machine = .ok () after ∧ Confined raw machine after := by
  obtain ⟨globals, runGlobals, base⟩ := Globals.exists_refresh placed.globals address count
  obtain ⟨objects, runObjects, shape⟩ := ObjectTable.exists_refresh address count placed.objects
  have run : ∃ after, refresh address count machine = .ok () after := by
    simp only [refresh, refreshGlobals, refreshObjects]
    simp only [bind_eq_ok, ask_eq_ok, modify_eq_ok, narrate_eq_ok]
    exact ⟨_, (), _, ⟨globals, machine, ⟨runGlobals, rfl⟩, rfl⟩, (), _, rfl, objects, _,
      ⟨runObjects, rfl⟩, rfl⟩
  obtain ⟨after, run⟩ := run
  refine ⟨after, run, ?_⟩
  obtain ⟨_, _, _, sameGlobals, sameObjects, rfl⟩ := refresh_eq_ok run
  rw [runGlobals] at sameGlobals
  rw [runObjects] at sameObjects
  cases sameGlobals
  cases sameObjects
  exact ⟨rfl, base, shape, fun _ _ _ => rfl⟩

theorem Confines.refresh (address count : Nat) : Confines raw (refresh address count) := by
  intro machine placed
  obtain ⟨after, run, confined⟩ := exists_refresh placed address count
  rw [leaves_of_ok run]
  exact confined

theorem Confines.readLine : Confines raw readLine := by
  refine .bind Inert.get.confines ?_
  intro asked
  split
  next => exact (Inert.pure _).confines
  next =>
    refine .bind (fun _ _ => ⟨rfl, rfl, rfl, fun _ _ _ => rfl⟩) ?_
    intro _
    split
    next => exact (Inert.pure _).confines
    next => exact (Inert.throw _).confines

/-! ## Atomic actions -/

/-- What comes of an atomic action: a confined machine, or a failure before
anything was written. -/
inductive Settled (raw : Bool) (machine : Machine) : EStateM.Result Error Machine α → Prop where
  | done {a : α} {after : Machine} : Confined raw machine after → Settled raw machine (.ok a after)
  | failed {e : Error} {after : Machine} : Unwritten machine after →
      Settled raw machine (.error e after)

/-- An action that writes nothing when it fails. -/
def Atomic (raw : Bool) (action : Action α) : Prop :=
  ∀ machine, machine.Placed → Settled raw machine (action machine)

/-- An action that writes nothing and cannot fail. -/
def Harmless (action : Action α) : Prop :=
  ∀ machine, ∃ a after, action machine = .ok a after ∧ Unwritten machine after

theorem Harmless.pure (a : α) : Harmless (Pure.pure a) :=
  fun machine => ⟨a, machine, rfl, .refl machine⟩

theorem Harmless.note (level : Level) (text : Unit → String) : Harmless (note level text) :=
  fun _ => ⟨(), _, rfl, .of_parts ..⟩

theorem Inert.atomic {action : Action α} (inert : Inert action) : Atomic raw action := by
  intro machine placed
  have unwritten := inert machine
  cases run : action machine with
  | ok a after =>
      rw [leaves_of_ok run] at unwritten
      exact .done (unwritten.confined raw)
  | error e after =>
      rw [leaves_of_error run] at unwritten
      exact .failed unwritten

namespace Atomic

theorem confines {action : Action α} (atomic : Atomic raw action) : Confines raw action := by
  intro machine placed
  have settled := atomic machine placed
  cases run : action machine with
  | ok a after =>
      rw [run] at settled
      rw [leaves_of_ok run]
      cases settled with
      | done confined => exact confined
  | error e after =>
      rw [run] at settled
      rw [leaves_of_error run]
      cases settled with
      | failed unwritten => exact unwritten.confined raw

/-- Before the write anything may fail. -/
theorem bind {first : Action α} {next : α → Action β} (inert : Inert first)
    (rest : ∀ a, Atomic raw (next a)) : Atomic raw (first >>= next) := by
  intro machine placed
  have unwritten := inert machine
  show Settled raw machine (EStateM.bind first next machine)
  cases run : first machine with
  | ok a middle =>
      rw [leaves_of_ok run] at unwritten
      simp only [EStateM.bind, run]
      have settled := rest a middle (unwritten.placed placed)
      cases final : next a middle with
      | ok b after =>
          rw [final] at settled
          cases settled with
          | done confined => exact .done ((unwritten.confined raw).trans confined)
      | error e after =>
          rw [final] at settled
          cases settled with
          | failed later => exact .failed (unwritten.trans later)
  | error e middle =>
      rw [leaves_of_error run] at unwritten
      simp only [EStateM.bind, run]
      exact .failed unwritten

/-- After the write nothing can fail. -/
theorem followedBy {first : Action α} {next : α → Action β} (atomic : Atomic raw first)
    (rest : ∀ a, Harmless (next a)) : Atomic raw (first >>= next) := by
  intro machine placed
  have settled := atomic machine placed
  show Settled raw machine (EStateM.bind first next machine)
  cases run : first machine with
  | ok a middle =>
      obtain ⟨b, after, final, unwritten⟩ := rest a middle
      rw [run] at settled
      simp only [EStateM.bind, run, final]
      cases settled with
      | done confined => exact .done (confined.trans (unwritten.confined raw))
  | error e middle =>
      rw [run] at settled
      simp only [EStateM.bind, run]
      cases settled with
      | failed unwritten => exact .failed unwritten

theorem onObjects {edit : ObjectStore.Edit α}
    (edited : ∀ store : ObjectStore, store.table.Inside store.memory.size →
      store.Edited (edit store)) : Atomic raw (onObjects edit) := by
  intro machine placed
  have edited : machine.store.Edited (edit { memory := machine.memory, table := machine.objects }) :=
    edited machine.store placed.objects
  cases run : edit { memory := machine.memory, table := machine.objects } with
  | ok a final =>
      rw [run] at edited
      simp only [Machine.onObjects, run]
      cases edited with
      | done confined => exact .done (.of_store confined)
  | error e final =>
      rw [run] at edited
      simp only [Machine.onObjects, run]
      cases edited with
      | refused => exact .failed (.refl machine)

theorem setGlobal (index : UInt8) (value : UInt16) : Atomic raw (setGlobal index value) := by
  intro machine placed
  by_cases h : index.toNat < globalCount
  · obtain ⟨globals, memory, set⟩ := Globals.exists_set placed.globals h value
    have run : Machine.setGlobal index value machine = .ok () { machine with memory, globals } :=
      setGlobal_eq_ok.2 ⟨globals, memory, set, rfl⟩
    rw [run]
    obtain ⟨-, write, rfl⟩ := Globals.set_eq_ok set
    obtain ⟨frame, -, -⟩ := Memory.setWord_eq_ok write
    refine .done ⟨frame.size, rfl, rfl, ?_⟩
    intro _ x misses
    refine (misses _ (.head _)).getByte frame (Nat.le_add_right _ _) ?_
    simp only [globalCount] at h
    simp only [Globals.region, Globals.address, globalCount]
    omega
  · simp only [Machine.setGlobal, Globals.set, dif_neg h]
    exact .failed (.refl machine)

theorem overwrite {address : Nat} {length : α → Nat} {update : Memory.Update α}
    (keeps : update.KeepsSize)
    (whole : ∀ memory e written, update memory = .error e written → written = memory) :
    Atomic true (overwrite address length update) := by
  intro machine placed
  have confined := Confines.onMemory keeps machine placed
  cases run : update machine.memory with
  | ok a memory =>
      have written := onMemory_eq_ok.2 ⟨memory, run, rfl⟩
      rw [leaves_of_ok written] at confined
      obtain ⟨after, refreshed, later⟩ := exists_refresh (confined.placed placed) address (length a)
      have final : Machine.overwrite address length update machine = .ok a after := by
        simp only [Machine.overwrite, bind_eq_ok]
        exact ⟨a, _, written, (), after, refreshed, rfl⟩
      rw [final]
      exact .done (confined.trans later)
  | error e memory =>
      cases whole _ _ _ run
      have failed : Machine.overwrite address length update machine = .error e machine := by
        refine bind_eq_error.2 (.inl ?_)
        simp only [Machine.onMemory, run]
      rw [failed]
      exact .failed (.refl machine)

end Atomic

end Machine

end StoryMachine
