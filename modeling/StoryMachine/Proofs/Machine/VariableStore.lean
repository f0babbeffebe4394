import Mathlib.Logic.Function.Basic
import StoryMachine.Proofs.Machine.Reachable

/-!
# Variables as a store

Three kinds of variables share the numbers of one byte, and each kind is kept somewhere
else: the stack and the locals in the running frame, the global variables in a table of the
image and in a copy of it.  To a routine they are one store (`Variables`), with a stack, a
cell that may be empty for each local and a full cell for each global variable.

Each access to a variable does on the machine what it does on the store
(`perform_refines`), and so do accesses in a row, in any order and also after some of them
have failed (`accesses_refine_store`).
-/

namespace StoryMachine

/-! ## The store -/

/-- What the number of a variable names. -/
inductive Place where
  /-- The top of the stack. -/
  | top
  /-- A local variable. -/
  | slot (i : Fin 15)
  /-- A global variable. -/
  | cell (i : Fin 239)
  /-- Nothing. -/
  | nowhere

/-- The stack has the number 0, the local variables follow from 1 on and the global ones
from 16 on. -/
def Place.ofNumber (number : UInt8) : Place :=
  if number = 0 then .top
  else if h : number.toNat - 1 < 15 then .slot ⟨number.toNat - 1, h⟩
  else if h : number.toNat - 16 < 239 then .cell ⟨number.toNat - 16, h⟩
  else .nowhere

/-- A number is that of a place. -/
inductive Place.Numbers : Place → UInt8 → Prop where
  | top : Numbers .top 0
  | slot {number : UInt8} (i : Fin 15) : number.toNat = i + 1 → Numbers (.slot i) number
  | cell {number : UInt8} (i : Fin 239) : number.toNat = i + 16 → Numbers (.cell i) number
  | nowhere : Numbers .nowhere 255

theorem Place.numbers_ofNumber (number : UInt8) : (ofNumber number).Numbers number := by
  have less := number.toNat_lt
  rw [ofNumber]
  split_ifs with zero small large
  · subst zero
    exact .top
  · have positive : number.toNat ≠ 0 := fun no => zero (UInt8.toNat_inj.1 no)
    refine .slot _ ?_
    dsimp only
    omega
  · refine .cell _ ?_
    dsimp only
    omega
  · obtain rfl : number = 255 := UInt8.toNat_inj.1 (show number.toNat = 255 by omega)
    exact .nowhere

/-- A store of variables. -/
structure Variables where
  /-- The words on the stack, top first. -/
  stack : List UInt16
  /-- The local variables, which may have no value. -/
  locals : Fin 15 → Option UInt16
  /-- The global variables. -/
  globals : Fin 239 → UInt16

namespace Variables

/-- Reads a variable.  The stack loses its top. -/
def read (number : UInt8) : EStateM Error Variables UInt16 := fun store =>
  match Place.ofNumber number with
  | .top =>
      match store.stack with
      | [] => .error .stackUnderflow store
      | value :: stack => .ok value { store with stack }
  | .slot i =>
      match store.locals i with
      | none => .error (.unsetLocal number) store
      | some value => .ok value store
  | .cell i => .ok (store.globals i) store
  | .nowhere => .error (.invalidVariable 255) store

/-- Writes a variable.  The stack gets a new top. -/
def write (number : UInt8) (value : UInt16) : EStateM Error Variables Unit := fun store =>
  match Place.ofNumber number with
  | .top => .ok () { store with stack := value :: store.stack }
  | .slot i => .ok () { store with locals := Function.update store.locals i (some value) }
  | .cell i => .ok () { store with globals := Function.update store.globals i value }
  | .nowhere => .error (.invalidVariable 255) store

/-- One store differs from another at most in the variable of a number. -/
structure SameBut (number : UInt8) (store changed : Variables) : Prop where
  stack : number.toNat ≠ 0 → changed.stack = store.stack
  locals : ∀ i : Fin 15, number.toNat ≠ i + 1 → changed.locals i = store.locals i
  globals : ∀ i : Fin 239, number.toNat ≠ i + 16 → changed.globals i = store.globals i

theorem SameBut.refl (number : UInt8) (store : Variables) : SameBut number store store :=
  ⟨fun _ => rfl, fun _ _ => rfl, fun _ _ => rfl⟩

/-- A read changes the variable it reads, if any. -/
theorem read_sameBut (number : UInt8) (store : Variables) :
    SameBut number store (leaves (read number) store) := by
  have numbers := Place.numbers_ofNumber number
  simp only [leaves, read]
  generalize Place.ofNumber number = place at numbers
  cases numbers with
  | top =>
      cases stack : store.stack with
      | nil => exact .refl 0 store
      | cons value rest => exact ⟨fun nonzero => absurd rfl nonzero, fun _ _ => rfl, fun _ _ => rfl⟩
  | slot i =>
      dsimp only
      cases store.locals i with
      | none => exact .refl number store
      | some value => exact .refl number store
  | cell i => exact .refl number store
  | nowhere => exact .refl 255 store

/-- A write changes the variable it writes and no other. -/
theorem write_sameBut (number : UInt8) (value : UInt16) (store : Variables) :
    SameBut number store (leaves (write number value) store) := by
  have numbers := Place.numbers_ofNumber number
  simp only [leaves, write]
  generalize Place.ofNumber number = place at numbers
  cases numbers with
  | top => exact ⟨fun nonzero => absurd rfl nonzero, fun _ _ => rfl, fun _ _ => rfl⟩
  | slot i is =>
      refine ⟨fun _ => rfl, fun j other => Function.update_of_ne ?_ _ _, fun _ _ => rfl⟩
      rintro rfl
      exact other is
  | cell i is =>
      refine ⟨fun _ => rfl, fun _ _ => rfl, fun j other => Function.update_of_ne ?_ _ _⟩
      rintro rfl
      exact other is
  | nowhere => exact .refl 255 store

end Variables

/-! ## Accesses -/

/-- A use of a variable. -/
inductive Access where
  | read (number : UInt8)
  | write (number : UInt8) (value : UInt16)

namespace Access

/-- The number of the variable. -/
def number : Access → UInt8
  | read number => number
  | write number _ => number

/-- The access on a machine.  A read gives the value that was read. -/
def perform : Access → Action (Option UInt16)
  | read number => some <$> Machine.readVariable number
  | write number value => (fun _ => none) <$> Machine.writeVariable number value

/-- The access on a store. -/
def specify : Access → EStateM Error Variables (Option UInt16)
  | read number => some <$> Variables.read number
  | write number value => (fun _ => none) <$> Variables.write number value

/-- What an access does to the image.  A write of a global variable writes its word in the
table at `base`, and no other access writes anything. -/
def Writes (access : Access) (base : Nat) (memory written : Memory) : Prop :=
  match access with
  | read _ => written = memory
  | write number value =>
      if 16 ≤ number.toNat ∧ number.toNat ≤ 254 then
        written.getWord (base + 2 * (number.toNat - 16)) = .ok value ∧
          memory.SameOutside written (base + 2 * (number.toNat - 16)) 2
      else written = memory

theorem Writes.size {access : Access} {base : Nat} {memory written : Memory}
    (writes : access.Writes base memory written) : written.size = memory.size := by
  cases access with
  | read number =>
      cases writes
      rfl
  | write number value =>
      simp only [Writes] at writes
      split at writes
      next => exact writes.2.size
      next =>
        cases writes
        rfl

theorem specify_sameBut (access : Access) (store : Variables) :
    Variables.SameBut access.number store (leaves access.specify store) := by
  cases access with
  | read number =>
      rw [specify, leaves_map]
      exact Variables.read_sameBut number store
  | write number value =>
      rw [specify, leaves_map]
      exact Variables.write_sameBut number value store

end Access

/-! ## The variables of a machine -/

/-- The values that the variables have in a frame. -/
def Frame.values (running : Frame) (globals : Globals) : Variables where
  stack := running.stack
  locals i := running.locals.get (i.castLE (by decide))
  globals i := globals.cells.get (i.castLE (by decide))

/-- The first cells of a vector in which one cell has another value. -/
theorem get_castLE_eq_update {α : Type} {n m : Nat} (le : m ≤ n) {cells changed : Vector α n}
    {i : Fin m} {a : α} (set : ∀ j (h : j < n), changed[j] = if i = j then a else cells[j]) :
    (fun j : Fin m => changed.get (j.castLE le)) =
      Function.update (fun j => cells.get (j.castLE le)) i a := by
  funext j
  have held := set j (j.castLE le).isLt
  by_cases same : j = i
  · subst same
    rw [Function.update_self]
    exact held.trans (if_pos rfl)
  · rw [Function.update_of_ne same]
    exact held.trans (if_neg fun is => same (Fin.ext is.symm))

namespace Frame

variable (running : Frame) (globals : Globals) (value : UInt16) {number : UInt8}

section Slot

variable {i : Fin 15} (is : number.toNat = i + 1)

include is

theorem ne_zero_of_slot : number ≠ 0 := by
  rintro rfl
  cases is

theorem not_lt_of_slot : ¬maxLocals < number.toNat := by
  simp only [maxLocals]
  omega

theorem read_slot :
    running.read number = match (running.values globals).locals i with
      | none => .error (.unsetLocal number)
      | some value => .ok (value, running) := by
  have nonzero := ne_zero_of_slot is
  have bound : i.val < maxLocals := i.isLt
  have held : running.local? number = (running.values globals).locals i := by
    rw [local?, if_neg nonzero, is, Nat.add_sub_cancel, Vector.getElem?_eq_getElem bound]
    rfl
  rw [read, if_neg nonzero, if_neg (not_lt_of_slot is), held]
  cases (running.values globals).locals i with
  | none => rfl
  | some value => rfl

theorem write_slot :
    ∃ locals, running.write number value = .ok { running with locals } ∧
      values { running with locals } globals =
        { running.values globals with
          locals := Function.update (running.values globals).locals i (some value) } := by
  refine ⟨running.locals.setIfInBounds i (some value), ?_, ?_⟩
  · rw [write, if_neg (ne_zero_of_slot is), if_neg (not_lt_of_slot is), is, Nat.add_sub_cancel]
  · simp only [values, Variables.mk.injEq, true_and, and_true]
    exact get_castLE_eq_update _ fun j h => Vector.getElem_setIfInBounds h

end Slot

theorem values_set_cell (i : Fin 239) (h : i < globalCount) :
    running.values { globals with cells := globals.cells.set i value h } =
      { running.values globals with
        globals := Function.update (running.values globals).globals i value } := by
  simp only [values, Variables.mk.injEq, true_and]
  exact get_castLE_eq_update _ fun j => Vector.getElem_set h

end Frame

namespace Machine

variable {machine : Machine} {running : Frame} {below : CallStack} {number : UInt8}

/-- The values that the variables have in the running frame. -/
def values (machine : Machine) : Variables :=
  (machine.calls.headD (Frame.main 0)).values machine.globals

theorem values_of_calls (calls : machine.calls = running :: below) :
    machine.values = running.values machine.globals := by
  rw [values, calls]
  rfl

/-- Two machines differ at most in the values of variables and in the image.  The last
global variable has no number and stays the same. -/
structure OnlyVariables (machine after : Machine) : Prop where
  last : after.globals.get 239 = machine.globals.get 239
  rest : ∃ memory cells stack locals, after = { machine with
    memory
    globals := { machine.globals with cells }
    calls := machine.calls.modifyHead fun running => { running with stack, locals } }

namespace OnlyVariables

theorem refl (machine : Machine) : OnlyVariables machine machine := by
  refine ⟨rfl, machine.memory, machine.globals.cells, machine.values.stack,
    (machine.calls.headD (Frame.main 0)).locals, ?_⟩
  have same : machine.calls = machine.calls.modifyHead fun running => { running with
      stack := machine.values.stack
      locals := (machine.calls.headD (Frame.main 0)).locals } := by
    simp only [values]
    cases machine.calls with
    | nil => rfl
    | cons running below => rfl
  rw [← same]

theorem trans {middle after : Machine} (first : OnlyVariables machine middle)
    (second : OnlyVariables middle after) : OnlyVariables machine after := by
  obtain ⟨last, memory, cells, stack, locals, rfl⟩ := first
  obtain ⟨last', memory, cells, stack, locals, rfl⟩ := second
  refine ⟨last'.trans last, memory, cells, stack, locals, ?_⟩
  rw [List.modifyHead_modifyHead]
  rfl

theorem of_frame (calls : machine.calls = running :: below) (stack : List UInt16)
    (locals : Vector (Option UInt16) maxLocals) :
    OnlyVariables machine { machine with calls := { running with stack, locals } :: below } := by
  refine ⟨rfl, machine.memory, machine.globals.cells, stack, locals, ?_⟩
  rw [calls]
  rfl

/-- No number leads to the last cell. -/
theorem of_cell (calls : machine.calls = running :: below) (memory : Memory)
    {i : Fin 239} (value : UInt16) (bound : i < globalCount) :
    OnlyVariables machine { machine with
      memory
      globals := { machine.globals with cells := machine.globals.cells.set i value bound } } := by
  refine ⟨?_, memory, machine.globals.cells.set i value bound, running.stack, running.locals, ?_⟩
  · have other : i.val ≠ 239 := by omega
    exact congrArg Except.ok (Vector.getElem_set_ne bound (by decide) other)
  · rw [calls]
    rfl

end OnlyVariables

/-! ## One access -/

theorem onFrame_of_ok {α : Type} {change : Frame → Except Error (α × Frame)} {a : α}
    {changed : Frame} (calls : machine.calls = running :: below)
    (done : change running = .ok (a, changed)) :
    onFrame change machine = .ok a { machine with calls := changed :: below } :=
  onFrame_eq_ok.2 ⟨running, below, changed, calls, done, rfl⟩

theorem onFrame_of_error {α : Type} {change : Frame → Except Error (α × Frame)} {e : Error}
    (calls : machine.calls = running :: below) (failed : change running = .error e) :
    onFrame change machine = .error e machine := by
  have current : frame machine = .ok running machine := frame_eq_ok.2 ⟨⟨below, calls⟩, rfl⟩
  rw [onFrame, bind_of_ok current, failed]
  rfl

/-- An action does on a machine what another does on the values of its variables.  Either
both succeed and give the same, or both fail for the same cause and change nothing. -/
inductive Refines {α : Type} (action : Action α) (spec : EStateM Error Variables α)
    (machine : Machine) (image : Memory → Prop) : Prop where
  | done {a : α} {after : Machine} : action machine = .ok a after →
      spec machine.values = .ok a after.values → OnlyVariables machine after →
      image after.memory → Refines action spec machine image
  | failed {e : Error} : action machine = .error e machine →
      spec machine.values = .error e machine.values → image machine.memory →
      Refines action spec machine image

namespace Refines

theorem map {α β : Type} {action : Action α} {spec : EStateM Error Variables α}
    {image : Memory → Prop} (f : α → β) (refines : Refines action spec machine image) :
    Refines (f <$> action) (f <$> spec) machine image := by
  cases refines with
  | done run specified only written =>
      exact .done (map_of_ok f run) (map_of_ok f specified) only written
  | failed run specified written =>
      exact .failed (map_of_error f run) (map_of_error f specified) written

variable {α : Type} {action : Action α} {spec : EStateM Error Variables α} {image : Memory → Prop}
  (refines : Refines action spec machine image)

include refines

theorem gives_eq : gives action machine = gives spec machine.values := by
  cases refines with
  | done run specified => rw [gives_of_ok run, gives_of_ok specified]
  | failed run specified => rw [gives_of_error run, gives_of_error specified]

theorem leaves_eq : (leaves action machine).values = leaves spec machine.values := by
  cases refines with
  | done run specified => rw [leaves_of_ok run, leaves_of_ok specified]
  | failed run specified => rw [leaves_of_error run, leaves_of_error specified]

theorem onlyVariables : OnlyVariables machine (leaves action machine) := by
  cases refines with
  | done run _ only =>
      rw [leaves_of_ok run]
      exact only
  | failed run =>
      rw [leaves_of_error run]
      exact .refl machine

theorem written : image (leaves action machine).memory := by
  cases refines with
  | done run _ _ written =>
      rw [leaves_of_ok run]
      exact written
  | failed run _ written =>
      rw [leaves_of_error run]
      exact written

theorem eq_of_error {e : Error} {after : Machine} (failed : action machine = .error e after) :
    after = machine := by
  cases refines with
  | done run =>
      rw [run] at failed
      cases failed
  | failed run =>
      rw [run] at failed
      cases failed
      rfl

end Refines

section Cell

variable {i : Fin 239} (is : number.toNat = i + 16)

include is

theorem not_lt_of_cell : ¬number < 16 := by
  rw [UInt8.lt_iff_toNat_lt]
  show ¬number.toNat < 16
  omega

theorem ne_of_cell : number ≠ 255 := by
  rintro rfl
  have last : 255 = i.val + 16 := is
  omega

theorem toNat_sub_of_cell : (number - 16).toNat = i := by
  have least : (16 : UInt8) ≤ number := UInt8.not_lt.1 (not_lt_of_cell is)
  rw [UInt8.toNat_sub_of_le _ _ least, is]
  exact Nat.add_sub_cancel i.val 16

theorem readVariable_of_cell :
    readVariable number = ask fun machine => machine.globals.get (number - 16) := by
  rw [readVariable, if_neg (not_lt_of_cell is), if_neg (ne_of_cell is)]

/-- A global variable has room in the image, so that it can always be written. -/
theorem exists_writeVariable_of_cell
    (within : machine.globals.region.Within machine.memory.size) (value : UInt16) :
    ∃ (memory : Memory) (bound : i < globalCount),
      writeVariable number value machine = .ok () { machine with
        memory
        globals := { machine.globals with cells := machine.globals.cells.set i value bound } } ∧
      Memory.setWord (machine.globals.address i) value machine.memory = .ok () memory := by
  have index := toNat_sub_of_cell is
  have bound : i.val < globalCount := Nat.lt_trans i.isLt (by decide)
  obtain ⟨globals, memory, set⟩ := Globals.exists_set within (index ▸ bound) value
  obtain ⟨_, write, rfl⟩ := Globals.set_eq_ok set
  simp only [index] at set write
  refine ⟨memory, bound, ?_, write⟩
  rw [writeVariable, if_neg (not_lt_of_cell is), if_neg (ne_of_cell is)]
  exact setGlobal_eq_ok.2 ⟨_, memory, set, rfl⟩

end Cell

theorem readVariable_of_lt (small : number.toNat < 16) :
    readVariable number = onFrame (·.read number) := by
  rw [readVariable, if_pos (UInt8.lt_iff_toNat_lt.2 small)]

theorem writeVariable_of_lt (small : number.toNat < 16) (value : UInt16) :
    writeVariable number value = onFrame fun frame => (frame.write number value).map ((), ·) := by
  rw [writeVariable, if_pos (UInt8.lt_iff_toNat_lt.2 small)]

/-- A read of the machine is one of the store. -/
theorem readVariable_refines (calls : machine.calls = running :: below) (number : UInt8) :
    Refines (readVariable number) (Variables.read number) machine (· = machine.memory) := by
  have values := values_of_calls calls
  have numbers := Place.numbers_ofNumber number
  generalize named : Place.ofNumber number = place at numbers
  -- Either side looks at the number in its own way, so each kind of variable is a case.
  cases numbers with
  | top =>
      have stack : machine.values.stack = running.stack := by rw [values]; rfl
      have small := readVariable_of_lt (show (0 : UInt8).toNat < 16 by decide)
      cases held : running.stack with
      | nil =>
          have popped : running.read 0 = .error .stackUnderflow := by
            simp only [Frame.read, Frame.pop, held, if_true]
          refine .failed (small ▸ onFrame_of_error calls popped) ?_ rfl
          simp only [Variables.read, named, stack, held]
      | cons value rest =>
          have popped : running.read 0 = .ok (value, { running with stack := rest }) := by
            simp only [Frame.read, Frame.pop, held, if_true]
          refine .done (small ▸ onFrame_of_ok calls popped) ?_ (.of_frame calls _ _) rfl
          simp only [Variables.read, named, stack, held]
          rw [values]
          rfl
  | slot i is =>
      have small := readVariable_of_lt (show number.toNat < 16 by omega)
      have read := running.read_slot machine.globals is
      rw [← values] at read
      cases held : machine.values.locals i with
      | none =>
          rw [held] at read
          refine .failed (small ▸ onFrame_of_error calls read) ?_ rfl
          simp only [Variables.read, named, held]
      | some value =>
          rw [held] at read
          have run : readVariable number machine = .ok value machine := by
            rw [small, onFrame_of_ok calls read, ← calls]
          -- Reading a local puts the frame back as it was.
          refine .done run ?_ (.refl machine) rfl
          simp only [Variables.read, named, held]
  | cell i is =>
      have run : readVariable number machine = .ok (machine.values.globals i) machine := by
        rw [readVariable_of_cell is, ask_eq_ok]
        refine ⟨?_, rfl⟩
        simp only [Globals.get, toNat_sub_of_cell is]
        exact dif_pos (Nat.lt_trans i.isLt (by decide))
      refine .done run ?_ (.refl machine) rfl
      simp only [Variables.read, named]
  | nowhere => exact .failed rfl rfl rfl

/-- A local variable has its cell in the running frame, so that it can always be
written. -/
theorem exists_writeVariable_of_slot {i : Fin 15} (is : number.toNat = i + 1)
    (calls : machine.calls = running :: below) (value : UInt16) :
    ∃ locals, writeVariable number value machine =
        .ok () { machine with calls := { running with locals } :: below } ∧
      Frame.values { running with locals } machine.globals =
        { running.values machine.globals with
          locals := Function.update (running.values machine.globals).locals i (some value) } := by
  obtain ⟨locals, write, changed⟩ := running.write_slot machine.globals value is
  have change : (running.write number value).map ((), ·) = .ok ((), { running with locals }) := by
    rw [write]
    rfl
  refine ⟨locals, ?_, changed⟩
  rw [writeVariable_of_lt (show number.toNat < 16 by omega) value]
  exact onFrame_of_ok calls change

/-- A write of the machine is one of the store. -/
theorem writeVariable_refines (calls : machine.calls = running :: below)
    (within : machine.globals.region.Within machine.memory.size) (number : UInt8)
    (value : UInt16) :
    Refines (writeVariable number value) (Variables.write number value) machine
      ((Access.write number value).Writes machine.globals.base machine.memory) := by
  have values := values_of_calls calls
  have numbers := Place.numbers_ofNumber number
  generalize named : Place.ofNumber number = place at numbers
  cases numbers with
  | top =>
      have small := writeVariable_of_lt (show (0 : UInt8).toNat < 16 by decide) value
      refine .done (small ▸ onFrame_of_ok calls rfl) ?_ (.of_frame calls _ _) rfl
      simp only [Variables.write, named]
      rw [values]
      rfl
  | slot i is =>
      obtain ⟨locals, run, changed⟩ := exists_writeVariable_of_slot is calls value
      refine .done run ?_ (.of_frame calls _ _) ?_
      · simp only [Variables.write, named]
        rw [values]
        exact congrArg _ changed.symm
      · have frame : ¬(16 ≤ number.toNat ∧ number.toNat ≤ 254) := by omega
        simp only [Access.Writes, if_neg frame]
  | cell i is =>
      obtain ⟨memory, bound, run, write⟩ := exists_writeVariable_of_cell is within value
      have address : machine.globals.base + 2 * (number.toNat - 16) =
          machine.globals.address i := by
        rw [is, Nat.add_sub_cancel]
        rfl
      have global : 16 ≤ number.toNat ∧ number.toNat ≤ 254 := by omega
      refine .done run ?_ (.of_cell calls memory value bound) ?_
      · have changed := running.values_set_cell machine.globals value i bound
        rw [← values] at changed
        simp only [Variables.write, named]
        rw [← changed, Machine.values, calls]
        rfl
      · simp only [Access.Writes, if_pos global, address]
        exact ⟨Memory.getWord_of_setWord write, (Memory.setWord_eq_ok write).1⟩
  | nowhere => exact .failed rfl rfl rfl

/-- Each access to a variable is one to the store. -/
theorem perform_refines (nonempty : machine.calls ≠ [])
    (within : machine.globals.region.Within machine.memory.size) (access : Access) :
    Refines access.perform access.specify machine
      (access.Writes machine.globals.base machine.memory) := by
  obtain ⟨running, below, calls⟩ := List.exists_cons_of_ne_nil nonempty
  cases access with
  | read number => exact (readVariable_refines calls number).map some
  | write number value => exact (writeVariable_refines calls within number value).map fun _ => none

/-! ## Accesses in a row -/

/-- Accesses to variables have made one machine of another, and they can go on. -/
structure Accessed (machine now : Machine) : Prop where
  only : OnlyVariables machine now
  calls : now.calls ≠ []
  within : now.globals.region.Within now.memory.size

theorem Accessed.perform {now : Machine} (accessed : Accessed machine now) (access : Access) :
    Accessed machine (leaves access.perform now) := by
  have refines := perform_refines accessed.calls accessed.within access
  have only := refines.onlyVariables
  have size := refines.written.size
  obtain ⟨memory, cells, stack, locals, after⟩ := only.rest
  refine ⟨accessed.only.trans only, ?_, ?_⟩
  · rw [after, ne_eq, List.modifyHead_eq_nil_iff]
    exact accessed.calls
  · rw [size, after]
    exact accessed.within

/-- In every machine that a story reaches with a call under way, the variables are a store.
Any accesses in a row give exactly what they give on a store with the same values, and they
leave the values that they leave there.  Nothing else changes but the image.  And whatever
accesses came before, an access that fails changes nothing, one that succeeds changes no
variable but its own, and only the write of a global variable writes to the image, where
the word of the variable then has the value and every other byte stays. -/
theorem accesses_refine_store {image : Array UInt8} {settings : Settings} {entropy : Entropy}
    {input : List InputLine} {output : Output} {log : Log} {loaded machine : Machine}
    (isLoaded : load image settings entropy = .ok loaded)
    (reached : Reaches { loaded with input, output, log } machine) (calls : machine.calls ≠ [])
    (accesses : List Access) :
    givesAll Access.perform accesses machine =
        givesAll Access.specify accesses machine.values ∧
      (leavesAll Access.perform accesses machine).values =
        leavesAll Access.specify accesses machine.values ∧
      OnlyVariables machine (leavesAll Access.perform accesses machine) ∧
      ∀ (access : Access) (now : Machine), now = leavesAll Access.perform accesses machine →
        (∀ e after, access.perform now = .error e after → after = now) ∧
        Variables.SameBut access.number now.values (leaves access.perform now).values ∧
        access.Writes machine.globals.base now.memory (leaves access.perform now).memory := by
  have placed := (reached.confined (load_placed isLoaded input output log)).placed
    (load_placed isLoaded input output log)
  have start : Accessed machine machine := ⟨.refl machine, calls, placed.globals⟩
  have refines {now : Machine} (accessed : Accessed machine now) (access : Access) :=
    perform_refines accessed.calls accessed.within access
  have keeps (access : Access) (now : Machine) (accessed : Accessed machine now) :=
    accessed.perform access
  have final := leavesAll_keeps keeps accesses start
  obtain ⟨sameGiven, sameLeft⟩ := givesAll_eq_of_simulates keeps
    (fun access _ accessed => (refines accessed access).gives_eq)
    (fun access _ accessed => (refines accessed access).leaves_eq) accesses start
  refine ⟨sameGiven, sameLeft, final.only, ?_⟩
  rintro access now rfl
  have step := refines final access
  have base : (leavesAll Access.perform accesses machine).globals.base = machine.globals.base := by
    obtain ⟨memory, cells, stack, locals, after⟩ := final.only.rest
    rw [after]
  refine ⟨fun _ _ => step.eq_of_error, ?_, ?_⟩
  · rw [step.leaves_eq]
    exact access.specify_sameBut _
  · rw [← base]
    exact step.written

/-- When a story starts, the stack is empty and no local has a value. -/
theorem accesses_refine_store_sample : ∃ loaded machine : Machine,
    load faultyStory {} (.ofSeed 0) = .ok loaded ∧
      Reaches { loaded with input := [], log := {} } machine ∧ machine.calls ≠ [] ∧
      givesAll Access.perform
          [.write 0 7, .write 16 8, .read 0, .read 0, .read 1, .write 1 9, .read 1, .read 16,
            .write 255 1] machine =
        [.ok none, .ok none, .ok (some 7), .error .stackUnderflow, .error (.unsetLocal 1),
          .ok none, .ok (some 9), .ok (some 8), .error (.invalidVariable 255)] := by
  obtain ⟨loaded, _, _, _, _, _, _, isLoaded, -⟩ := faultyStory_runs
  have reached : Reaches { loaded with input := [], log := {} }
      { loaded with input := [], log := {} } := .refl
  obtain ⟨_, _, _, _, _, -, -, -, -, -, -, start⟩ := load_eq_ok.1 isLoaded
  have calls : loaded.calls ≠ [] := by
    rw [start]
    exact List.cons_ne_nil _ _
  refine ⟨loaded, _, isLoaded, reached, calls, ?_⟩
  rw [(accesses_refine_store isLoaded reached calls _).1, start]
  rfl

end Machine

end StoryMachine
