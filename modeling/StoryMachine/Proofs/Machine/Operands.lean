import StoryMachine.Proofs.Machine.VariableStore

/-!
# Operands in order

Operands are read from left to right, and each one that names the stack takes its top.  So
the value of an operand depends on how many operands before it name the stack, and on
nothing else that was read before it.  `operandAt?` says what it is in terms of the machine
as it was before the first operand was read.

Reading one operand takes a word off the stack or changes nothing (`operandValue_of_some`),
and fails without a change (`operandValue_of_none`).  By induction the operands of a list
have the values that `operandAt?` says, up to the first that has none (`Evaluates`).
-/

namespace StoryMachine

/-! ## What an operand has -/

/-- Whether an operand names the stack. -/
def Operand.readsStack (operand : Operand) : Bool :=
  operand.kind = .variable ∧ lowByte operand.value = 0

/-- The number of operands that name the stack. -/
def stackReads (operands : List Operand) : Nat := operands.countP Operand.readsStack

namespace Variables

/-- The value of a variable, if it has one.  The stack shows the word that is left on top
when `taken` words have been taken off it. -/
def value? (store : Variables) (taken : Nat) (number : UInt8) : Option UInt16 :=
  match Place.ofNumber number with
  | .top => store.stack[taken]?
  | .slot i => store.locals i
  | .cell i => some (store.globals i)
  | .nowhere => none

/-- The value of an operand, if it has one, when `taken` words have been taken off the
stack. -/
def operand? (store : Variables) (taken : Nat) (operand : Operand) : Option UInt16 :=
  match operand.kind with
  | .large => some operand.value
  | .small => some operand.value
  | .variable => store.value? taken (lowByte operand.value)
  | .omitted => none

theorem value?_drop (store : Variables) (count taken : Nat) (number : UInt8) :
    value? { store with stack := store.stack.drop count } taken number =
      store.value? (count + taken) number := by
  simp only [value?]
  cases Place.ofNumber number with
  | top => exact List.getElem?_drop
  | slot i => rfl
  | cell i => rfl
  | nowhere => rfl

/-- Words that are off the stack already count among those that have been taken. -/
theorem operand?_drop (store : Variables) (count taken : Nat) : ∀ operand : Operand,
    operand? { store with stack := store.stack.drop count } taken operand =
      store.operand? (count + taken) operand
  | ⟨.large, _⟩ => rfl
  | ⟨.small, _⟩ => rfl
  | ⟨.variable, word⟩ => store.value?_drop count taken (lowByte word)
  | ⟨.omitted, _⟩ => rfl

end Variables

theorem stackReads_cons (operand : Operand) (rest : List Operand) :
    stackReads (operand :: rest) = stackReads [operand] + stackReads rest := by
  simp only [stackReads, List.countP_cons, List.countP_nil]
  omega

namespace Machine

variable {machine : Machine} {running : Frame} {below : CallStack}

/-! ## Words off the stack -/

/-- The machine with `count` words taken off the stack of its running frame. -/
def popped (machine : Machine) (count : Nat) : Machine :=
  { machine with
    calls := machine.calls.modifyHead fun running =>
      { running with stack := running.stack.drop count } }

theorem popped_of_calls (calls : machine.calls = running :: below) (count : Nat) :
    machine.popped count =
      { machine with calls := { running with stack := running.stack.drop count } :: below } := by
  rw [popped, calls, List.modifyHead_cons]

@[simp] theorem popped_zero (machine : Machine) : machine.popped 0 = machine := by
  have same : (machine.calls.modifyHead fun running =>
      { running with stack := running.stack.drop 0 }) = machine.calls := by
    cases machine.calls with
    | nil => rfl
    | cons running below => rfl
  rw [popped, same]

theorem popped_popped (machine : Machine) (first second : Nat) :
    (machine.popped first).popped second = machine.popped (first + second) := by
  simp only [popped, List.modifyHead_modifyHead, Function.comp_def, List.drop_drop]

theorem values_popped (machine : Machine) (count : Nat) :
    (machine.popped count).values =
      { machine.values with stack := machine.values.stack.drop count } := by
  cases calls : machine.calls with
  | nil =>
      have empty : (Frame.main 0).stack.drop count = [] := List.drop_nil
      simp only [values, popped, calls, List.modifyHead_nil, List.headD_nil, Frame.values, empty]
      rfl
  | cons running below =>
      rw [popped_of_calls calls]
      simp only [values, calls]
      rfl

/-- Without a frame no local has a value. -/
theorem locals_of_no_frame (none : machine.calls = []) (i : Fin 15) :
    machine.values.locals i = .none := by
  simp only [values, none, List.headD_nil, Frame.values, Frame.main]
  exact Vector.getElem_replicate _

/-! ## One operand -/

theorem onFrame_of_no_frame {α : Type} {change : Frame → Except Error (α × Frame)}
    (none : machine.calls = []) : onFrame change machine = .error .stackUnderflow machine := by
  have current : frame machine = .error .stackUnderflow machine := by
    simp only [frame, ask, none]
  exact bind_of_error current

/-- A variable that has a value is read.  Only the stack changes, and only if it is read. -/
theorem readVariable_of_some {number : UInt8} {value : UInt16}
    (has : machine.values.value? 0 number = some value) :
    readVariable number machine = .ok value (machine.popped (if number = 0 then 1 else 0)) := by
  have numbers := Place.numbers_ofNumber number
  simp only [Variables.value?] at has
  generalize Place.ofNumber number = place at numbers has
  cases numbers with
  | top =>
      cases calls : machine.calls with
      | nil =>
          rw [values, calls] at has
          cases has
      | cons running below =>
          rw [values_of_calls calls] at has
          obtain ⟨rest, stack⟩ : ∃ rest, running.stack = value :: rest :=
            List.head?_eq_some_iff.1 (List.head?_eq_getElem?.trans has)
          have read : running.read 0 =
              .ok (value, { running with stack := running.stack.drop 1 }) := by
            simp only [Frame.read, Frame.pop, stack, if_true, List.drop_one, List.tail_cons]
          rw [if_pos rfl, popped_of_calls calls,
            readVariable_of_lt (show (0 : UInt8).toNat < 16 by decide)]
          exact onFrame_of_ok calls read
  | slot i is =>
      rw [if_neg (Frame.ne_zero_of_slot is), popped_zero]
      have has : machine.values.locals i = some value := has
      cases calls : machine.calls with
      | nil =>
          rw [locals_of_no_frame calls i] at has
          cases has
      | cons running below =>
          have read := running.read_slot machine.globals is
          rw [← values_of_calls calls, has] at read
          rw [readVariable_of_lt (show number.toNat < 16 by omega), onFrame_of_ok calls read,
            ← calls]
  | cell i is =>
      have nonzero : number ≠ 0 := by
        rintro rfl
        cases is
      rw [if_neg nonzero, popped_zero, readVariable_of_cell is, ask_eq_ok]
      refine ⟨?_, rfl⟩
      cases has
      simp only [Globals.get, toNat_sub_of_cell is]
      exact dif_pos (Nat.lt_trans i.isLt (by decide))
  | nowhere => cases has

/-- Reading a variable that has no value fails and changes nothing. -/
theorem readVariable_of_none {number : UInt8} (lacks : machine.values.value? 0 number = none) :
    ∃ e, readVariable number machine = .error e machine := by
  have numbers := Place.numbers_ofNumber number
  simp only [Variables.value?] at lacks
  generalize Place.ofNumber number = place at numbers lacks
  cases numbers with
  | top =>
      rw [readVariable_of_lt (show (0 : UInt8).toNat < 16 by decide)]
      cases calls : machine.calls with
      | nil => exact ⟨_, onFrame_of_no_frame calls⟩
      | cons running below =>
          rw [values_of_calls calls] at lacks
          have empty : running.stack = [] :=
            List.head?_eq_none_iff.1 (List.head?_eq_getElem?.trans lacks)
          have read : running.read 0 = .error .stackUnderflow := by
            simp only [Frame.read, Frame.pop, empty, if_true]
          exact ⟨_, onFrame_of_error calls read⟩
  | slot i is =>
      have lacks : machine.values.locals i = none := lacks
      rw [readVariable_of_lt (show number.toNat < 16 by omega)]
      cases calls : machine.calls with
      | nil => exact ⟨_, onFrame_of_no_frame calls⟩
      | cons running below =>
          have read := running.read_slot machine.globals is
          rw [← values_of_calls calls, lacks] at read
          exact ⟨_, onFrame_of_error calls read⟩
  | cell i is => cases lacks
  | nowhere => exact ⟨_, rfl⟩

/-- An operand that has a value is read.  If it names the stack, its top is taken off. -/
theorem operandValue_of_some {value : UInt16} : ∀ {operand : Operand},
    machine.values.operand? 0 operand = some value →
      operandValue operand machine = .ok value (machine.popped (stackReads [operand]))
  | ⟨.large, word⟩, has => by
      cases has
      exact congrArg (EStateM.Result.ok word) machine.popped_zero.symm
  | ⟨.small, word⟩, has => by
      cases has
      exact congrArg (EStateM.Result.ok word) machine.popped_zero.symm
  | ⟨.variable, word⟩, has => by
      have reads : stackReads [⟨.variable, word⟩] = if lowByte word = 0 then 1 else 0 := by
        simp [stackReads, Operand.readsStack]
      rw [reads]
      exact readVariable_of_some has

/-- Reading an operand that has no value fails and changes nothing. -/
theorem operandValue_of_none : ∀ {operand : Operand},
    machine.values.operand? 0 operand = none →
      ∃ e, operandValue operand machine = .error e machine
  | ⟨.variable, _⟩, lacks => readVariable_of_none lacks
  | ⟨.omitted, _⟩, _ => ⟨_, rfl⟩

/-! ## All operands -/

/-- The value that an operand of a list has when its turn comes, if it has one.  A constant
has its own value and a variable its current one.  An operand that names the stack has the
word that lies there below one word for each such operand before it. -/
def operandAt? (machine : Machine) (operands : List Operand) (k : Nat) : Option UInt16 :=
  operands[k]?.bind (machine.values.operand? (stackReads (operands.take k)))

theorem operandAt?_zero (machine : Machine) (operand : Operand) (rest : List Operand) :
    machine.operandAt? (operand :: rest) 0 = machine.values.operand? 0 operand := rfl

/-- The later operands are read from the machine that the first one leaves. -/
theorem operandAt?_succ (machine : Machine) (operand : Operand) (rest : List Operand) (k : Nat) :
    machine.operandAt? (operand :: rest) (k + 1) =
      (machine.popped (stackReads [operand])).operandAt? rest k := by
  rw [operandAt?, operandAt?, List.getElem?_cons_succ, List.take_succ_cons, stackReads_cons,
    values_popped]
  cases rest[k]? with
  | none => rfl
  | some later => exact (Variables.operand?_drop _ _ _ later).symm

/-- What comes of reading a list of operands.  Either each operand has a value, and all that
changes is that each one that names the stack has taken a word off it.  Or reading stops at
the first operand that has no value, for the cause for which that operand cannot be read,
and those before it have taken their words. -/
inductive Evaluates (machine : Machine) (operands : List Operand) :
    EStateM.Result Error Machine (List UInt16) → Prop where
  | done {values : List UInt16} : values.length = operands.length →
      (∀ k, machine.operandAt? operands k = values[k]?) →
      stackReads operands ≤ machine.values.stack.length →
      Evaluates machine operands (.ok values (machine.popped (stackReads operands)))
  | stopped {k : Nat} {operand : Operand} {e : Error} : operands[k]? = some operand →
      (∀ j < k, machine.operandAt? operands j ≠ none) →
      machine.operandAt? operands k = none →
      stackReads (operands.take k) ≤ machine.values.stack.length →
      operandValue operand (machine.popped (stackReads (operands.take k))) =
        .error e (machine.popped (stackReads (operands.take k))) →
      Evaluates machine operands (.error e (machine.popped (stackReads (operands.take k))))

/-- An operand that names the stack and has a value finds a word there. -/
theorem stackReads_le_of_some {store : Variables} {value : UInt16} : ∀ {operand : Operand},
    store.operand? 0 operand = some value → stackReads [operand] ≤ store.stack.length
  | ⟨.large, _⟩, _ => Nat.zero_le _
  | ⟨.small, _⟩, _ => Nat.zero_le _
  | ⟨.variable, word⟩, has => by
      by_cases top : lowByte word = 0
      · have place : Place.ofNumber (lowByte word) = .top := by rw [top]; rfl
        simp only [Variables.operand?, Variables.value?, place] at has
        obtain ⟨inside, -⟩ := List.getElem?_eq_some_iff.1 has
        exact Nat.le_trans List.countP_le_length inside
      · have none : stackReads [⟨.variable, word⟩] = 0 := by
          simp [stackReads, Operand.readsStack, top]
        rw [none]
        exact Nat.zero_le _

namespace Evaluates

variable {operand : Operand} {rest : List Operand}

/-- Reading stops at a first operand that has no value. -/
theorem of_none {e : Error} (lacks : machine.values.operand? 0 operand = none)
    (failed : operandValue operand machine = .error e machine) :
    Evaluates machine (operand :: rest) (.error e machine) := by
  have stop := @stopped machine (operand :: rest) 0 operand e rfl
    (fun j less => absurd less (Nat.not_lt_zero j)) lacks (Nat.zero_le _)
  rw [List.take_zero, show stackReads [] = 0 from rfl, popped_zero] at stop
  exact stop failed

/-- After a first operand that has a value, reading goes on with the others. -/
theorem cons {value : UInt16} (has : machine.values.operand? 0 operand = some value)
    (later : Evaluates (machine.popped (stackReads [operand])) rest
      (operandValues rest (machine.popped (stackReads [operand])))) :
    Evaluates machine (operand :: rest) (operandValues (operand :: rest) machine) := by
  have enough := stackReads_le_of_some has
  rw [operandValues, bind_of_ok (operandValue_of_some has)]
  generalize run : operandValues rest (machine.popped (stackReads [operand])) = result at later
  cases later with
  | @done values length given room =>
      rw [values_popped, List.length_drop] at room
      rw [bind_of_ok run, popped_popped, ← stackReads_cons]
      show Evaluates machine _ (.ok (value :: values) _)
      refine .done (congrArg (· + 1) length) ?_ ?_
      · intro k
        cases k with
        | zero => exact (machine.operandAt?_zero operand rest).trans has
        | succ k => exact (machine.operandAt?_succ operand rest k).trans (given k)
      · rw [stackReads_cons]
        omega
  | @stopped k last e there given lacks room failed =>
      rw [values_popped, List.length_drop] at room
      have taken : stackReads ((operand :: rest).take (k + 1)) =
          stackReads [operand] + stackReads (rest.take k) := by
        rw [List.take_succ_cons, stackReads_cons]
      rw [bind_of_error run, popped_popped, ← taken]
      rw [popped_popped, ← taken] at failed
      refine .stopped there ?_ ((machine.operandAt?_succ operand rest k).trans lacks) ?_ failed
      · intro j less
        cases j with
        | zero =>
            rw [operandAt?_zero, has]
            exact Option.some_ne_none value
        | succ j =>
            rw [operandAt?_succ]
            exact given j (Nat.lt_of_succ_lt_succ less)
      · rw [taken]
        omega

end Evaluates

/-- Operands are read in order. -/
theorem operandValues_evaluates : ∀ (operands : List Operand) (machine : Machine),
    Evaluates machine operands (operandValues operands machine)
  | [], machine => by
      have none : ∀ k, machine.operandAt? [] k = ([] : List UInt16)[k]? := fun _ => rfl
      have nothing := Evaluates.done rfl none (Nat.zero_le _)
      rw [show stackReads [] = 0 from rfl, popped_zero] at nothing
      exact nothing
  | operand :: rest, machine => by
      cases first : machine.values.operand? 0 operand with
      | none =>
          obtain ⟨e, failed⟩ := operandValue_of_none first
          rw [operandValues, bind_of_error failed]
          exact .of_none first failed
      | some value => exact .cons first (operandValues_evaluates rest _)

theorem Evaluates.length_eq {operands : List Operand} {values : List UInt16} {after : Machine}
    (evaluates : Evaluates machine operands (.ok values after)) :
    values.length = operands.length := by
  cases evaluates with
  | done length => exact length

/-- The operands of an instruction are read in order, and whether there are enough of them
is asked only then.  Each operand that names the stack takes the next word off it, also one
past the `count` that are asked for.  A constant has its own value, every other variable has
the value that it had at the start, and nothing else changes.  At the first operand without
a value reading stops, and those before it have taken their words. -/
theorem operands_in_order (machine : Machine) (operands : List Operand) :
    Evaluates machine operands (operandValues operands machine) ∧
    (∀ count values after, operandValues operands machine = .ok values after →
      (count ≤ operands.length → ∃ first : Vector UInt16 count,
        firstOperands count operands machine = .ok first after ∧
          first.toList = values.take count) ∧
      (operands.length < count → firstOperands count operands machine =
        .error (.operandCount count operands.length) after)) ∧
    ∀ count e after, operandValues operands machine = .error e after →
      firstOperands count operands machine = .error e after := by
  refine ⟨operandValues_evaluates operands machine, ?_, fun _ _ _ failed => bind_of_error failed⟩
  intro count values after run
  have evaluates := operandValues_evaluates operands machine
  rw [run] at evaluates
  rw [firstOperands, bind_of_ok run, ← evaluates.length_eq]
  constructor
  · intro enough
    rw [dif_pos enough]
    exact ⟨_, rfl, rfl⟩
  · intro few
    rw [dif_neg (Nat.not_le.2 few)]
    rfl

end Machine

end StoryMachine
