import StoryMachine.Machine.Step
import StoryMachine.Proofs.Sequencing

/-!
# What the actions of the machine do

For each action that looks inside the machine as a whole, one lemma says which
machine it leaves when it succeeds.  Every instruction is put together from
these actions, so nothing after this module unfolds them.
-/

namespace StoryMachine.Machine

variable {α : Type} {machine after : Machine}

/-! ## Notes and questions -/

@[simp] theorem note_eq_ok {level : Level} {text : Unit → String} {u : Unit} :
    note level text machine = .ok u after ↔
      after = { machine with log := machine.log.add level text } := by
  simp only [note]
  rw [modify_eq_ok, eq_comm]

@[simp] theorem narrate_eq_ok {level : Level} {texts : Machine → List String} {u : Unit} :
    narrate level texts machine = .ok u after ↔
      after = { machine with log := machine.log.addAll level fun _ => texts machine } := by
  simp only [narrate]
  rw [modify_eq_ok, eq_comm]

@[simp] theorem ask_eq_ok {question : Machine → Except Error α} {a : α} :
    ask question machine = .ok a after ↔ question machine = .ok a ∧ after = machine := by
  simp only [ask]
  cases question machine with
  | ok b => simp [eq_comm]
  | error e => simp

/-! ## Memory and tables -/

@[simp] theorem onMemory_eq_ok {update : Memory.Update α} {a : α} :
    onMemory update machine = .ok a after ↔
      ∃ memory, update machine.memory = .ok a memory ∧ after = { machine with memory } := by
  cases run : update machine.memory with
  | ok b memory =>
      simp only [onMemory, run]
      constructor
      · intro h
        cases h
        exact ⟨memory, rfl, rfl⟩
      · rintro ⟨_, same, rfl⟩
        cases same
        rfl
  | error e memory => simp [onMemory, run]

@[simp] theorem onObjects_eq_ok {edit : ObjectStore.Edit α} {a : α} :
    onObjects edit machine = .ok a after ↔
      ∃ store, edit { memory := machine.memory, table := machine.objects } = .ok a store ∧
        after = { machine with memory := store.memory, objects := store.table } := by
  cases run : edit { memory := machine.memory, table := machine.objects } with
  | ok b store =>
      simp only [onObjects, run]
      constructor
      · intro h
        cases h
        exact ⟨store, rfl, rfl⟩
      · rintro ⟨_, same, rfl⟩
        cases same
        rfl
  | error e store => simp [onObjects, run]

/-- A global variable is set in memory and in the copy. -/
theorem setGlobal_eq_ok {index : UInt8} {value : UInt16} {u : Unit} :
    setGlobal index value machine = .ok u after ↔
      ∃ globals memory, machine.globals.set index value machine.memory = .ok globals memory ∧
        after = { machine with memory, globals } := by
  simp only [setGlobal, bind_eq_ok, get_eq_ok, onMemory_eq_ok, modify_eq_ok]
  constructor
  · rintro ⟨_, _, ⟨rfl, rfl⟩, globals, _, ⟨memory, set, rfl⟩, rfl⟩
    exact ⟨globals, memory, set, rfl⟩
  · rintro ⟨globals, memory, set, rfl⟩
    exact ⟨machine, machine, ⟨rfl, rfl⟩, globals, _, ⟨memory, set, rfl⟩, rfl⟩

/-- Both copies are brought up to date, and the log may grow. -/
theorem refresh_eq_ok {address count : Nat} {u : Unit}
    (run : refresh address count machine = .ok u after) :
    ∃ globals objects log, machine.globals.refresh machine.memory address count = .ok globals ∧
      machine.objects.refresh machine.memory address count = .ok objects ∧
      after = { machine with globals, objects, log } := by
  simp only [refresh, refreshGlobals, refreshObjects] at run
  simp only [bind_eq_ok, ask_eq_ok, modify_eq_ok, narrate_eq_ok] at run
  obtain ⟨_, _, ⟨globals, _, ⟨refreshGlobals, rfl⟩, rfl⟩, _, _, rfl, objects, _,
    ⟨refreshObjects, rfl⟩, rfl⟩ := run
  exact ⟨globals, objects, _, refreshGlobals, refreshObjects, rfl⟩

/-! ## Frames -/

@[simp] theorem frame_eq_ok {running : Frame} :
    frame machine = .ok running after ↔
      (∃ below, machine.calls = running :: below) ∧ after = machine := by
  simp only [frame]
  rw [ask_eq_ok]
  cases machine.calls with
  | nil => simp
  | cons top below => simp

@[simp] theorem setFrame_eq_ok {running : Frame} {u : Unit} :
    setFrame running machine = .ok u after ↔
      after = { machine with calls := running :: machine.calls.tail } := by
  simp only [setFrame]
  rw [modify_eq_ok, eq_comm]

/-- Only the running frame changes. -/
theorem onFrame_eq_ok {change : Frame → Except Error (α × Frame)} {a : α} :
    onFrame change machine = .ok a after ↔
      ∃ running below changed, machine.calls = running :: below ∧
        change running = .ok (a, changed) ∧ after = { machine with calls := changed :: below } := by
  simp only [onFrame, bind_eq_ok, frame_eq_ok]
  constructor
  · rintro ⟨running, _, ⟨⟨below, calls⟩, rfl⟩, run⟩
    cases result : change running with
    | error e =>
        rw [result] at run
        exact absurd run throw_ne_ok
    | ok pair =>
        obtain ⟨b, changed⟩ := pair
        rw [result] at run
        simp only [bind_eq_ok, setFrame_eq_ok, pure_eq_ok] at run
        obtain ⟨_, _, rfl, rfl, rfl⟩ := run
        exact ⟨running, below, changed, calls, result, by rw [calls]; rfl⟩
  · rintro ⟨running, below, changed, calls, result, rfl⟩
    refine ⟨running, machine, ⟨⟨below, calls⟩, rfl⟩, ?_⟩
    rw [result]
    refine bind_eq_ok.2 ⟨(), _, setFrame_eq_ok.2 rfl, pure_eq_ok.2 ⟨rfl, ?_⟩⟩
    rw [calls]
    rfl

theorem setPc_eq_ok {pc : Nat} {u : Unit} :
    setPc pc machine = .ok u after ↔
      ∃ running below, machine.calls = running :: below ∧
        after = { machine with calls := { running with pc } :: below } := by
  simp only [setPc]
  rw [onFrame_eq_ok]
  constructor
  · rintro ⟨running, below, changed, calls, result, rfl⟩
    cases result
    exact ⟨running, below, calls, rfl⟩
  · rintro ⟨running, below, calls, rfl⟩
    exact ⟨running, below, _, calls, rfl, rfl⟩

@[simp] theorem pushFrame_eq_ok {entered : Frame} {u : Unit} :
    pushFrame entered machine = .ok u after ↔
      after = { machine with calls := entered :: machine.calls } := by
  simp only [pushFrame]
  rw [modify_eq_ok, eq_comm]

@[simp] theorem popFrame_eq_ok {u : Unit} :
    popFrame machine = .ok u after ↔ after = { machine with calls := machine.calls.tail } := by
  simp only [popFrame]
  rw [modify_eq_ok, eq_comm]

/-! ## Output, input and the end -/

theorem print_of_accepted (accepted : machine.output.reception = .accepted) (text : String) :
    print text machine = .ok () { machine with output := machine.output.accept text } := by
  have asked : (get : Action Machine) machine = .ok machine machine := rfl
  rw [print, bind_of_ok asked, accepted]
  rfl

theorem print_of_refused {reason : String} (refused : machine.output.reception = .refused reason)
    (text : String) :
    print text machine =
      .error (.inputOutput reason) { machine with output := machine.output.refuse } := by
  have asked : (get : Action Machine) machine = .ok machine machine := rfl
  rw [print, bind_of_ok asked, refused]
  rfl

/-- A text is printed if the sink accepts it. -/
theorem print_eq_ok {text : String} {u : Unit} :
    print text machine = .ok u after ↔
      machine.output.reception = .accepted ∧
        after = { machine with output := machine.output.accept text } := by
  cases asked : machine.output.reception with
  | accepted =>
      rw [print_of_accepted asked, EStateM.Result.ok.injEq, eq_comm (b := after)]
      simp
  | refused reason =>
      rw [print_of_refused asked]
      simp

/-- Otherwise printing fails, for the reason of the sink. -/
theorem print_eq_error {text : String} {e : Error} :
    print text machine = .error e after ↔
      ∃ reason, machine.output.reception = .refused reason ∧ e = .inputOutput reason ∧
        after = { machine with output := machine.output.refuse } := by
  cases asked : machine.output.reception with
  | accepted =>
      rw [print_of_accepted asked]
      simp
  | refused reason =>
      rw [print_of_refused asked, EStateM.Result.error.injEq, eq_comm, eq_comm (b := after)]
      simp

/-- Printing changes only the output, whether it succeeds or fails. -/
theorem leaves_print (text : String) (machine : Machine) :
    ∃ output, leaves (print text) machine = { machine with output } := by
  cases asked : machine.output.reception with
  | accepted => exact ⟨_, leaves_of_ok (print_of_accepted asked text)⟩
  | refused reason => exact ⟨_, leaves_of_error (print_of_refused asked text)⟩

/-- Reading takes the first line of the input, if there is one. -/
theorem readLine_eq_ok {line : Option String} :
    readLine machine = .ok line after ↔
      (machine.input = [] ∧ line = none ∧ after = machine) ∨
      ∃ text rest, machine.input = .text text :: rest ∧ line = some text ∧
        after = { machine with input := rest } := by
  simp only [readLine, bind_eq_ok, get_eq_ok]
  constructor
  · rintro ⟨_, _, ⟨rfl, rfl⟩, read⟩
    cases waiting : machine.input with
    | nil =>
        rw [waiting] at read
        obtain ⟨rfl, rfl⟩ := pure_eq_ok.1 read
        exact .inl ⟨rfl, rfl, rfl⟩
    | cons first rest =>
        rw [waiting] at read
        simp only [bind_eq_ok, modify_eq_ok] at read
        obtain ⟨_, _, rfl, read⟩ := read
        cases first with
        | text text =>
            obtain ⟨rfl, rfl⟩ := pure_eq_ok.1 read
            exact .inr ⟨text, rest, rfl, rfl, rfl⟩
        | broken reason => exact absurd read throw_ne_ok
  · rintro (⟨waiting, rfl, rfl⟩ | ⟨text, rest, waiting, rfl, rfl⟩)
    · refine ⟨_, _, ⟨rfl, rfl⟩, ?_⟩
      rw [waiting]
      rfl
    · refine ⟨_, _, ⟨rfl, rfl⟩, ?_⟩
      rw [waiting]
      rfl

@[simp] theorem halt_eq_ok {outcome : Outcome} :
    halt machine = .ok outcome after ↔
      outcome = .halted ∧ after = { machine with status := .halted } := by
  simp only [halt, bind_eq_ok, modify_eq_ok, pure_eq_ok]
  constructor
  · rintro ⟨_, _, rfl, rfl, rfl⟩
    exact ⟨rfl, rfl⟩
  · rintro ⟨rfl, rfl⟩
    exact ⟨(), _, rfl, rfl, rfl⟩

end StoryMachine.Machine
