import StoryMachine.Proofs.Machine.Guise
import StoryMachine.Proofs.Machine.Step

/-!
# Random numbers act through one operation

Two machines that differ in their random numbers alone are run side by side.  Only
the operation `random` looks at the random numbers, so until it draws one the
machines go on alike (`ButRandom.attempt`).  A negative range seeds the generator, the
same in both machines.  From then on they differ in their supply of keys alone
(`ButRandom.seed`), and that is not looked at before the next range of zero
(`ButKeys.attempt`).

All of this holds for steps that fail as well.
-/

namespace StoryMachine

theorem leaves_of_mapState {ε σ α : Type} {computation : EStateM ε σ α} {change : σ → σ}
    {state other : σ} (same : computation other = mapState change (computation state)) :
    leaves computation other = change (leaves computation state) := by
  simp only [leaves, same]
  cases computation state with
  | ok a final => rfl
  | error e final => rfl

theorem eq_zero_of_signedOfWord {word : UInt16} (zero : signedOfWord word = 0) : word = 0 := by
  have bits : word.toInt16 = 0 := Int16.toInt_inj.1 zero
  rw [← UInt16.toUInt16_toInt16 word, bits]
  rfl

namespace Machine

variable {machine other middle : Machine} {α β : Type} {generator : Generator} {entropy : Entropy}
  {range : UInt16}

/-! ## Guises of other random numbers -/

/-- A guise of other random numbers. -/
def disguise (generator : Generator) (entropy : Entropy) : Guise where
  generator := fun _ => generator
  entropy := fun _ => entropy

/-- A guise of another supply of keys. -/
def rekeyed (entropy : Entropy) : Guise where
  entropy := fun _ => entropy

/-- An action that is blind to every guise leaves the generator alone. -/
theorem leaves_generator {action : Action α} (blind : ∀ guise, Blind guise action)
    (machine : Machine) : (leaves action machine).generator = machine.generator := by
  have same := (blind (disguise machine.generator machine.entropy)).same machine
  have keeps : (disguise machine.generator machine.entropy).apply machine = machine := rfl
  rw [← keeps, leaves_of_mapState same]
  rfl

/-! ## Drawing and seeding -/

/-- After its operand has been read, `random` depends on the value alone. -/
theorem random_eq (operands : List Operand) :
    random operands = oneOperand operands >>= fun range => random [⟨.large, range⟩] := rfl

theorem random_of_ok {operands : List Operand}
    (read : oneOperand operands machine = .ok range middle) :
    random operands machine = random [⟨.large, range⟩] middle := by
  rw [random_eq]
  show EStateM.bind _ _ machine = _
  simp only [EStateM.bind, read]

theorem random_of_error {operands : List Operand} {e : Error}
    (unread : oneOperand operands machine = .error e middle) :
    random operands machine = .error e middle := by
  rw [random_eq]
  show EStateM.bind _ _ machine = _
  simp only [EStateM.bind, unread]

theorem note_bind (level : Level) (text : Unit → String) (next : Unit → Action β)
    (machine : Machine) :
    (note level text >>= next) machine =
      next () { machine with log := machine.log.add level text } := rfl

theorem onGenerator_bind (draw : Generator → α × Generator) (next : α → Action β)
    (machine : Machine) :
    (onGenerator draw >>= next) machine =
      next (draw machine.generator).1 { machine with generator := (draw machine.generator).2 } := rfl

/-- A negative range gives every machine the same generator. -/
theorem random_seeds (negative : signedOfWord range < 0) (generator : Generator)
    (entropy : Entropy) (machine : Machine) :
    random [⟨.large, range⟩] ((disguise generator entropy).apply machine) =
      mapState (rekeyed entropy).apply (random [⟨.large, range⟩] machine) := by
  rw [random]
  show (if 0 < signedOfWord range then _ else if signedOfWord range < 0 then _ else _ :
      Action Outcome) _ =
    mapState _ ((if 0 < signedOfWord range then _ else if signedOfWord range < 0 then _ else _ :
      Action Outcome) _)
  rw [if_neg (Int.lt_asymm negative), if_pos negative, note_bind, note_bind, onGenerator_bind,
    onGenerator_bind]
  refine Eq.trans ?_ (Blind.same (.storeAndContinue 0) _)
  rfl

theorem random_seeded (negative : signedOfWord range < 0) (machine : Machine) :
    (leaves (random [⟨.large, range⟩]) machine).generator =
      .ofSeed (UInt64.ofNat (signedOfWord range).natAbs) := by
  rw [random, leaves]
  show (leaves (if 0 < signedOfWord range then _ else if signedOfWord range < 0 then _ else _ :
    Action Outcome) _).generator = _
  rw [if_neg (Int.lt_asymm negative), if_pos negative, leaves, note_bind, onGenerator_bind]
  exact leaves_generator (fun _ => .storeAndContinue 0) _

/-- A range other than zero takes nothing from the supply of keys. -/
theorem random_keyless (nonzero : range ≠ 0) (entropy : Entropy) (machine : Machine) :
    random [⟨.large, range⟩] ((rekeyed entropy).apply machine) =
      mapState (rekeyed entropy).apply (random [⟨.large, range⟩] machine) := by
  rcases Int.lt_trichotomy (signedOfWord range) 0 with negative | zero | positive
  · exact random_seeds negative machine.generator entropy machine
  · exact absurd (eq_zero_of_signedOfWord zero) nonzero
  · rw [random]
    show (if 0 < signedOfWord range then _ else _ : Action Outcome) _ =
      mapState _ ((if 0 < signedOfWord range then _ else _ : Action Outcome) _)
    rw [if_pos positive, onGenerator_bind, onGenerator_bind]
    refine Eq.trans ?_ (Blind.same (.storeAndContinue _) _)
    rfl

/-! ## Steps that execute `random` -/

/-- The range with which the next step executes `random`, if it does. -/
def rolled? (machine : Machine) : Option UInt16 :=
  match machine.nextInstruction with
  | .ok (instruction, .random) =>
      if machine.calls.isEmpty then none
      else
        match oneOperand instruction.operands (machine.begun instruction .random) with
        | .ok range _ => some range
        | .error _ _ => none
  | _ => none

theorem exists_of_rolled? (rolled : machine.rolled? = some range) :
    ∃ instruction middle, machine.nextInstruction = .ok (instruction, .random) ∧
      machine.calls ≠ [] ∧
      oneOperand instruction.operands (machine.begun instruction .random) = .ok range middle := by
  simp only [rolled?] at rolled
  split at rolled
  next instruction next =>
    split at rolled
    next => cases rolled
    next nonempty =>
      split at rolled
      next read =>
        cases rolled
        exact ⟨instruction, _, next, fun empty => nonempty (List.isEmpty_iff.2 empty), read⟩
      next => cases rolled
  next => cases rolled

/-- What an operation does in a guise, the step does. -/
theorem step_of_execute {first last : Guise} {instruction : Instruction} {opcode : Opcode}
    (settings : first.settings = id)
    (next : machine.nextInstruction = .ok (instruction, opcode)) (calls : machine.calls ≠ [])
    (same : opcode.execute instruction.operands (first.apply (machine.begun instruction opcode)) =
      mapState last.apply
        (opcode.execute instruction.operands (machine.begun instruction opcode))) :
    step (first.apply machine) = mapState last.apply (step machine) := by
  obtain ⟨_, generator, entropy⟩ := first
  subst settings
  have begun : (Guise.apply ⟨id, generator, entropy⟩ machine).begun instruction opcode =
      Guise.apply ⟨id, generator, entropy⟩ (machine.begun instruction opcode) := rfl
  rw [step_of_next next calls,
    @step_of_next (Guise.apply ⟨id, generator, entropy⟩ machine) _ _ next calls, begun, same]
  cases opcode.execute instruction.operands (machine.begun instruction opcode) with
  | ok outcome after => rfl
  | error cause after => rfl

/-- A step that does not execute `random` is blind to the random numbers. -/
theorem step_unrolled {guise : Guise} (settings : guise.settings = id)
    (unrolled : machine.rolled? = none) :
    step (guise.apply machine) = mapState guise.apply (step machine) := by
  by_cases isRandom : ∃ instruction, machine.nextInstruction = .ok (instruction, .random)
  · obtain ⟨instruction, next⟩ := isRandom
    by_cases calls : machine.calls = []
    · obtain ⟨_, generator, entropy⟩ := guise
      subst settings
      rw [step_without_frame next calls,
        @step_without_frame (Guise.apply ⟨id, generator, entropy⟩ machine) _ _ next calls]
      rfl
    · -- The operand cannot be read, and reading it is blind.
      refine step_of_execute settings next calls ?_
      show random _ _ = mapState _ (random _ _)
      have blind : Blind guise (oneOperand instruction.operands) := .oneOperand _
      have readAgain := blind.same (machine.begun instruction .random)
      cases read : oneOperand instruction.operands (machine.begun instruction .random) with
      | ok range middle => simp [rolled?, next, calls, read] at unrolled
      | error e middle =>
          rw [read] at readAgain
          rw [random_of_error read, random_of_error readAgain]
          rfl
  · refine step_blind guise ?_ ?_ fun instruction next => absurd ⟨instruction, next⟩ isRandom
    · obtain ⟨_, generator, entropy⟩ := guise
      subst settings
      rfl
    · rw [settings]
      rfl

/-- A step that executes `random` does what the range says. -/
theorem step_rolled {first last : Guise} (settings : first.settings = id)
    (rolled : machine.rolled? = some range)
    (same : ∀ machine, random [⟨.large, range⟩] (first.apply machine) =
      mapState last.apply (random [⟨.large, range⟩] machine)) :
    step (first.apply machine) = mapState last.apply (step machine) := by
  obtain ⟨instruction, middle, next, calls, read⟩ := exists_of_rolled? rolled
  refine step_of_execute settings next calls ?_
  have blind : Blind first (oneOperand instruction.operands) := .oneOperand _
  have readAgain := blind.same (machine.begun instruction .random)
  rw [read] at readAgain
  show random _ _ = mapState _ (random _ _)
  rw [random_of_ok read, random_of_ok readAgain]
  exact same middle

/-- A step that executes `random` with a negative range leaves the generator of its
absolute value, even if the result cannot be stored. -/
theorem step_seeded (rolled : machine.rolled? = some range) (negative : signedOfWord range < 0) :
    (leaves step machine).generator = .ofSeed (UInt64.ofNat (signedOfWord range).natAbs) := by
  obtain ⟨instruction, middle, next, calls, read⟩ := exists_of_rolled? rolled
  have seeded := random_seeded negative middle
  have run : Opcode.execute .random instruction.operands (machine.begun instruction .random) =
      random [⟨.large, range⟩] middle := random_of_ok read
  rw [leaves, step_of_next next calls, run]
  rw [leaves] at seeded
  cases result : random [⟨.large, range⟩] middle with
  | ok outcome after =>
      rw [result] at seeded
      exact seeded
  | error cause after =>
      rw [result] at seeded
      exact seeded

/-! ## Machines side by side -/

/-- The machines agree in everything but their random numbers. -/
def ButRandom (machine other : Machine) : Prop :=
  ∃ generator entropy, other = { machine with generator, entropy }

/-- The machines agree in everything but their supply of keys. -/
def ButKeys (machine other : Machine) : Prop := ∃ entropy, other = { machine with entropy }

/-- What a step tells, without the machine it leaves. -/
def verdict (machine : Machine) : Except Fault Outcome :=
  match step machine with
  | .ok outcome _ => .ok outcome
  | .error fault _ => .error fault

theorem verdict_of_mapState {change : Machine → Machine}
    (same : step other = mapState change (step machine)) : other.verdict = machine.verdict := by
  simp only [verdict, same]
  cases step machine with
  | ok outcome after => rfl
  | error fault after => rfl

/-- The machine after a number of steps, any of which may fail. -/
def attempted (machine : Machine) : Nat → Machine
  | 0 => machine
  | k + 1 => leaves step (machine.attempted k)

/-- Machines that agree but for their keys go on so until a range of zero. -/
theorem ButKeys.attempt (alike : ButKeys machine other) (keyless : machine.rolled? ≠ some 0) :
    other.verdict = machine.verdict ∧ ButKeys (leaves step machine) (leaves step other) := by
  obtain ⟨entropy, rfl⟩ := alike
  have same : step ((rekeyed entropy).apply machine) =
      mapState (rekeyed entropy).apply (step machine) := by
    cases rolled : machine.rolled? with
    | none => exact step_unrolled rfl rolled
    | some range =>
        have nonzero : range ≠ 0 := fun zero => keyless (zero ▸ rolled)
        exact step_rolled rfl rolled (random_keyless nonzero entropy)
  exact ⟨verdict_of_mapState same, entropy, leaves_of_mapState same⟩

/-- A negative range makes machines agree but for their keys. -/
theorem ButRandom.seed (alike : ButRandom machine other) (rolled : machine.rolled? = some range)
    (negative : signedOfWord range < 0) :
    other.verdict = machine.verdict ∧ ButKeys (leaves step machine) (leaves step other) := by
  obtain ⟨generator, entropy, rfl⟩ := alike
  have same : step ((disguise generator entropy).apply machine) =
      mapState (rekeyed entropy).apply (step machine) :=
    step_rolled rfl rolled (random_seeds negative generator entropy)
  exact ⟨verdict_of_mapState same, entropy, leaves_of_mapState same⟩

theorem ButKeys.butRandom (alike : ButKeys machine other) : ButRandom machine other := by
  obtain ⟨entropy, rfl⟩ := alike
  exact ⟨machine.generator, entropy, rfl⟩

/-- Machines that agree but for their random numbers go on so until one is drawn. -/
theorem ButRandom.attempt (alike : ButRandom machine other)
    (drawless : ∀ range, machine.rolled? = some range → signedOfWord range < 0) :
    other.verdict = machine.verdict ∧ ButRandom (leaves step machine) (leaves step other) := by
  cases rolled : machine.rolled? with
  | none =>
      obtain ⟨generator, entropy, rfl⟩ := alike
      have same : step ((disguise generator entropy).apply machine) =
          mapState (disguise generator entropy).apply (step machine) := step_unrolled rfl rolled
      exact ⟨verdict_of_mapState same, generator, entropy, leaves_of_mapState same⟩
  | some range =>
      obtain ⟨verdict, alike⟩ := alike.seed rolled (drawless range rolled)
      exact ⟨verdict, alike.butRandom⟩

theorem ButRandom.attempted (alike : ButRandom machine other) {k : Nat}
    (drawless : ∀ i < k, ∀ range, (machine.attempted i).rolled? = some range →
      signedOfWord range < 0) :
    ButRandom (machine.attempted k) (other.attempted k) := by
  induction k with
  | zero => exact alike
  | succ k ih =>
      have before := ih fun i h => drawless i (Nat.lt_succ_of_lt h)
      exact (before.attempt (drawless k (Nat.lt_succ_self k))).2

theorem ButKeys.attempted {start : Nat}
    (alike : ButKeys (machine.attempted start) (other.attempted start)) {k : Nat}
    (later : start ≤ k)
    (keyless : ∀ i, start ≤ i → i < k → (machine.attempted i).rolled? ≠ some 0) :
    ButKeys (machine.attempted k) (other.attempted k) := by
  induction later with
  | refl => exact alike
  | step later ih =>
      have before := ih fun i h h' => keyless i h (Nat.lt_succ_of_lt h')
      exact (before.attempt (keyless _ later (Nat.lt_succ_self _))).2

/-- Random numbers act on a run through `random` alone.  Let two machines agree in
everything but their random numbers, and let none of their first steps execute
`random` with a range that is positive or zero.  Then these steps tell the same, and
the machines still agree.  And if one of these steps executes `random` with a negative
range, both machines have the generator of its absolute value, and from there on all
steps tell the same and the machines agree in everything but their supply of keys,
until a range of zero. -/
theorem random_numbers_act_through_random {machine other : Machine} {k : Nat}
    (alike : ButRandom machine other)
    (drawless : ∀ i < k, ∀ range, (machine.attempted i).rolled? = some range →
      signedOfWord range < 0) :
    (∀ i < k, (other.attempted i).verdict = (machine.attempted i).verdict) ∧
      ButRandom (machine.attempted k) (other.attempted k) ∧
      ∀ i < k, ∀ range, (machine.attempted i).rolled? = some range →
        (machine.attempted (i + 1)).generator =
          .ofSeed (UInt64.ofNat (signedOfWord range).natAbs) ∧
        ∀ m, i < m → (∀ j, i < j → j < m → (machine.attempted j).rolled? ≠ some 0) →
          (∀ j, i < j → j < m →
            (other.attempted j).verdict = (machine.attempted j).verdict) ∧
          ButKeys (machine.attempted m) (other.attempted m) := by
  have before {i : Nat} (h : i ≤ k) : ButRandom (machine.attempted i) (other.attempted i) :=
    alike.attempted fun j h' => drawless j (Nat.lt_of_lt_of_le h' h)
  refine ⟨?_, before (Nat.le_refl k), ?_⟩
  · intro i h
    exact ((before (Nat.le_of_lt h)).attempt (drawless i h)).1
  · intro i h range rolled
    have negative := drawless i h range rolled
    have seeded : ButKeys (machine.attempted (i + 1)) (other.attempted (i + 1)) :=
      ((before (Nat.le_of_lt h)).seed rolled negative).2
    refine ⟨step_seeded rolled negative, ?_⟩
    intro m later keyless
    have after {j : Nat} (h : i < j) (h' : j ≤ m) :
        ButKeys (machine.attempted j) (other.attempted j) :=
      ButKeys.attempted seeded h fun j' earlier h'' =>
        keyless j' earlier (Nat.lt_of_lt_of_le h'' h')
    refine ⟨?_, after later (Nat.le_refl m)⟩
    intro j h h'
    exact ((after h (Nat.le_of_lt h')).attempt (keyless j h h')).1

/-- The bytes of two instructions: seed with the most negative range, then draw. -/
def seedAndDraw : List UInt8 := [0xe7, 0x3f, 0x80, 0x00, 0, 0xe7, 0x7f, 6, 0]

theorem random_numbers_act_through_random_sample :
    (∃ range, (ofBytes seedAndDraw []).rolled? = some range ∧ signedOfWord range < 0) ∧
      ((ofBytes seedAndDraw []).attempted 1).rolled? = some 6 ∧
      ((ofBytes seedAndDraw []).attempted 1).generator = .ofSeed 32768 ∧
      ButKeys ((ofBytes seedAndDraw []).attempted 2)
        (attempted { ofBytes seedAndDraw [] with generator := .ofSeed 1 } 2) := by
  have first : (ofBytes seedAndDraw []).rolled? = some 0x8000 := by decide +kernel
  have second : ((ofBytes seedAndDraw []).attempted 1).rolled? = some 6 := by decide +kernel
  have alike : ButRandom (ofBytes seedAndDraw [])
      { ofBytes seedAndDraw [] with generator := .ofSeed 1 } := ⟨_, _, rfl⟩
  have drawless : ∀ i < 1, ∀ range, ((ofBytes seedAndDraw []).attempted i).rolled? = some range →
      signedOfWord range < 0 := by
    intro i h range rolled
    obtain rfl : i = 0 := by omega
    rw [attempted, first] at rolled
    cases rolled
    decide
  obtain ⟨-, -, seeded⟩ := random_numbers_act_through_random alike drawless
  obtain ⟨generator, later⟩ := seeded 0 (by omega) 0x8000 first
  refine ⟨⟨0x8000, first, by decide⟩, second, generator, (later 2 (by omega) ?_).2⟩
  intro j h h'
  obtain rfl : j = 1 := by omega
  rw [second]
  decide

end Machine

end StoryMachine
