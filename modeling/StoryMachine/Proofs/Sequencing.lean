/-!
# Sequences of steps

A sequence succeeds exactly when each of its steps does, and it fails where the
first of them does.  The lemmas of this module take an `Except` or `EStateM`
computation apart into its steps.  Those that are tagged for `simp` let the steps
of a `do` block be read off it.

What a sequence fails for, whether it fails at all, and the state it leaves when it
fails come from its steps as well (`FailsOnly`, `RunFailsOnly`, `Succeeds`,
`leaves_bind`).

Computations in a row go on after one that fails (`leavesAll`, `givesAll`).  Two rows
give the same if their computations do so one by one (`givesAll_eq_of_simulates`).
-/

namespace StoryMachine

variable {ε σ α β : Type}

/-! ## Computations without a state -/

@[simp] theorem except_bind_eq_ok {first : Except ε α} {next : α → Except ε β} {b : β} :
    first >>= next = .ok b ↔ ∃ a, first = .ok a ∧ next a = .ok b := by
  cases first with
  | ok a => simp [bind, Except.bind]
  | error e => simp [bind, Except.bind]

@[simp] theorem except_pure_eq_ok {a b : α} : (pure a : Except ε α) = .ok b ↔ a = b := by
  simp [pure, Except.pure]

@[simp] theorem except_throw_ne_ok {e : ε} {b : α} : (throw e : Except ε α) ≠ .ok b :=
  fun h => nomatch h

@[simp] theorem except_map_eq_ok {first : Except ε α} {f : α → β} {b : β} :
    first.map f = .ok b ↔ ∃ a, first = .ok a ∧ f a = b := by
  cases first with
  | ok a => simp [Except.map]
  | error e => simp [Except.map]

@[simp] theorem except_mapError_eq_ok {ε' : Type} {first : Except ε α} {f : ε → ε'} {a : α} :
    first.mapError f = .ok a ↔ first = .ok a := by
  cases first with
  | ok b =>
      constructor
      · intro h
        cases h
        rfl
      · intro h
        cases h
        rfl
  | error e =>
      constructor
      · intro h
        cases h
      · intro h
        cases h

/-- A computation fails only for causes of one kind. -/
def FailsOnly (kind : ε → Prop) (computation : Except ε α) : Prop :=
  ∀ e, computation = .error e → kind e

namespace FailsOnly

variable {kind other : ε → Prop}

@[simp] theorem ok (a : α) : FailsOnly kind (.ok a) := fun _ failed => nomatch failed

@[simp] theorem pure (a : α) : FailsOnly kind (Pure.pure a : Except ε α) := ok a

@[simp] theorem error {e : ε} : FailsOnly kind (.error e : Except ε α) ↔ kind e := by
  constructor
  · intro fails
    exact fails e rfl
  · rintro holds _ ⟨⟩
    exact holds

@[simp] theorem throw {e : ε} : FailsOnly kind (throw e : Except ε α) ↔ kind e := error

/-- A sequence fails only for causes that its steps fail for. -/
theorem bind {first : Except ε α} {next : α → Except ε β} (fails : FailsOnly kind first)
    (rest : ∀ a, first = .ok a → FailsOnly kind (next a)) :
    FailsOnly kind (first >>= next) := by
  cases first with
  | ok a => exact rest a rfl
  | error e => exact error.2 (error.1 fails)

theorem map {first : Except ε α} (f : α → β) (fails : FailsOnly kind first) :
    FailsOnly kind (first.map f) := by
  cases first with
  | ok a => exact ok (f a)
  | error e => exact error.2 (error.1 fails)

theorem mono {computation : Except ε α} (fails : FailsOnly kind computation)
    (weaker : ∀ e, kind e → other e) : FailsOnly other computation :=
  fun e failed => weaker e (fails e failed)

theorem ite {condition : Prop} [Decidable condition] {yes no : Except ε α}
    (fails : FailsOnly kind yes) (others : FailsOnly kind no) :
    FailsOnly kind (if condition then yes else no) := by
  split
  · exact fails
  · exact others

theorem mapM {f : α → Except ε β} (fails : ∀ a, FailsOnly kind (f a)) :
    ∀ list : List α, FailsOnly kind (list.mapM f)
  | [] => pure []
  | a :: rest => by
      rw [List.mapM_cons]
      exact bind (fails a) fun _ _ => bind (mapM fails rest) fun _ _ => pure _

theorem foldlM {f : β → α → Except ε β} (fails : ∀ b a, FailsOnly kind (f b a)) :
    ∀ (list : List α) (b : β), FailsOnly kind (list.foldlM f b)
  | [], b => pure b
  | a :: rest, b => by
      rw [List.foldlM_cons]
      exact bind (fails b a) fun _ _ => foldlM fails rest _

end FailsOnly

/-- A computation gives a result. -/
def Succeeds (computation : Except ε α) : Prop := ∃ a, computation = .ok a

namespace Succeeds

@[simp] theorem ok (a : α) : Succeeds (.ok a : Except ε α) := ⟨a, rfl⟩

@[simp] theorem pure (a : α) : Succeeds (Pure.pure a : Except ε α) := ok a

@[simp] theorem not_error {e : ε} : ¬Succeeds (.error e : Except ε α) := fun ⟨_, no⟩ => nomatch no

/-- A sequence gives a result when all of its steps do. -/
theorem bind_iff {first : Except ε α} {next : α → Except ε β} :
    Succeeds (first >>= next) ↔ ∃ a, first = .ok a ∧ Succeeds (next a) := by
  cases first with
  | ok a =>
      constructor
      · intro rest
        exact ⟨a, rfl, rest⟩
      · rintro ⟨_, same, rest⟩
        cases same
        exact rest
  | error e =>
      constructor
      · intro no
        exact absurd no not_error
      · rintro ⟨_, no, -⟩
        cases no

theorem bind {first : Except ε α} {next : α → Except ε β} (succeeds : Succeeds first)
    (rest : ∀ a, Succeeds (next a)) : Succeeds (first >>= next) := by
  obtain ⟨a, done⟩ := succeeds
  exact bind_iff.2 ⟨a, done, rest a⟩

theorem mapM_iff {f : α → Except ε β} {list : List α} :
    Succeeds (list.mapM f) ↔ ∀ a ∈ list, Succeeds (f a) := by
  induction list with
  | nil => simp
  | cons first rest ih =>
      rw [List.mapM_cons, List.forall_mem_cons, ← ih]
      constructor
      · intro all
        obtain ⟨b, one, all⟩ := bind_iff.1 all
        obtain ⟨others, more, -⟩ := bind_iff.1 all
        exact ⟨⟨b, one⟩, ⟨others, more⟩⟩
      · rintro ⟨⟨b, one⟩, ⟨others, more⟩⟩
        exact bind_iff.2 ⟨b, one, bind_iff.2 ⟨others, more, pure _⟩⟩

end Succeeds

/-- The results of several computations are those of the computations one by one. -/
theorem map_of_mapM {f : α → Except ε β} : ∀ {list : List α} {results : List β},
    list.mapM f = .ok results → list.map f = results.map .ok
  | [], _, run => by
      cases run
      rfl
  | first :: rest, results, run => by
      rw [List.mapM_cons] at run
      obtain ⟨one, runOne, run⟩ := except_bind_eq_ok.1 run
      obtain ⟨others, runOthers, run⟩ := except_bind_eq_ok.1 run
      cases except_pure_eq_ok.1 run
      rw [List.map_cons, List.map_cons, runOne, map_of_mapM runOthers]

theorem exists_of_mem_mapM {f : α → Except ε β} {b : β} {list : List α} {results : List β}
    (run : list.mapM f = .ok results) (member : b ∈ results) : ∃ a ∈ list, f a = .ok b := by
  apply List.mem_map.1
  rw [map_of_mapM run]
  exact List.mem_map_of_mem member

/-- A result that passes a test is there. -/
theorem exists_of_toOption_any {computation : Except ε α} {test : α → Bool}
    (passes : computation.toOption.any test = true) : ∃ a, computation = .ok a ∧ test a = true := by
  cases computation with
  | ok a => exact ⟨a, rfl, passes⟩
  | error e => cases passes

/-! ## Computations that change a state -/

@[simp] theorem bind_eq_ok {first : EStateM ε σ α} {next : α → EStateM ε σ β} {b : β}
    {state final : σ} :
    (first >>= next) state = .ok b final ↔
      ∃ a middle, first state = .ok a middle ∧ next a middle = .ok b final := by
  show EStateM.bind first next state = _ ↔ _
  simp only [EStateM.bind]
  cases first state with
  | ok a middle =>
      constructor
      · intro h
        exact ⟨a, middle, rfl, h⟩
      · rintro ⟨_, _, same, h⟩
        cases same
        exact h
  | error e middle => simp

/-- A sequence whose first step succeeds does what the rest does after it. -/
theorem bind_of_ok {first : EStateM ε σ α} {next : α → EStateM ε σ β} {a : α}
    {state middle : σ} (run : first state = .ok a middle) :
    (first >>= next) state = next a middle := by
  simp only [bind, EStateM.bind, run]

theorem map_of_ok (f : α → β) {computation : EStateM ε σ α} {state final : σ} {a : α}
    (run : computation state = .ok a final) : (f <$> computation) state = .ok (f a) final := by
  simp only [Functor.map, EStateM.map, run]

@[simp] theorem pure_eq_ok {a b : α} {state final : σ} :
    (pure a : EStateM ε σ α) state = .ok b final ↔ a = b ∧ state = final := by
  simp [pure, EStateM.pure]

@[simp] theorem throw_ne_ok {e : ε} {b : α} {state final : σ} :
    (throw e : EStateM ε σ α) state ≠ .ok b final :=
  fun h => nomatch h

@[simp] theorem get_eq_ok {b state final : σ} :
    (get : EStateM ε σ σ) state = .ok b final ↔ state = b ∧ state = final := by
  show EStateM.Result.ok state state = .ok b final ↔ _
  rw [EStateM.Result.ok.injEq]

@[simp] theorem modify_eq_ok {f : σ → σ} {u : PUnit} {state final : σ} :
    (modify f : EStateM ε σ PUnit) state = .ok u final ↔ f state = final := by
  show EStateM.Result.ok ⟨⟩ (f state) = .ok u final ↔ _
  rw [EStateM.Result.ok.injEq]
  exact and_iff_right rfl

/-! ## Computations that fail -/

@[simp] theorem bind_eq_error {first : EStateM ε σ α} {next : α → EStateM ε σ β} {e : ε}
    {state final : σ} :
    (first >>= next) state = .error e final ↔
      first state = .error e final ∨
        ∃ a middle, first state = .ok a middle ∧ next a middle = .error e final := by
  show EStateM.bind first next state = _ ↔ _
  simp only [EStateM.bind]
  cases first state with
  | ok a middle =>
      constructor
      · intro h
        exact .inr ⟨a, middle, rfl, h⟩
      · rintro (other | ⟨_, _, same, h⟩)
        · cases other
        · cases same
          exact h
  | error e middle => simp

/-- A sequence whose first step fails does no more. -/
theorem bind_of_error {first : EStateM ε σ α} {next : α → EStateM ε σ β} {e : ε}
    {state middle : σ} (run : first state = .error e middle) :
    (first >>= next) state = .error e middle := by
  simp only [bind, EStateM.bind, run]

theorem map_of_error (f : α → β) {computation : EStateM ε σ α} {state final : σ} {e : ε}
    (run : computation state = .error e final) : (f <$> computation) state = .error e final := by
  simp only [Functor.map, EStateM.map, run]

@[simp] theorem get_ne_error {e : ε} {state final : σ} :
    (get : EStateM ε σ σ) state ≠ .error e final :=
  fun h => nomatch h

@[simp] theorem modify_ne_error {f : σ → σ} {e : ε} {state final : σ} :
    (modify f : EStateM ε σ PUnit) state ≠ .error e final :=
  fun h => nomatch h

/-- A computation that changes a state fails only for causes of one kind. -/
def RunFailsOnly (kind : ε → Prop) (computation : EStateM ε σ α) : Prop :=
  ∀ state e final, computation state = .error e final → kind e

namespace RunFailsOnly

variable {kind : ε → Prop}

theorem pure (a : α) : RunFailsOnly kind (Pure.pure a : EStateM ε σ α) :=
  fun _ _ _ failed => nomatch failed

theorem throw {e : ε} (holds : kind e) : RunFailsOnly kind (throw e : EStateM ε σ α) := by
  intro state e' final failed
  cases failed
  exact holds

theorem get : RunFailsOnly kind (get : EStateM ε σ σ) := fun _ _ _ failed => nomatch failed

theorem modify (f : σ → σ) : RunFailsOnly kind (modify f : EStateM ε σ PUnit) :=
  fun _ _ _ failed => nomatch failed

theorem bind {first : EStateM ε σ α} {next : α → EStateM ε σ β}
    (fails : RunFailsOnly kind first) (rest : ∀ a, RunFailsOnly kind (next a)) :
    RunFailsOnly kind (first >>= next) := by
  intro state e final failed
  rcases bind_eq_error.1 failed with failed | ⟨a, middle, -, failed⟩
  · exact fails state e final failed
  · exact rest a middle e final failed

end RunFailsOnly

/-! ## States that are left behind -/

/-- The state that a computation leaves, whether it succeeds or fails. -/
def leaves (computation : EStateM ε σ α) (state : σ) : σ :=
  match computation state with
  | .ok _ final => final
  | .error _ final => final

theorem leaves_of_ok {computation : EStateM ε σ α} {state final : σ} {a : α}
    (run : computation state = .ok a final) : leaves computation state = final := by
  rw [leaves, run]

theorem leaves_of_error {computation : EStateM ε σ α} {state final : σ} {e : ε}
    (run : computation state = .error e final) : leaves computation state = final := by
  rw [leaves, run]

/-- A sequence leaves what its first step leaves, if that fails, and otherwise
what the rest leaves. -/
theorem leaves_bind (first : EStateM ε σ α) (next : α → EStateM ε σ β) (state : σ) :
    leaves (first >>= next) state = leaves first state ∨
      ∃ a, leaves (first >>= next) state = leaves (next a) (leaves first state) := by
  cases run : first state with
  | ok a middle =>
      refine .inr ⟨a, ?_⟩
      rw [leaves_of_ok run, leaves, leaves, bind_of_ok run]
  | error e middle =>
      refine .inl ?_
      rw [leaves_of_error run, leaves_of_error (bind_of_error run)]

theorem leaves_map (f : α → β) (computation : EStateM ε σ α) (state : σ) :
    leaves (f <$> computation) state = leaves computation state := by
  cases run : computation state with
  | ok a final => rw [leaves_of_ok run, leaves_of_ok (map_of_ok f run)]
  | error e final => rw [leaves_of_error run, leaves_of_error (map_of_error f run)]

/-! ## Computations in a row -/

/-- What a computation gives. -/
def gives (computation : EStateM ε σ α) (state : σ) : Except ε α :=
  match computation state with
  | .ok a _ => .ok a
  | .error e _ => .error e

theorem gives_of_ok {computation : EStateM ε σ α} {state final : σ} {a : α}
    (run : computation state = .ok a final) : gives computation state = .ok a := by
  rw [gives, run]

theorem gives_of_error {computation : EStateM ε σ α} {state final : σ} {e : ε}
    (run : computation state = .error e final) : gives computation state = .error e := by
  rw [gives, run]

section Row

variable {τ ι : Type}

/-- The state that a row of computations leaves, each of which starts from what the one
before it left, whether that succeeded or failed. -/
def leavesAll (perform : ι → EStateM ε σ α) : List ι → σ → σ
  | [], state => state
  | i :: rest, state => leavesAll perform rest (leaves (perform i) state)

/-- What the computations of a row give. -/
def givesAll (perform : ι → EStateM ε σ α) : List ι → σ → List (Except ε α)
  | [], _ => []
  | i :: rest, state => gives (perform i) state :: givesAll perform rest (leaves (perform i) state)

variable {perform : ι → EStateM ε σ α} {invariant : σ → Prop}
  (keeps : ∀ i state, invariant state → invariant (leaves (perform i) state))

include keeps

/-- A row keeps what each of its computations keeps. -/
theorem leavesAll_keeps : ∀ (list : List ι) {state : σ}, invariant state →
    invariant (leavesAll perform list state)
  | [], _, holds => holds
  | i :: rest, state, holds => leavesAll_keeps rest (keeps i state holds)

/-- If each computation gives what another gives on a view of the state, and leaves what
that leaves there, a row of them does so as well. -/
theorem givesAll_eq_of_simulates {specify : ι → EStateM ε τ α} {view : σ → τ}
    (gives_eq : ∀ i state, invariant state →
      gives (perform i) state = gives (specify i) (view state))
    (leaves_eq : ∀ i state, invariant state →
      view (leaves (perform i) state) = leaves (specify i) (view state)) :
    ∀ (list : List ι) {state : σ}, invariant state →
      givesAll perform list state = givesAll specify list (view state) ∧
        view (leavesAll perform list state) = leavesAll specify list (view state)
  | [], _, _ => ⟨rfl, rfl⟩
  | i :: rest, state, holds => by
      have later := givesAll_eq_of_simulates gives_eq leaves_eq rest (keeps i state holds)
      rw [leaves_eq i state holds] at later
      rw [givesAll, givesAll, gives_eq i state holds, later.1]
      exact ⟨rfl, later.2⟩

end Row

end StoryMachine
