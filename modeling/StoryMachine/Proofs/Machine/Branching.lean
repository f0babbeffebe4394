import StoryMachine.Proofs.Instruction.Encoding
import StoryMachine.Proofs.Machine.Steady

/-!
# Branches

Every conditional instruction ends with the bytes of a branch, and all of them leave it to
`branchOn` to read these and to act on them.  This module says what the bytes mean
(`BranchAt`) and, for each branch and each condition, what comes of it (`branchOn_exact`):
the story goes on behind the branch, jumps, returns from the routine, or fails because the
branch or its target lies outside the image.
-/

namespace StoryMachine

namespace Machine

variable {machine : Machine}

/-! ## Moving the running frame -/

/-- The machine with its running frame at another address. -/
def movedTo (machine : Machine) (pc : Nat) : Machine :=
  { machine with calls := machine.calls.modifyHead fun running => { running with pc } }

theorem movedTo_pc (calls : machine.calls ≠ []) (pc : Nat) : (machine.movedTo pc).pc = pc := by
  obtain ⟨running, below, calls⟩ := List.exists_cons_of_ne_nil calls
  simp only [movedTo, Machine.pc, calls, List.modifyHead_cons]

@[simp] theorem movedTo_movedTo (first second : Nat) :
    (machine.movedTo first).movedTo second = machine.movedTo second := by
  simp only [movedTo]
  cases machine.calls with
  | nil => rfl
  | cons running below => rfl

@[simp] theorem movedTo_self : machine.movedTo machine.pc = machine := by
  have same : (machine.calls.modifyHead fun running => { running with pc := machine.pc }) =
      machine.calls := by
    simp only [pc]
    cases machine.calls with
    | nil => rfl
    | cons running below => rfl
  rw [movedTo, same]

theorem movedTo_ne_nil (calls : machine.calls ≠ []) (pc : Nat) :
    (machine.movedTo pc).calls ≠ [] := by
  obtain ⟨running, below, calls⟩ := List.exists_cons_of_ne_nil calls
  simp [movedTo, calls]

@[simp] theorem movedTo_tail (pc : Nat) :
    (machine.movedTo pc).calls.tail = machine.calls.tail := by
  simp only [movedTo]
  cases machine.calls with
  | nil => rfl
  | cons running below => rfl

theorem setPc_eq (calls : machine.calls ≠ []) (pc : Nat) :
    setPc pc machine = .ok () (machine.movedTo pc) := by
  obtain ⟨running, below, calls⟩ := List.exists_cons_of_ne_nil calls
  refine setPc_eq_ok.2 ⟨running, below, calls, ?_⟩
  simp only [movedTo, calls, List.modifyHead_cons]

theorem fetchByte_of_ok (calls : machine.calls ≠ []) {byte : UInt8}
    (read : machine.memory.getByte machine.pc = .ok byte) :
    fetchByte machine = .ok byte (machine.movedTo (machine.pc + 1)) := by
  obtain ⟨running, below, calls⟩ := List.exists_cons_of_ne_nil calls
  simp only [pc, calls] at read
  refine fetchByte_eq_ok.2 ⟨running, below, calls, read, ?_⟩
  simp only [movedTo, pc, calls, List.modifyHead_cons]

theorem fetchByte_of_error (calls : machine.calls ≠ []) {e : Error}
    (failed : machine.memory.getByte machine.pc = .error e) :
    fetchByte machine = .error e machine := by
  obtain ⟨running, below, calls⟩ := List.exists_cons_of_ne_nil calls
  simp only [pc, calls] at failed
  have current : frame machine = .ok running machine := frame_eq_ok.2 ⟨⟨below, calls⟩, rfl⟩
  rw [fetchByte, bind_of_ok current]
  exact bind_of_error (ask_eq_error.2 ⟨failed, rfl⟩)

/-- A jump moves the running frame, or fails if it leads to before the image. -/
theorem jumpBy_eq (calls : machine.calls ≠ []) (offset : Int) :
    jumpBy offset machine =
      if (machine.pc : Int) + offset - 2 < 0 then
        .error (.outOfBounds machine.pc machine.memory.size) machine
      else .ok () (machine.movedTo ((machine.pc : Int) + offset - 2).toNat) := by
  obtain ⟨running, below, stack⟩ := List.exists_cons_of_ne_nil calls
  have current : frame machine = .ok running machine := frame_eq_ok.2 ⟨⟨below, stack⟩, rfl⟩
  have pc : machine.pc = running.pc := by simp only [Machine.pc, stack]
  rw [jumpBy, bind_of_ok current, ← pc]
  split
  next => rfl
  next => exact setPc_eq calls _

/-! ## The bytes of a branch -/

/-- The bytes of a branch lie at an address.  The top bit of the first says on which
condition to branch.  If the next bit is set, the offset is in the six bits that are left.
Otherwise these and the second byte are a signed number of fourteen bits.  With the branch
comes the address after its bytes. -/
inductive BranchAt (memory : Memory) (address : Nat) : Branch → Nat → Prop where
  | short {first : UInt8} : memory.getByte address = .ok first →
      first.toNat.testBit 6 = true →
      BranchAt memory address
        { onTrue := first.toNat.testBit 7, offset := (first.toBitVec.setWidth 6).toNat }
        (address + 1)
  | long {first second : UInt8} : memory.getByte address = .ok first →
      first.toNat.testBit 6 = false → memory.getByte (address + 1) = .ok second →
      BranchAt memory address
        { onTrue := first.toNat.testBit 7
          offset := (first.toBitVec.setWidth 6 ++ second.toBitVec).toInt }
        (address + 2)

theorem BranchAt.offset_range {memory : Memory} {address stop : Nat} {branch : Branch}
    (here : BranchAt memory address branch stop) :
    -8192 ≤ branch.offset ∧ branch.offset ≤ 8191 := by
  cases here with
  | @short first =>
      have := (first.toBitVec.setWidth 6).isLt
      dsimp only
      omega
  | @long first second =>
      have := BitVec.toInt_lt (x := first.toBitVec.setWidth 6 ++ second.toBitVec)
      have := BitVec.le_toInt (x := first.toBitVec.setWidth 6 ++ second.toBitVec)
      dsimp only
      omega

theorem longOffset_eq_toInt (first second : UInt8) :
    longOffset first second = (first.toBitVec.setWidth 6 ++ second.toBitVec).toInt := by
  have raw : (first.toBitVec.setWidth 6 ++ second.toBitVec).toNat =
      256 * (first.toNat % 64) + second.toNat := by
    have less := second.toNat_lt
    rw [BitVec.toNat_append, ← Nat.shiftLeft_add_eq_or_of_lt second.toBitVec.isLt,
      Nat.shiftLeft_eq, BitVec.toNat_setWidth, Nat.mul_comm]
    rfl
  rw [longOffset, BitVec.toInt_eq_toNat_cond, raw]
  split <;> split <;> omega

theorem isShort_iff (first : UInt8) : first &&& 0x40 ≠ 0 ↔ first.toNat.testBit 6 = true := by
  rw [Nat.testBit_eq_decide_div_mod_eq, decide_eq_true_iff]
  exact Instruction.and_bit_ne_zero first 0x40 6 rfl

/-- Bytes of a branch are read as that branch. -/
theorem fetchBranch_of_branchAt (calls : machine.calls ≠ []) {branch : Branch} {stop : Nat}
    (here : BranchAt machine.memory machine.pc branch stop) :
    fetchBranch machine = .ok branch (machine.movedTo stop) := by
  have polarity (first : UInt8) : decide (first &&& 0x80 ≠ 0) = first.toNat.testBit 7 := by
    rw [Nat.testBit_eq_decide_div_mod_eq, decide_eq_decide]
    exact Instruction.and_bit_ne_zero first 0x80 7 rfl
  cases here with
  | @short first read isShort =>
      have low : (first &&& 0x3f).toNat = (first.toBitVec.setWidth 6).toNat :=
        Instruction.toNat_and_low first 0x3f 6 rfl
      rw [fetchBranch, bind_of_ok (fetchByte_of_ok calls read),
        if_pos ((isShort_iff first).2 isShort), polarity, low]
      rfl
  | @long first second read isLong readSecond =>
      have isLong : ¬first &&& 0x40 ≠ 0 := by
        rw [isShort_iff, isLong]
        exact Bool.false_ne_true
      rw [← movedTo_pc calls (machine.pc + 1)] at readSecond
      rw [fetchBranch, bind_of_ok (fetchByte_of_ok calls read), if_neg isLong,
        bind_of_ok (fetchByte_of_ok (movedTo_ne_nil calls _) readSecond), polarity,
        longOffset_eq_toInt, movedTo_pc calls, movedTo_movedTo]
      rfl

/-- Where no branch lies, reading one stops at the byte that is not inside the image. -/
theorem fetchBranch_of_no_branch (calls : machine.calls ≠ [])
    (none : ¬∃ branch stop, BranchAt machine.memory machine.pc branch stop) :
    ∃ address, machine.memory.size ≤ address ∧ fetchBranch machine =
      .error (.outOfBounds address machine.memory.size) (machine.movedTo address) := by
  by_cases inside : machine.pc < machine.memory.size
  · obtain ⟨first, read⟩ := Memory.exists_getByte inside
    have isLong : first.toNat.testBit 6 = false := by
      rw [Bool.eq_false_iff]
      exact fun isShort => none ⟨_, _, .short read isShort⟩
    have outside : machine.memory.size ≤ machine.pc + 1 := by
      refine Nat.not_lt.1 fun inside => ?_
      obtain ⟨second, readSecond⟩ := Memory.exists_getByte inside
      exact none ⟨_, _, .long read isLong readSecond⟩
    have failed : (machine.movedTo (machine.pc + 1)).memory.getByte
        (machine.movedTo (machine.pc + 1)).pc =
          .error (.outOfBounds (machine.pc + 1) machine.memory.size) := by
      rw [movedTo_pc calls]
      exact Memory.getByte_of_size_le outside
    have isLong : ¬first &&& 0x40 ≠ 0 := by
      rw [isShort_iff, isLong]
      exact Bool.false_ne_true
    refine ⟨machine.pc + 1, outside, ?_⟩
    rw [fetchBranch, bind_of_ok (fetchByte_of_ok calls read), if_neg isLong]
    exact bind_of_error (fetchByte_of_error (movedTo_ne_nil calls _) failed)
  · have outside := Nat.not_lt.1 inside
    refine ⟨machine.pc, outside, ?_⟩
    rw [movedTo_self]
    exact bind_of_error (fetchByte_of_error calls (Memory.getByte_of_size_le outside))

/-! ## Returns -/

/-- A return leaves the running frame.  It then ends the story if that was the outermost
one, and stores its value in the caller otherwise. -/
theorem returnValue_eq (value : UInt16) (machine : Machine) :
    ∃ log, returnValue value machine =
      (if machine.calls.tail.isEmpty then do
          note .info fun _ => "returned from the main routine"
          halt
        else do
          storeResult value
          return .returned value : Action Outcome)
        { machine with calls := machine.calls.tail, log } :=
  ⟨_, rfl⟩

theorem returnValue_of_last (value : UInt16) (last : machine.calls.tail = []) :
    ∃ log, returnValue value machine =
      .ok .halted { machine with calls := [], status := .halted, log } := by
  obtain ⟨log, returned⟩ := returnValue_eq value machine
  rw [returned, last, if_pos List.isEmpty_nil]
  exact ⟨_, rfl⟩

theorem returnValue_of_caller (value : UInt16) (caller : machine.calls.tail ≠ []) :
    ∃ log, returnValue value machine =
      (do storeResult value; return .returned value : Action Outcome)
        { machine with calls := machine.calls.tail, log } := by
  obtain ⟨log, returned⟩ := returnValue_eq value machine
  rw [returned, if_neg fun empty => caller (List.isEmpty_iff.1 empty)]
  exact ⟨log, rfl⟩

/-! ## What comes of a branch -/

section Fetched

variable {middle : Machine} {branch : Branch} (fetched : fetchBranch machine = .ok branch middle)
  {condition : Bool}

include fetched

theorem branchOn_of_other (other : condition ≠ branch.onTrue) :
    branchOn condition machine = .ok .continued middle := by
  rw [branchOn, bind_of_ok fetched, if_pos other]
  rfl

theorem branchOn_of_far (taken : condition = branch.onTrue) (notZero : branch.offset ≠ 0)
    (notOne : branch.offset ≠ 1) :
    branchOn condition machine =
      (do jumpBy branch.offset; return .branched : Action Outcome) middle := by
  rw [branchOn, bind_of_ok fetched, if_neg (not_not.2 taken), if_neg notZero, if_neg notOne]

theorem branchOn_of_return {value : UInt16} (small : value = 0 ∨ value = 1)
    (taken : condition = branch.onTrue) (offset : branch.offset = value.toNat) :
    branchOn condition machine = returnValue value middle := by
  rw [branchOn, bind_of_ok fetched, if_neg (not_not.2 taken)]
  rcases small with rfl | rfl
  · have zero : branch.offset = 0 := offset
    rw [if_pos zero]
  · have one : branch.offset = 1 := offset
    rw [if_neg (by omega), if_pos one]

end Fetched

/-- What a branch does, for every condition and whatever bytes the running frame is at.
If they are those of a branch, its offset is a number of fourteen bits.  A branch on the
other condition moves past its bytes and does nothing else.  One on this condition moves
by its offset less two from the address after its bytes, and fails if that is before the
image.  With the offsets 0 and 1 it is a return of that value from the address after its
bytes, which ends the story or stores the value in the caller.  And if the bytes of a
branch do not all lie inside the image, it fails at the first that does not. -/
theorem branchOn_exact {machine : Machine} (calls : machine.calls ≠ []) (condition : Bool) :
    (∀ branch stop, BranchAt machine.memory machine.pc branch stop →
      (-8192 ≤ branch.offset ∧ branch.offset ≤ 8191) ∧
      (condition ≠ branch.onTrue →
        branchOn condition machine = .ok .continued (machine.movedTo stop)) ∧
      (condition = branch.onTrue → branch.offset ≠ 0 → branch.offset ≠ 1 →
        (∀ target : Nat, (target : Int) = stop + branch.offset - 2 →
          branchOn condition machine = .ok .branched (machine.movedTo target)) ∧
        (stop + branch.offset - 2 < 0 →
          branchOn condition machine =
            .error (.outOfBounds stop machine.memory.size) (machine.movedTo stop))) ∧
      ∀ value : UInt16, value = 0 ∨ value = 1 → condition = branch.onTrue →
        branch.offset = value.toNat →
        branchOn condition machine = returnValue value (machine.movedTo stop) ∧
        (machine.depth = 1 → ∃ log, branchOn condition machine =
          .ok .halted { machine with calls := [], status := .halted, log }) ∧
        (machine.depth ≠ 1 → ∃ log, branchOn condition machine =
          (do storeResult value; return .returned value : Action Outcome)
            { machine with calls := machine.calls.tail, log })) ∧
    ((¬∃ branch stop, BranchAt machine.memory machine.pc branch stop) →
      ∃ address, machine.memory.size ≤ address ∧ branchOn condition machine =
        .error (.outOfBounds address machine.memory.size) (machine.movedTo address)) := by
  refine ⟨?_, ?_⟩
  · intro branch stop here
    have fetched := fetchBranch_of_branchAt calls here
    have pc := movedTo_pc calls stop
    have inside := movedTo_ne_nil calls stop
    refine ⟨here.offset_range, branchOn_of_other fetched, ?_, ?_⟩
    · intro taken notZero notOne
      have jump := jumpBy_eq inside branch.offset
      rw [pc] at jump
      rw [branchOn_of_far fetched taken notZero notOne]
      constructor
      · intro target forward
        rw [← forward, if_neg (by omega), Int.toNat_natCast, movedTo_movedTo] at jump
        exact bind_of_ok jump
      · intro before
        rw [if_pos before] at jump
        exact bind_of_error jump
    · intro value small taken offset
      have returns := branchOn_of_return fetched small taken offset
      have positive := List.length_pos_iff.2 calls
      have depth : machine.depth = machine.calls.length := rfl
      rw [returns]
      refine ⟨rfl, ?_, ?_⟩
      · intro last
        refine returnValue_of_last value ?_
        rw [movedTo_tail, ← List.length_eq_zero_iff, List.length_tail]
        omega
      · intro inner
        have caller : (machine.movedTo stop).calls.tail ≠ [] := by
          rw [movedTo_tail, ne_eq, ← List.length_eq_zero_iff, List.length_tail]
          omega
        obtain ⟨log, returned⟩ := returnValue_of_caller value caller
        rw [movedTo_tail] at returned
        exact ⟨log, returned⟩
  · intro none
    obtain ⟨address, outside, failed⟩ := fetchBranch_of_no_branch calls none
    exact ⟨address, outside, bind_of_error failed⟩

/-- The farthest branch forward, and the farthest one back from an address that is too
low for it. -/
theorem branchOn_exact_sample :
    BranchAt (ofBytes [0x1f, 0xff] []).memory 0 { onTrue := false, offset := 8191 } 2 ∧
      branchOn false (ofBytes [0x1f, 0xff] []) =
        .ok .branched ((ofBytes [0x1f, 0xff] []).movedTo 8191) ∧
      BranchAt (ofBytes [0x20, 0] []).memory 0 { onTrue := false, offset := -8192 } 2 ∧
      branchOn false (ofBytes [0x20, 0] []) =
        .error (.outOfBounds 2 2) ((ofBytes [0x20, 0] []).movedTo 2) := by
  have forward : BranchAt (ofBytes [0x1f, 0xff] []).memory 0
      { onTrue := false, offset := 8191 } 2 :=
    @BranchAt.long _ 0 0x1f 0xff rfl rfl rfl
  have back : BranchAt (ofBytes [0x20, 0] []).memory 0
      { onTrue := false, offset := -8192 } 2 :=
    @BranchAt.long _ 0 0x20 0 rfl rfl rfl
  obtain ⟨-, -, jumps, -⟩ := (branchOn_exact (List.cons_ne_nil _ _) false).1 _ _ forward
  obtain ⟨-, -, fails, -⟩ := (branchOn_exact (List.cons_ne_nil _ _) false).1 _ _ back
  exact ⟨forward, (jumps rfl (by decide) (by decide)).1 8191 rfl, back,
    (fails rfl (by decide) (by decide)).2 (by decide)⟩

end Machine

end StoryMachine
