import Mathlib.Data.Nat.Find
import StoryMachine.Proofs.Machine.Reachable
import StoryMachine.Proofs.Table.Readable
import StoryMachine.Proofs.Text.Encoding

/-!
# Where a packed string ends

Nothing but the marks on its words says where a string ends.  It ends with the first
word from its address on that is marked (`EndsAt`), and reading gives the three fields of
each word up to that one and the address after it.  Where no word is marked, reading
runs off the end of the image.

The text of a `print` instruction follows its only byte, so the story goes on behind the
first marked word after that byte.
-/

namespace StoryMachine

namespace Packed

variable {memory : Memory} {address : Nat}

/-! ## Marks -/

/-- The `k`-th word from an address on lies inside the image, and its top bit is set. -/
def MarkedAt (memory : Memory) (address k : Nat) : Prop :=
  ∃ word, memory.getWord (address + 2 * k) = .ok word ∧ word.toNat.testBit 15 = true

/-- The first marked word from an address on is the `k`-th. -/
structure EndsAt (memory : Memory) (address k : Nat) : Prop where
  marked : MarkedAt memory address k
  first : ∀ i < k, ¬MarkedAt memory address i

theorem isLast_eq_testBit (word : UInt16) : isLast word = word.toNat.testBit 15 := by
  have less := word.toNat_lt
  rw [isLast, Nat.testBit_eq_decide_div_mod_eq, decide_eq_decide]
  omega

theorem markedAt_succ {k : Nat} :
    MarkedAt memory address (k + 1) ↔ MarkedAt memory (address + 2) k := by
  rw [MarkedAt, MarkedAt, Nat.mul_add_one, Nat.add_comm (2 * k), ← Nat.add_assoc]

theorem ends_iff : Ends memory address ↔ ∃ k, MarkedAt memory address k := by
  simp only [Ends, MarkedAt, isLast_eq_testBit]

open Classical in
/-- A string that ends does so at its first marked word. -/
theorem Ends.exists_endsAt (ends : Ends memory address) : ∃ k, EndsAt memory address k := by
  have marked := ends_iff.1 ends
  exact ⟨Nat.find marked, Nat.find_spec marked, fun _ less => Nat.find_min marked less⟩

theorem holds_wordBytes_cons {word : UInt16} {words : List UInt16}
    (read : memory.getWord address = .ok word)
    (rest : memory.Holds (address + 2) (wordBytes words)) :
    memory.Holds address (wordBytes (word :: words)) := by
  obtain ⟨high, low, readHigh, readLow, rfl⟩ := Memory.getWord_eq_ok.1 read
  refine Memory.Holds.cons.2 ⟨?_, Memory.Holds.cons.2 ⟨?_, rest⟩⟩
  · rw [highByte_wordOfBytes]
    exact readHigh
  · rw [lowByte_wordOfBytes]
    exact readLow

/-- The words of a string are in memory up to its first marked word. -/
theorem EndsAt.exists_words {k : Nat} (ends : EndsAt memory address k) :
    ∃ words, Marked words ∧ words.length = k + 1 ∧ memory.Holds address (wordBytes words) := by
  induction k generalizing address with
  | zero =>
      obtain ⟨word, read, top⟩ := ends.marked
      exact ⟨[word], .last ((isLast_eq_testBit word).trans top), rfl,
        holds_wordBytes_cons read Memory.Holds.nil⟩
  | succ k ih =>
      -- A word before the marked one lies inside the image as well.
      obtain ⟨_, later, -⟩ := ends.marked
      have inside := Memory.lt_size_of_getWord later
      obtain ⟨word, read⟩ := Memory.exists_getWord (show address + 1 < memory.size by omega)
      have unmarked : isLast word = false := by
        rw [isLast_eq_testBit, Bool.eq_false_iff]
        exact fun top => ends.first 0 (Nat.zero_lt_succ k) ⟨word, read, top⟩
      have rest : EndsAt memory (address + 2) k :=
        ⟨markedAt_succ.1 ends.marked, fun i less marked =>
          ends.first (i + 1) (Nat.succ_lt_succ less) (markedAt_succ.2 marked)⟩
      obtain ⟨words, marked, length, holds⟩ := ih rest
      exact ⟨word :: words, .cons unmarked marked, congrArg (· + 1) length,
        holds_wordBytes_cons read holds⟩

/-! ## Fields -/

/-- A list of codes has the three fields of each of `count` words from an address on. -/
structure Fields (memory : Memory) (address count : Nat) (codes : List Code) : Prop where
  length : codes.length = 3 * count
  field : ∀ i < count, ∃ word, memory.getWord (address + 2 * i) = .ok word ∧
    ∀ j < 3, codes[3 * i + j]?.map Fin.val =
      some (word.toBitVec.extractLsb' (10 - 5 * j) 5).toNat

theorem wordCodes_field (word : UInt16) {j : Nat} (less : j < 3) :
    (wordCodes word)[j]?.map Fin.val =
      some (word.toBitVec.extractLsb' (10 - 5 * j) 5).toNat := by
  have place : j = 0 ∨ j = 1 ∨ j = 2 := by omega
  rcases place with rfl | rfl | rfl <;>
    simp [wordCodes, BitVec.extractLsb'_toNat, Nat.shiftRight_eq_div_pow]

/-- The codes of words in memory are their fields. -/
theorem fields_of_holds : ∀ {words : List UInt16} {address : Nat},
    memory.Holds address (wordBytes words) → Fields memory address words.length (codes words)
  | [], _, _ => ⟨rfl, fun _ none => absurd none (Nat.not_lt_zero _)⟩
  | word :: words, address, holds => by
      obtain ⟨read, holds⟩ := getWord_of_holds holds
      have rest := fields_of_holds holds
      have split : codes (word :: words) = wordCodes word ++ codes words := rfl
      have three : (wordCodes word).length = 3 := rfl
      constructor
      · rw [split, List.length_append, rest.length, three, List.length_cons]
        omega
      · intro i less
        cases i with
        | zero =>
            refine ⟨word, read, fun j less => ?_⟩
            rw [split, Nat.mul_zero, Nat.zero_add, List.getElem?_append_left (three ▸ less)]
            exact wordCodes_field word less
        | succ i =>
            obtain ⟨later, read, fields⟩ := rest.field i (Nat.lt_of_succ_lt_succ less)
            refine ⟨later, ?_, fun j less => ?_⟩
            · rw [Nat.mul_add_one, Nat.add_comm (2 * i), ← Nat.add_assoc]
              exact read
            · rw [split, List.getElem?_append_right (by omega), ← fields j less, three]
              congr 2
              omega

/-! ## Reading -/

theorem EndsAt.read {k : Nat} (ends : EndsAt memory address k) :
    ∃ codes, read memory address = .ok (codes, address + 2 * (k + 1)) ∧
      address + 2 * (k + 1) ≤ memory.size ∧ Fields memory address (k + 1) codes := by
  obtain ⟨words, marked, length, holds⟩ := ends.exists_words
  have inside := holds.le_size (by cases marked <;> exact List.cons_ne_nil _ _)
  have fields := fields_of_holds holds
  rw [length] at fields
  rw [length_wordBytes, length] at inside
  refine ⟨codes words, ?_, inside, fields⟩
  rw [read_of_holds marked holds, length]

/-- A scan that meets no marked word takes all words up to the end of the image. -/
theorem length_scanUpTo (endless : ¬Ends memory address) {limit : Nat} :
    (scanUpTo memory limit address).length = min limit ((memory.size - address) / 2) := by
  induction limit generalizing address with
  | zero => rw [scanUpTo, List.length_nil, Nat.zero_min]
  | succ limit ih =>
      have rest : ¬Ends memory (address + 2) := by
        rintro ⟨k, word, read, last⟩
        refine endless ⟨k + 1, word, ?_, last⟩
        rw [Nat.mul_add_one, Nat.add_comm (2 * k), ← Nat.add_assoc]
        exact read
      simp only [scanUpTo]
      cases read : memory.getWord address with
      | error e =>
          have outside : ¬address + 1 < memory.size := by
            intro inside
            obtain ⟨_, no⟩ := Memory.exists_getWord inside
            rw [read] at no
            cases no
          rw [List.length_nil]
          omega
      | ok word =>
          have inside := Memory.lt_size_of_getWord read
          have unmarked : ¬isLast word = true := fun last => endless ⟨0, word, read, last⟩
          dsimp only
          rw [if_neg unmarked, List.length_cons, ih rest]
          omega

theorem read_of_not_ends (endless : ¬Ends memory address) :
    read memory address =
      .error (.outOfBounds (address + 2 * ((memory.size - address) / 2)) memory.size) := by
  have length : (scan memory address).length = (memory.size - address) / 2 := by
    rw [scan, length_scanUpTo endless]
    omega
  cases result : read memory address with
  | ok pair => exact absurd (succeeds_read.1 ⟨pair, result⟩) endless
  | error e =>
      simp only [read] at result
      split at result
      next => cases result
      next =>
        cases result
        rw [length]
        rfl

theorem exists_endsAt_of_read {codes : List Code} {stop : Nat}
    (run : read memory address = .ok (codes, stop)) :
    ∃ k, EndsAt memory address k ∧ stop = address + 2 * (k + 1) := by
  obtain ⟨k, ends⟩ := (succeeds_read.1 ⟨_, run⟩).exists_endsAt
  obtain ⟨_, run', -⟩ := ends.read
  rw [run] at run'
  cases run'
  exact ⟨k, ends, rfl⟩

end Packed

/-! ## Strings inside instructions -/

/-- An instruction without operands is one byte long. -/
theorem Instruction.next_of_arity_zero {memory : Memory} {address : Nat}
    {instruction : Instruction} (decoded : decode memory address = .ok instruction)
    (arity : instruction.arity = .zero) :
    instruction.next = address + 1 := by
  obtain ⟨⟨opening, arguments, announced⟩, holds⟩ := exists_encoding decoded
  obtain rfl := Except.ok.inj ((decode_of_holds holds).symm.trans decoded)
  cases opening with
  | long => cases arity
  | listed number many names => cases many <;> cases arity
  | extended => cases arity
  | short number kind other =>
      have omitted : kind = .omitted := by
        by_contra present
        exact absurd ((if_neg present).symm.trans arity) nofun
      subst omitted
      cases arguments with
      | nil => rfl
      | cons => cases announced

/-- Only an instruction without operands is a `print`. -/
theorem Instruction.arity_of_print {instruction : Instruction}
    (named : instruction.opcode = .ok .print) : instruction.arity = .zero := by
  have found : Opcode.ofNumber? instruction.arity instruction.number = some .print := by
    simp only [opcode] at named
    grind
  by_contra other
  simp only [Opcode.ofNumber?, Opcode.ofOne?, Opcode.ofTwo?, Opcode.ofVariable?] at found
  grind

namespace Machine

variable {machine after : Machine}

/-- A `print` that succeeds moves past the string behind its byte. -/
theorem step_print {instruction : Instruction} {outcome : Outcome}
    (next : machine.nextInstruction = .ok (instruction, .print))
    (step : Machine.step machine = .ok outcome after) :
    ∃ k, Packed.EndsAt machine.memory (machine.pc + 1) k ∧
      after.pc = machine.pc + 1 + 2 * (k + 1) := by
  obtain ⟨_, _, next', nonempty, run⟩ := step_eq_ok.1 step
  cases next.symm.trans next'
  have behind := Instruction.next_of_arity_zero (decode_of_nextInstruction next)
    (Instruction.arity_of_print (opcode_of_nextInstruction next))
  have pc : (machine.begun instruction .print).pc = machine.pc + 1 :=
    (begun_pc nonempty).trans behind
  obtain ⟨_, middle, printed, ended⟩ := bind_eq_ok.1 run
  cases ended
  obtain ⟨running, below, text, stop, log, calls, decoded, -, rfl⟩ := printInline_eq_ok printed
  simp only [Machine.pc, calls] at pc
  simp only [Packed.decodeAt, except_bind_eq_ok] at decoded
  obtain ⟨⟨codes, _⟩, read, decoded⟩ := decoded
  cases decoded
  rw [pc] at read
  exact Packed.exists_endsAt_of_read read

end Machine

/-- Reading a string always has a result.  It succeeds exactly when some word from the
address on lies inside the image and has its top bit set.  The string then ends behind the
first such word, inside the image, and has the three fields of each word up to it.
Otherwise reading fails at the first word that is not inside the image.  So a `print`
that succeeds goes on right behind the first marked word after its byte. -/
theorem Packed.read_exact (memory : Memory) (address : Nat) :
    ((∃ codes stop, read memory address = .ok (codes, stop)) ↔
      ∃ k, MarkedAt memory address k) ∧
    (∀ k, EndsAt memory address k →
      ∃ codes, read memory address = .ok (codes, address + 2 * (k + 1)) ∧
        address + 2 * (k + 1) ≤ memory.size ∧ Fields memory address (k + 1) codes) ∧
    ((¬∃ k, MarkedAt memory address k) →
      read memory address =
        .error (.outOfBounds (address + 2 * ((memory.size - address) / 2)) memory.size)) ∧
    ∀ (machine after : Machine) (instruction : Instruction) (outcome : Outcome),
      machine.nextInstruction = .ok (instruction, .print) →
      machine.step = .ok outcome after →
      ∃ k, EndsAt machine.memory (machine.pc + 1) k ∧
        after.pc = machine.pc + 1 + 2 * (k + 1) := by
  refine ⟨?_, fun _ => EndsAt.read, ?_, fun _ _ _ _ => Machine.step_print⟩
  · rw [← ends_iff, ← succeeds_read, Succeeds, Prod.exists]
  · rw [← ends_iff]
    exact read_of_not_ends

/-- A `print` whose string has two words, so that the story goes on at address 5. -/
theorem Packed.read_exact_sample : ∃ (outcome : Outcome) (after : Machine) (k : Nat),
    (Machine.ofBytes [0xb2, 0x11, 0x94, 0x96, 0x45] []).step = .ok outcome after ∧
      after.pc = 5 ∧ EndsAt ⟨#[0xb2, 0x11, 0x94, 0x96, 0x45]⟩ 1 k ∧
      after.pc = 1 + 2 * (k + 1) := by
  have checked : ((Machine.ofBytes [0xb2, 0x11, 0x94, 0x96, 0x45] []).nextInstruction.toOption.any
      fun next => next.2 = .print && (Machine.ofBytes [0xb2, 0x11, 0x94, 0x96, 0x45] []).steps?
        fun _ after => after.pc = 5) = true := by
    decide +kernel
  obtain ⟨⟨instruction, opcode⟩, next, checked⟩ := exists_of_toOption_any checked
  obtain ⟨isPrint, steps⟩ := Bool.and_eq_true_iff.1 checked
  obtain rfl := of_decide_eq_true isPrint
  obtain ⟨outcome, after, step, pc⟩ := Machine.exists_of_steps? steps
  obtain ⟨-, -, -, prints⟩ := read_exact ⟨#[0xb2, 0x11, 0x94, 0x96, 0x45]⟩ 1
  obtain ⟨k, ends, stop⟩ := prints _ after instruction outcome next step
  exact ⟨outcome, after, k, step, of_decide_eq_true pc, ends, stop⟩

end StoryMachine
