import StoryMachine.Memory.Basic
import StoryMachine.Proofs.Sequencing

/-!
# An image as its bytes

All that can be read from an image is told by `getByte`.  A word is two bytes
(`getWord_eq_ok`) and a slice is a list of bytes (`slice_eq_ok`), so two images
that agree on the bytes of a word or a slice agree on the word or the slice.

`SameOutside` is the frame condition of a write: the size stays, and so does
every byte outside the range that was written.  Each kind of write has one
lemma that gives its frame condition and what it wrote.
-/

namespace StoryMachine.Memory

/-! ## Reading -/

theorem getByte_eq_ok {memory : Memory} {address : Nat} {byte : UInt8} :
    memory.getByte address = .ok byte ↔ memory.bytes[address]? = some byte := by
  simp only [getByte]
  split
  next inside => simp [inside]
  next outside => simp [outside]

theorem lt_size_of_getByte {memory : Memory} {address : Nat} {byte : UInt8}
    (read : memory.getByte address = .ok byte) : address < memory.size := by
  simp only [getByte] at read
  split at read
  next inside => exact inside
  next => cases read

theorem exists_getByte {memory : Memory} {address : Nat} (inside : address < memory.size) :
    ∃ byte, memory.getByte address = .ok byte :=
  ⟨memory.bytes[address], by unfold getByte; exact dif_pos inside⟩

theorem getByte_of_size_le {memory : Memory} {address : Nat} (outside : memory.size ≤ address) :
    memory.getByte address = .error (.outOfBounds address memory.size) := by
  simp only [getByte]
  exact dif_neg (Nat.not_lt.2 outside)

/-- Reading a byte depends on the size of the image and on that byte alone. -/
theorem getByte_congr {memory other : Memory} {address : Nat} (size : other.size = memory.size)
    (byte : other.bytes[address]? = memory.bytes[address]?) :
    other.getByte address = memory.getByte address := by
  by_cases inside : address < memory.size
  · obtain ⟨value, read⟩ := exists_getByte inside
    rw [read]
    exact getByte_eq_ok.2 (byte.trans (getByte_eq_ok.1 read))
  · rw [getByte_of_size_le (Nat.not_lt.1 inside),
      getByte_of_size_le (size ▸ Nat.not_lt.1 inside), size]

/-- A word is the two bytes at its address. -/
theorem getWord_eq_ok {memory : Memory} {address : Nat} {word : UInt16} :
    memory.getWord address = .ok word ↔
      ∃ high low, memory.getByte address = .ok high ∧ memory.getByte (address + 1) = .ok low ∧
        wordOfBytes high low = word := by
  simp only [getWord]
  split
  next inside =>
    simp [getByte, inside, Nat.lt_of_succ_lt inside]
  next outside =>
    constructor
    · intro read
      cases read
    · rintro ⟨high, low, -, second, -⟩
      exact absurd (lt_size_of_getByte second) outside

theorem exists_getWord {memory : Memory} {address : Nat} (inside : address + 1 < memory.size) :
    ∃ word, memory.getWord address = .ok word := by
  obtain ⟨high, readHigh⟩ := exists_getByte (Nat.lt_of_succ_lt inside)
  obtain ⟨low, readLow⟩ := exists_getByte inside
  exact ⟨_, getWord_eq_ok.2 ⟨high, low, readHigh, readLow, rfl⟩⟩

theorem getWord_of_size_le {memory : Memory} {address : Nat}
    (outside : memory.size ≤ address + 1) :
    memory.getWord address = .error (.outOfBounds address memory.size) := by
  simp only [getWord]
  exact dif_neg (Nat.not_lt.2 outside)

/-- A slice is the list of the bytes in its range. -/
theorem slice_eq_ok {memory : Memory} {address count : Nat} {bytes : List UInt8} :
    memory.slice address count = .ok bytes ↔
      bytes.length = count ∧ address + count ≤ memory.size ∧
        ∀ i (h : i < bytes.length), memory.getByte (address + i) = .ok bytes[i] := by
  simp only [slice]
  split
  next inside =>
    constructor
    · intro read
      cases read
      refine ⟨by simp [size] at inside ⊢; omega, inside, ?_⟩
      intro i bound
      simp only [Array.length_toList, Array.size_extract] at bound
      rw [getByte_eq_ok]
      simp only [Array.getElem_toList, Array.getElem_extract]
      exact Array.getElem?_eq_getElem _
    · rintro ⟨rfl, -, reads⟩
      congr 1
      apply List.ext_getElem
      · simp [size] at inside ⊢
        omega
      · intro i bound bound'
        have read := getByte_eq_ok.1 (reads i bound')
        rw [Array.getElem_toList, Array.getElem_extract]
        exact Option.some.inj (by rw [← read, Array.getElem?_eq_getElem])
  next outside =>
    constructor
    · intro read
      cases read
    · rintro ⟨-, inside, -⟩
      exact absurd inside outside

theorem exists_slice {memory : Memory} {address count : Nat}
    (inside : address + count ≤ memory.size) : ∃ bytes, memory.slice address count = .ok bytes :=
  ⟨_, by unfold slice; exact if_pos inside⟩

theorem lt_size_of_getWord {memory : Memory} {address : Nat} {word : UInt16}
    (read : memory.getWord address = .ok word) : address + 1 < memory.size := by
  obtain ⟨_, _, -, low, -⟩ := getWord_eq_ok.1 read
  exact lt_size_of_getByte low

/-- Reading a slice depends on the size of the image and on its bytes alone. -/
theorem slice_congr {memory other : Memory} {address count : Nat}
    (size : other.size = memory.size)
    (bytes : ∀ i < count, other.getByte (address + i) = memory.getByte (address + i)) :
    other.slice address count = memory.slice address count := by
  by_cases inside : address + count ≤ memory.size
  · obtain ⟨found, read⟩ := exists_slice inside
    obtain ⟨length, -, reads⟩ := slice_eq_ok.1 read
    rw [read]
    refine slice_eq_ok.2 ⟨length, size ▸ inside, ?_⟩
    intro i h
    rw [bytes i (length ▸ h)]
    exact reads i h
  · simp only [slice, size, outOfBounds, if_neg inside]

/-- Words in a row can be read when the last of them lies in the image. -/
theorem exists_getWords {memory : Memory} {address : Nat} : ∀ {count : Nat},
    address + 2 * count ≤ memory.size → ∃ words, memory.getWords address count = .ok words
  | 0, _ => ⟨#v[], rfl⟩
  | count + 1, inside => by
      have before : address + 2 * count ≤ memory.size := by omega
      have last : address + 2 * count + 1 < memory.size := by omega
      obtain ⟨words, read⟩ := exists_getWords before
      obtain ⟨word, readLast⟩ := exists_getWord last
      refine ⟨words.push word, ?_⟩
      simp only [getWords, except_bind_eq_ok, except_pure_eq_ok]
      exact ⟨words, read, word, readLast, rfl⟩

/-- The cause of an access that leaves an image. -/
def Outside (memory : Memory) (cause : Error) : Prop :=
  ∃ address, cause = .outOfBounds address memory.size

theorem getByte_failsOnly (memory : Memory) (address : Nat) :
    FailsOnly memory.Outside (memory.getByte address) := by
  simp only [getByte]
  split
  next => exact .ok _
  next => exact FailsOnly.error.2 ⟨address, rfl⟩

theorem getWord_failsOnly (memory : Memory) (address : Nat) :
    FailsOnly memory.Outside (memory.getWord address) := by
  simp only [getWord]
  split
  next => exact .ok _
  next => exact FailsOnly.error.2 ⟨address, rfl⟩

/-! ## Bytes in a row -/

/-- The bytes from an address on are the given ones. -/
def Holds (memory : Memory) (address : Nat) (bytes : List UInt8) : Prop :=
  ∀ i (h : i < bytes.length), memory.getByte (address + i) = .ok bytes[i]

instance (memory : Memory) (address : Nat) (bytes : List UInt8) :
    Decidable (memory.Holds address bytes) :=
  decidable_of_iff (∀ i (h : i < bytes.length), memory.bytes[address + i]? = some bytes[i])
    (forall_congr' fun _ => forall_congr' fun _ => getByte_eq_ok.symm)

namespace Holds

variable {memory : Memory} {address : Nat}

@[simp] theorem nil : memory.Holds address [] := fun i h => absurd h (Nat.not_lt_zero i)

@[simp] theorem cons {byte : UInt8} {bytes : List UInt8} :
    memory.Holds address (byte :: bytes) ↔
      memory.getByte address = .ok byte ∧ memory.Holds (address + 1) bytes := by
  constructor
  · intro holds
    refine ⟨holds 0 (Nat.zero_lt_succ _), ?_⟩
    intro i h
    rw [Nat.add_assoc, Nat.add_comm 1 i]
    exact holds (i + 1) (Nat.succ_lt_succ h)
  · rintro ⟨first, rest⟩ i h
    cases i with
    | zero => exact first
    | succ i =>
        have later := rest i (Nat.lt_of_succ_lt_succ h)
        rw [Nat.add_assoc, Nat.add_comm 1 i] at later
        exact later

theorem append {bytes more : List UInt8} :
    memory.Holds address (bytes ++ more) ↔
      memory.Holds address bytes ∧ memory.Holds (address + bytes.length) more := by
  induction bytes generalizing address with
  | nil => simp
  | cons byte bytes ih =>
      rw [List.cons_append, cons, ih, cons, and_assoc, List.length_cons, Nat.add_assoc,
        Nat.add_comm 1]

theorem le_size {bytes : List UInt8} (holds : memory.Holds address bytes) (nonempty : bytes ≠ []) :
    address + bytes.length ≤ memory.size := by
  have positive := List.length_pos_iff.2 nonempty
  have last := lt_size_of_getByte (holds (bytes.length - 1) (by omega))
  omega

end Holds

/-! ## Frame conditions -/

/-- An image has the size of another and the same bytes outside a range. -/
structure SameOutside (memory written : Memory) (address count : Nat) : Prop where
  /-- The size stays. -/
  size : written.size = memory.size
  /-- Bytes before and after the range stay. -/
  getByte : ∀ x, x < address ∨ address + count ≤ x → written.getByte x = memory.getByte x

namespace SameOutside

variable {memory written last : Memory} {address count x n : Nat}

theorem refl (memory : Memory) (address count : Nat) : SameOutside memory memory address count :=
  ⟨rfl, fun _ _ => rfl⟩

theorem trans (first : SameOutside memory written address count)
    (second : SameOutside written last address count) : SameOutside memory last address count :=
  ⟨second.size.trans first.size, fun x outside =>
    (second.getByte x outside).trans (first.getByte x outside)⟩

/-- A frame condition holds of every larger range. -/
theorem mono {other length : Nat} (frame : SameOutside memory written address count)
    (start : other ≤ address) (stop : address + count ≤ other + length) :
    SameOutside memory written other length :=
  ⟨frame.size, fun x outside => frame.getByte x (by omega)⟩

theorem getWord_eq_ok (frame : SameOutside memory written address count) {word : UInt16}
    (outside : x + 2 ≤ address ∨ address + count ≤ x) (read : memory.getWord x = .ok word) :
    written.getWord x = .ok word := by
  rw [Memory.getWord_eq_ok] at read ⊢
  rw [frame.getByte x (by omega), frame.getByte (x + 1) (by omega)]
  exact read

theorem slice_eq_ok (frame : SameOutside memory written address count) {bytes : List UInt8}
    (outside : x + n ≤ address ∨ address + count ≤ x) (read : memory.slice x n = .ok bytes) :
    written.slice x n = .ok bytes := by
  rw [Memory.slice_eq_ok] at read ⊢
  obtain ⟨length, inside, reads⟩ := read
  refine ⟨length, frame.size ▸ inside, ?_⟩
  intro i bound
  rw [frame.getByte (x + i) (by omega)]
  exact reads i bound

end SameOutside

/-! ## Writing -/

theorem setByte_eq_ok {memory written : Memory} {address : Nat} {value : UInt8}
    (write : setByte address value memory = .ok () written) :
    memory.SameOutside written address 1 ∧ written.getByte address = .ok value := by
  simp only [setByte] at write
  split at write
  next inside =>
    cases write
    refine ⟨⟨by simp [size], ?_⟩, by rw [getByte_eq_ok]; simp [inside]⟩
    intro x outside
    have other : address ≠ x := by omega
    exact getByte_congr (by simp [size]) (Array.getElem?_set_ne inside other)
  next => cases write

/-- A byte that cannot be written leaves the image as it was. -/
theorem setByte_eq_error {memory written : Memory} {address : Nat} {value : UInt8} {e : Error}
    (write : setByte address value memory = .error e written) : written = memory := by
  simp only [setByte] at write
  split at write
  next => cases write
  next =>
    cases write
    rfl

theorem exists_setByte {memory : Memory} {address : Nat} (value : UInt8)
    (inside : address < memory.size) : ∃ written, setByte address value memory = .ok () written :=
  ⟨_, by unfold setByte; exact dif_pos inside⟩

theorem setWord_eq_ok {memory written : Memory} {address : Nat} {value : UInt16}
    (write : setWord address value memory = .ok () written) :
    memory.SameOutside written address 2 ∧ written.getByte address = .ok (highByte value) ∧
      written.getByte (address + 1) = .ok (lowByte value) := by
  simp only [setWord] at write
  split at write
  next inside =>
    cases write
    have first : address < memory.bytes.size := by omega
    refine ⟨⟨by simp [size], ?_⟩, ?_, ?_⟩
    · intro x outside
      have other : address ≠ x := by omega
      have other' : address + 1 ≠ x := by omega
      apply getByte_congr (by simp [size])
      rw [Array.getElem?_set_ne _ other', Array.getElem?_set_ne _ other]
    · rw [getByte_eq_ok]
      simp [first, Array.getElem_set_ne]
    · rw [getByte_eq_ok]
      simp [inside]
  next => cases write

/-- A word is written as a whole or not at all. -/
theorem setWord_eq_error {memory written : Memory} {address : Nat} {value : UInt16} {e : Error}
    (write : setWord address value memory = .error e written) : written = memory := by
  simp only [setWord] at write
  split at write
  next => cases write
  next =>
    cases write
    rfl

theorem exists_setWord {memory : Memory} {address : Nat} (value : UInt16)
    (inside : address + 1 < memory.size) :
    ∃ written, setWord address value memory = .ok () written :=
  ⟨_, by unfold setWord; exact dif_pos inside⟩

/-- A word that was written is read back. -/
theorem getWord_of_setWord {memory written : Memory} {address : Nat} {value : UInt16}
    (write : setWord address value memory = .ok () written) :
    written.getWord address = .ok value := by
  obtain ⟨-, high, low⟩ := setWord_eq_ok write
  exact getWord_eq_ok.2 ⟨_, _, high, low, wordOfBytes_highByte_lowByte value⟩

/-- Bytes written one after the other fill their range and nothing else. -/
theorem setBytes_eq_ok : ∀ {bytes : List UInt8} {address : Nat} {memory written : Memory},
    setBytes address bytes memory = .ok () written →
      memory.SameOutside written address bytes.length ∧
      ∀ i (h : i < bytes.length), written.getByte (address + i) = .ok bytes[i]
  | [], address, memory, written, write => by
      cases write
      exact ⟨.refl _ _ _, fun i h => absurd h (Nat.not_lt_zero i)⟩
  | byte :: rest, address, memory, written, write => by
      simp only [setBytes, bind_eq_ok] at write
      obtain ⟨_, middle, first, others⟩ := write
      obtain ⟨frame, read⟩ := setByte_eq_ok first
      obtain ⟨frames, reads⟩ := setBytes_eq_ok others
      simp only [List.length_cons]
      refine ⟨(frame.mono (by omega) (by omega)).trans (frames.mono (by omega) (by omega)), ?_⟩
      intro i h
      cases i with
      | zero =>
          rw [frames.getByte _ (by omega)]
          exact read
      | succ i =>
          have later := reads i (by omega)
          rw [Nat.add_assoc, Nat.add_comm 1 i] at later
          exact later

@[simp] theorem reading_eq_ok {α : Type} {read : Memory → Except Error α} {a : α}
    {memory written : Memory} :
    Update.reading read memory = .ok a written ↔ read memory = .ok a ∧ written = memory := by
  simp only [Update.reading]
  cases read memory with
  | ok b => simp [eq_comm]
  | error e => simp

/-! ## The size -/

/-- A change of the image that keeps its size, whether it succeeds or fails. -/
def Update.KeepsSize {α : Type} (update : Update α) : Prop :=
  ∀ memory, (leaves update memory).size = memory.size

namespace Update.KeepsSize

variable {α β : Type}

theorem bind {first : Update α} {next : α → Update β} (keeps : KeepsSize first)
    (rest : ∀ a, KeepsSize (next a)) : KeepsSize (first >>= next) := by
  intro memory
  rcases leaves_bind first next memory with same | ⟨a, same⟩
  · rw [same]
    exact keeps memory
  · rw [same]
    exact (rest a _).trans (keeps memory)

theorem pure (a : α) : KeepsSize (Pure.pure a) := fun _ => rfl

theorem reading (read : Memory → Except Error α) : KeepsSize (Update.reading read) := by
  intro memory
  cases answer : read memory with
  | ok a => simp only [leaves, Update.reading, answer]
  | error e => simp only [leaves, Update.reading, answer]

theorem setByte (address : Nat) (value : UInt8) : KeepsSize (setByte address value) := by
  intro memory
  cases write : Memory.setByte address value memory with
  | ok u written => rw [leaves_of_ok write, (setByte_eq_ok write).1.size]
  | error e written => rw [leaves_of_error write, setByte_eq_error write]

theorem setWord (address : Nat) (value : UInt16) : KeepsSize (setWord address value) := by
  intro memory
  cases write : Memory.setWord address value memory with
  | ok u written => rw [leaves_of_ok write, (setWord_eq_ok write).1.size]
  | error e written => rw [leaves_of_error write, setWord_eq_error write]

theorem setBytes : ∀ (address : Nat) (bytes : List UInt8), KeepsSize (setBytes address bytes)
  | _, [] => pure ()
  | address, byte :: rest => bind (setByte address byte) fun _ => setBytes (address + 1) rest

end Update.KeepsSize

end StoryMachine.Memory
