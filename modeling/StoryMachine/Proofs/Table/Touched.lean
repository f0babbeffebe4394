import StoryMachine.Proofs.Table.Bounds

/-!
# The cells that a refresh reads again

Cells take two bytes each, and a range of bytes may begin or end in the middle of one,
before the table or behind it.  A refresh reads a cell again exactly when one of its two
bytes lies in the range (`mem_touched`).  So it asks for no cell past the table, and in a
table that lies inside the image every word it asks for is there.

The range has at least one byte.  An empty one in the middle of a cell would still have
that cell read.
-/

namespace StoryMachine.Globals

variable {globals : Globals} {address count : Nat}

/-- One of the two bytes of a cell is among the `count` bytes from `address` on. -/
def Meets (globals : Globals) (address count i : Nat) : Prop :=
  ∃ x, address ≤ x ∧ x < address + count ∧
    globals.address i ≤ x ∧ x < globals.address i + 2

/-- Two ranges that have bytes share one exactly when each begins before the other ends. -/
theorem meets_iff (positive : 0 < count) {i : Nat} :
    globals.Meets address count i ↔
      address < globals.address i + 2 ∧ globals.address i < address + count := by
  constructor
  · rintro ⟨x, first, last, cellFirst, cellLast⟩
    omega
  · rintro ⟨before, behind⟩
    exact ⟨max address (globals.address i), by omega, by omega, by omega, by omega⟩

/-- A range touches the cells of the table that it meets, and no others. -/
theorem mem_touched (positive : 0 < count) {i : Nat} :
    i ∈ globals.touched address count ↔ i < globalCount ∧ globals.Meets address count i := by
  rw [meets_iff positive]
  simp only [touched]
  split
  next outside =>
    simp only [stop, Globals.address, globalCount] at outside ⊢
    constructor
    · intro none
      exact absurd none List.not_mem_nil
    · omega
  next inside =>
    simp only [List.mem_range'_1, stop, Globals.address, globalCount] at inside ⊢
    omega

/-- No byte lies in an empty range, and yet one in the middle of a cell touches it. -/
example : (default : Globals).touched 1 0 = [0] := by decide

/-- A refresh of a table that lies inside the image succeeds.  It gives its word to each
cell that the range meets and leaves the others. -/
theorem exists_refresh_cells {memory : Memory} (within : globals.region.Within memory.size)
    (positive : 0 < count) :
    ∃ refreshed, globals.refresh memory address count = .ok refreshed ∧
      refreshed.base = globals.base ∧ ∀ i (h : i < globalCount),
        (globals.Meets address count i →
          memory.getWord (globals.address i) = .ok refreshed.cells[i]) ∧
        (¬globals.Meets address count i → refreshed.cells[i] = globals.cells[i]) := by
  obtain ⟨refreshed, run, -⟩ := exists_refresh within address count
  obtain ⟨base, cells⟩ := foldlM_reload_eq_ok run
  refine ⟨refreshed, run, base, ?_⟩
  intro i h
  have touched : i ∈ globals.touched address count ↔ i < globalCount ∧ _ := mem_touched positive
  rcases cells i h with ⟨member, read⟩ | ⟨untouched, kept⟩
  · exact ⟨fun _ => read, fun apart => absurd (touched.1 member).2 apart⟩
  · exact ⟨fun meets => absurd (touched.2 ⟨h, meets⟩) untouched, fun _ => kept⟩

/-- A refresh is exact.  Take a table of global variables where one was loaded, whatever
its cells hold by now, and any image of the same size.  After a write of at least one byte,
wherever it lies, the cells that are read again are those of the 240 that have a byte in the
range.  Each of them gets its word, and every other cell stays as it was. -/
theorem refresh_exact {memory later : Memory} {base : Nat} {loaded : Globals}
    (isLoaded : load memory base = .ok loaded) (sameBase : globals.base = loaded.base)
    (sameSize : later.size = memory.size) (address : Nat) (positive : 0 < count) :
    (∀ i, i ∈ globals.touched address count ↔ i < globalCount ∧ globals.Meets address count i) ∧
    ∃ refreshed, globals.refresh later address count = .ok refreshed ∧
      refreshed.base = globals.base ∧ ∀ i (h : i < globalCount),
        (globals.Meets address count i →
          later.getWord (globals.base + 2 * i) = .ok refreshed.cells[i]) ∧
        (¬globals.Meets address count i → refreshed.cells[i] = globals.cells[i]) := by
  have within : globals.region.Within later.size := by
    rw [sameSize, region, sameBase]
    exact (load_agrees isLoaded).within
  exact ⟨fun i => mem_touched positive, exists_refresh_cells within positive⟩

/-- An image of 486 bytes, all with the same value.  From address 4 on it has room for the
table and two bytes more. -/
def uniform (byte : UInt8) : Memory := { bytes := Array.replicate 486 byte }

theorem getWord_uniform (byte : UInt8) {address : Nat} (inside : address + 1 < 486) :
    (uniform byte).getWord address = .ok (wordOfBytes byte byte) := by
  have bound : address + 1 < (uniform byte).bytes.size := by simpa [uniform] using inside
  rw [Memory.getWord, dif_pos bound]
  simp [uniform]

/-- A range that begins in the low byte of cell 1 and ends in the high byte of cell 3. -/
theorem refresh_exact_sample : ∃ loaded refreshed : Globals,
    load (uniform 0) 4 = .ok loaded ∧ loaded.refresh (uniform 7) 7 4 = .ok refreshed ∧
      refreshed.cells[0] = 0 ∧ refreshed.cells[1] = 0x0707 ∧ refreshed.cells[3] = 0x0707 ∧
      refreshed.cells[4] = 0 := by
  have checked : ((load (uniform 0) 4).toOption.any fun loaded =>
      loaded.base = 4 ∧ loaded.cells[0] = 0 ∧ loaded.cells[4] = 0) = true := by
    decide +kernel
  obtain ⟨loaded, isLoaded, checked⟩ := exists_of_toOption_any checked
  obtain ⟨base, first, last⟩ := of_decide_eq_true checked
  have sizes : (uniform 7).size = (uniform 0).size := by simp [uniform, Memory.size]
  obtain ⟨-, refreshed, run, -, cells⟩ :=
    refresh_exact isLoaded rfl sizes 7 (show 0 < 4 by decide)
  have meets (i : Nat) := @meets_iff loaded 7 4 (by decide) i
  simp only [Globals.address, base] at meets
  simp only [base, meets] at cells
  have reread {i : Nat} (h : i < globalCount) (touched : 7 < 4 + 2 * i + 2 ∧ 4 + 2 * i < 7 + 4) :
      refreshed.cells[i] = 0x0707 := by
    have read := (cells i h).1 touched
    rw [getWord_uniform 7 (by omega)] at read
    exact (Except.ok.inj read).symm
  refine ⟨loaded, refreshed, isLoaded, run, ?_, ?_, ?_, ?_⟩
  · exact ((cells 0 (by decide)).2 (by decide)).trans first
  · exact reread (by decide) (by decide)
  · exact reread (by decide) (by decide)
  · exact ((cells 4 (by decide)).2 (by decide)).trans last

end StoryMachine.Globals
