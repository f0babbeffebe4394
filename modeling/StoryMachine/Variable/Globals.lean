import StoryMachine.Memory.Basic

/-!
# Global variables

A story has 240 global variables, kept as a table of words in memory.  `Globals`
is a copy of that table.  Setting a variable writes the word and the copy, and
after a write to memory that went past the copy, `refresh` reads again the cells
that the write touched.
-/

namespace StoryMachine

/-- The number of global variables. -/
def globalCount : Nat := 240

/-- A copy of the global variables. -/
structure Globals where
  /-- The address of the table. -/
  base : Nat
  /-- The values, in the order of the table. -/
  cells : Vector UInt16 globalCount
deriving DecidableEq

instance : Inhabited Globals := ⟨0, Vector.replicate globalCount 0⟩

namespace Globals

/-- The address of a cell. -/
def address (globals : Globals) (index : Nat) : Nat := globals.base + 2 * index

/-- The address after the table. -/
def stop (globals : Globals) : Nat := globals.address globalCount

/-- The table at `base`. -/
def load (memory : Memory) (base : Nat) : Except Error Globals := do
  let cells ← memory.getWords base globalCount
  return { base, cells }

/-- The error of an index past the table, which names the variable. -/
def noCell (index : UInt8) : Error := .invalidVariable (index.toUInt16 + 16)

/-- The value of a cell. -/
def get (globals : Globals) (index : UInt8) : Except Error UInt16 :=
  if h : index.toNat < globalCount then .ok globals.cells[index.toNat]
  else .error (noCell index)

/-- Sets a cell in memory and in the copy. -/
def set (globals : Globals) (index : UInt8) (value : UInt16) : Memory.Update Globals :=
  if h : index.toNat < globalCount then do
    Memory.setWord (globals.address index.toNat) value
    return { globals with cells := globals.cells.set index.toNat value }
  else throw (noCell index)

/-- Reads one cell again. -/
def reload (memory : Memory) (globals : Globals) (index : Nat) : Except Error Globals :=
  if h : index < globalCount then do
    let value ← memory.getWord (globals.address index)
    return { globals with cells := globals.cells.set index value }
  else .ok globals

/-- The indexes of the cells that meet the `count` bytes from `address` on. -/
def touched (globals : Globals) (address count : Nat) : List Nat :=
  if address + count ≤ globals.base ∨ globals.stop ≤ address then []
  else
    let first := (address - globals.base) / 2
    let last := (min (address + count - 1) (globals.stop - 1) - globals.base) / 2
    List.range' first (last + 1 - first)

/-- Reads again the cells that meet the `count` bytes from `address` on. -/
def refresh (globals : Globals) (memory : Memory) (address count : Nat) : Except Error Globals :=
  (globals.touched address count).foldlM (reload memory) globals

end Globals

end StoryMachine
