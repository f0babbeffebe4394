import StoryMachine.Object.Edit

/-!
# Moving objects in the tree

The children of an object are its first child and, from there on, each next
sibling.  Inserting an object puts it in front of the children of its new
parent, and does not take it out of the old one.  Removing an object closes the
gap it leaves among its siblings and keeps its own children.

The links are whatever bytes the story wrote, so a chain of siblings may loop.
A chain without repetition has no more members than the table, and the search
for a predecessor gives up after as many steps.
-/

namespace StoryMachine

/-- What a search along a chain of siblings finds. -/
inductive Predecessor where
  /-- The object whose next sibling is the one looked for. -/
  | found (number : UInt16)
  /-- The chain ends without it. -/
  | absent
  /-- The chain is longer than the table. -/
  | endless
deriving DecidableEq

/-- Looks for the predecessor of an object along the chain from `current` on,
asking at most `limit` objects. -/
def ObjectTable.predecessor (table : ObjectTable) (number : UInt16) :
    (limit : Nat) → (current : UInt16) → Except Error Predecessor
  | limit, current =>
      if current = 0 then .ok .absent
      else
        match limit with
        | 0 => .ok .endless
        | limit + 1 => do
            let next ← table.link .sibling current
            if next = number then return .found current
            else table.predecessor number limit next

namespace ObjectStore

/-- Puts an object in front of the children of another. -/
def insert (number destination : UInt16) : Edit Unit :=
  if number = 0 then throw (.invalidObject 0)
  else do
    let firstChild ← asking (·.link .child destination)
    setLink .parent number destination
    setLink .sibling number firstChild
    setLink .child destination number

/-- Closes the gap that `number` leaves among the children of `parent`, where
`sibling` is the object after it. -/
def unlink (parent number sibling : UInt16) : Edit Unit := do
  let first ← asking (·.link .child parent)
  if first = number then setLink .child parent sibling
  else
    match ← asking fun table => table.predecessor number table.size first with
    | .found before => setLink .sibling before sibling
    | .absent => pure ()
    | .endless => pure ()

/-- Takes an object out of its parent, if it has one. -/
def remove (number : UInt16) : Edit Unit := do
  let parent ← asking (·.link .parent number)
  if parent = 0 then pure ()
  else
    let sibling ← asking (·.link .sibling number)
    unlink parent number sibling
    setLink .parent number 0
    setLink .sibling number 0

end ObjectStore

/-! ## Notes -/

namespace ObjectTable

/-- The notes on an insertion: the link of object 0 to its first child is not
kept. -/
def insertNarration (table : ObjectTable) (number destination : UInt16) : List String :=
  if destination = 0 ∧ number ≠ 0 ∧ number.toNat ≤ table.size then
    [s!"ignoring {Link.child.label} update on object 0"]
  else []

/-- The parent whose children form no finite chain, when a removal finds that. -/
def endlessParent? (table : ObjectTable) (number : UInt16) : Option UInt16 :=
  match table.link .parent number with
  | .error _ => none
  | .ok parent =>
      match table.link .child parent with
      | .error _ => none
      | .ok first =>
          if parent = 0 ∨ first = number then none
          else
            match table.predecessor number table.size first with
            | .ok .endless => some parent
            | _ => none

/-- The notes on a removal. -/
def removeNarration (table : ObjectTable) (number : UInt16) : List String :=
  match table.endlessParent? number with
  | some parent =>
      [s!"remove_obj: sibling chain of object {Numeral.decimal 1 parent.toNat} does not end"]
  | none => []

end ObjectTable

end StoryMachine
