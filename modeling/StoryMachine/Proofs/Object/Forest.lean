import Mathlib.Data.List.Perm.Subperm
import StoryMachine.Proofs.Object.Edit
import StoryMachine.Proofs.Object.Links
import StoryMachine.Proofs.Table.Mirror

/-!
# Moving objects keeps the object tree

An object store is well-formed when its copy agrees with memory and its links
form a forest.  Removing any object succeeds, and so does inserting an object
that has no parent into one that does not lie inside it.  Both leave the store
well-formed: an insertion puts the object in front of one chain of children, a
removal erases it from one, and all other chains stay.
-/

namespace StoryMachine

namespace ObjectTable

variable {table : ObjectTable} {link : Link} {number : UInt16}

/-- Where a link of an object leads, 0 if there is no such object. -/
def follow (table : ObjectTable) : Links :=
  fun link number => (table.link link number).toOption.getD 0

theorem follow_zero : table.follow link 0 = 0 := by
  cases link with
  | parent => rfl
  | sibling => rfl
  | child => rfl

theorem link_of_lt (nonzero : number ≠ 0) (h : number.toNat - 1 < table.objects.size) :
    table.link link number = .ok (table.objects[number.toNat - 1].link link).toUInt16 := by
  rw [ObjectTable.link, (object_eq_ok nonzero).2 ⟨h, rfl⟩]
  rfl

theorem follow_of_lt (nonzero : number ≠ 0) (h : number.toNat - 1 < table.objects.size) :
    table.follow link number = (table.objects[number.toNat - 1].link link).toUInt16 := by
  rw [follow, link_of_lt nonzero h]
  rfl

theorem follow_of_le (nonzero : number ≠ 0) (h : table.objects.size ≤ number.toNat - 1) :
    table.follow link number = 0 := by
  have none : table.objects[number.toNat - 1]? = none := Array.getElem?_eq_none h
  simp [follow, ObjectTable.link, ObjectTable.object, nonzero, none, bind, Except.bind,
    Except.toOption]

/-- Every link of an object of the table can be asked for. -/
theorem link_eq_follow (inside : number.toNat ≤ table.size) :
    table.link link number = .ok (table.follow link number) := by
  by_cases nonzero : number = 0
  · subst nonzero
    cases link with
    | parent => rfl
    | sibling => rfl
    | child => rfl
  · obtain ⟨k, number_eq⟩ := exists_toNat_eq_succ nonzero
    have h : number.toNat - 1 < table.objects.size := by
      simp only [size] at inside
      omega
    rw [link_of_lt nonzero h, follow_of_lt nonzero h]

/-- No link leads past a number when no link of an object of the table does. -/
theorem follow_le_of_forall_mem {bound : Nat}
    (inside : ∀ object ∈ table.objects.toList, object.parent.toNat ≤ bound ∧
      object.sibling.toNat ≤ bound ∧ object.child.toNat ≤ bound) :
    ∀ link k, (table.follow link k).toNat ≤ bound := by
  intro link k
  by_cases zero : k = 0
  · rw [zero, follow_zero]
    exact Nat.zero_le _
  · by_cases h : k.toNat - 1 < table.objects.size
    · rw [follow_of_lt zero h, UInt8.toNat_toUInt16]
      obtain ⟨parent, sibling, child⟩ := inside table.objects[k.toNat - 1] (by simp)
      cases link with
      | parent => exact parent
      | sibling => exact sibling
      | child => exact child
    · rw [follow_of_le zero (Nat.not_lt.1 h)]
      exact Nat.zero_le _

end ObjectTable

namespace ObjectStore

variable {store : ObjectStore} {size : Nat} {links : Links}

/-- A store has `size` objects with the given links, in the copy and in memory. -/
structure Represents (store : ObjectStore) (size : Nat) (links : Links) : Prop where
  agrees : store.table.RecordsAgree store.memory
  size_eq : store.table.size = size
  size_le : size ≤ ObjectTable.capacity
  follow : store.table.follow = links

theorem follow_modify {table : ObjectTable} {link : Link} {number target : UInt16}
    (nonzero : number ≠ 0) (inside : number.toNat ≤ table.size) (small : target.toNat < 256) :
    ({ table with
      objects := table.objects.modify (number.toNat - 1)
        (·.withLink link (lowByte target)) } : ObjectTable).follow =
      table.follow.set link number target := by
  have byte : (lowByte target).toUInt16 = target := by
    apply UInt16.toNat_inj.1
    rw [UInt8.toNat_toUInt16, toNat_lowByte, Nat.mod_eq_of_lt small]
  obtain ⟨_, number_eq⟩ := exists_toNat_eq_succ nonzero
  simp only [ObjectTable.size] at inside
  funext other k
  by_cases equal : k = number
  · subst equal
    have h : k.toNat - 1 < table.objects.size := by omega
    rw [ObjectTable.follow_of_lt nonzero (by simpa using h)]
    simp only [Array.getElem_modify_self]
    by_cases same : other = link
    · subst same
      rw [Links.set_self, Function.update_self]
      cases other with
      | parent => exact byte
      | sibling => exact byte
      | child => exact byte
    · rw [Links.set_of_ne same, ObjectTable.follow_of_lt nonzero h]
      revert same
      cases other <;> cases link <;> simp [Object.withLink, Object.link]
  · rw [Links.set_apply_of_ne equal]
    by_cases zero : k = 0
    · subst zero
      rw [ObjectTable.follow_zero, ObjectTable.follow_zero]
    · obtain ⟨_, k_eq⟩ := exists_toNat_eq_succ zero
      by_cases h : k.toNat - 1 < table.objects.size
      · have different : number.toNat - 1 ≠ k.toNat - 1 := by
          intro same
          exact equal (UInt16.toNat_inj.1 (by omega))
        rw [ObjectTable.follow_of_lt zero (by simpa using h), ObjectTable.follow_of_lt zero h]
        simp only [Array.getElem_modify_of_ne different]
      · rw [ObjectTable.follow_of_le zero (by simpa using Nat.not_lt.1 h),
          ObjectTable.follow_of_le zero (Nat.not_lt.1 h)]

/-- Setting a link of one object to another succeeds. -/
theorem Represents.setLink (represents : store.Represents size links) (link : Link)
    {number target : UInt16} (nonzero : number ≠ 0) (inside : number.toNat ≤ size)
    (targetInside : target.toNat ≤ size) :
    ∃ edited, setLink link number target store = .ok () edited ∧
      edited.Represents size (links.set link number target) := by
  obtain ⟨agrees, rfl, small, rfl⟩ := represents
  obtain ⟨k, number_eq⟩ := exists_toNat_eq_succ nonzero
  have h : k < store.table.objects.size := by
    simp only [ObjectTable.size] at inside
    omega
  have place : store.table.record number.toNat = store.table.record (k + 1) := by rw [number_eq]
  obtain ⟨memory, write⟩ := Memory.exists_setByte (lowByte target)
    (Memory.lt_size_of_getByte ((agrees k h).links link))
  rw [← place] at write
  refine ⟨_, setLink_eq_ok.2 (.inr ⟨nonzero, targetInside, inside, memory, write, rfl⟩),
    ?_, ?_, small, follow_modify nonzero inside ?_⟩
  · obtain ⟨frame, byte⟩ := Memory.setByte_eq_ok write
    rw [place] at frame byte
    have offset : link.offset < recordLength := by cases link <;> decide
    simp only [number_eq, Nat.add_sub_cancel]
    exact agrees.modify offset frame fun h => (agrees k h).withLink frame byte
  · simp [ObjectTable.size]
  · simp only [ObjectTable.capacity] at small
    omega

theorem Represents.link_eq (represents : store.Represents size links) {number : UInt16}
    (inside : number.toNat ≤ size) (link : Link) :
    store.table.link link number = .ok (links link number) := by
  obtain ⟨-, rfl, -, rfl⟩ := represents
  exact ObjectTable.link_eq_follow inside

theorem Represents.asking_link (represents : store.Represents size links) {number : UInt16}
    (inside : number.toNat ≤ size) (link : Link) :
    asking (·.link link number) store = .ok (links link number) store :=
  asking_eq_ok.2 ⟨represents.link_eq inside link, rfl⟩

/-! ## Inserting -/

/-- Inserting an object succeeds and sets three links. -/
theorem Represents.insert (represents : store.Represents size links)
    (forest : links.Forest size) {number destination : UInt16} (nonzero : number ≠ 0)
    (inside : number.toNat ≤ size) (destinationNonzero : destination ≠ 0)
    (destinationInside : destination.toNat ≤ size) :
    ∃ edited, insert number destination store = .ok () edited ∧
      edited.Represents size (links.inserted number destination) := by
  obtain ⟨first, setParent, represents₁⟩ :=
    represents.setLink .parent nonzero inside destinationInside
  obtain ⟨second, setSibling, represents₂⟩ :=
    represents₁.setLink .sibling nonzero inside (forest.bounded .child destination)
  obtain ⟨edited, setChild, represents₃⟩ :=
    represents₂.setLink .child destinationNonzero destinationInside inside
  refine ⟨edited, ?_, represents₃⟩
  rw [ObjectStore.insert, if_neg nonzero]
  exact bind_eq_ok.2 ⟨_, store, represents.asking_link destinationInside .child,
    bind_eq_ok.2 ⟨(), first, setParent, bind_eq_ok.2 ⟨(), second, setSibling, setChild⟩⟩⟩

/-! ## Removing -/

/-- The search for the predecessor of an object further on in a walk finds it, if
it may ask as many objects as the walk meets. -/
theorem Represents.predecessor (represents : store.Represents size links) {number : UInt16}
    {members : List UInt16} :
    ∀ {limit : Nat} {current : UInt16}, Walk (links .sibling) current members →
      (∀ k ∈ members, k.toNat ≤ size) → number ∈ members → current ≠ number →
      members.length ≤ limit →
      ∃ before ∈ members, links .sibling before = number ∧
        store.table.predecessor number limit current = .ok (.found before) := by
  intro limit current walk
  induction walk generalizing limit with
  | stop =>
      intro _ member
      cases member
  | @step current rest nonzero walk ih =>
      intro inside member different enough
      obtain ⟨limit, rfl⟩ : ∃ n, limit = n + 1 :=
        Nat.exists_eq_succ_of_ne_zero (by simp at enough; omega)
      have member := (List.mem_cons.1 member).resolve_left (Ne.symm different)
      simp only [ObjectTable.predecessor]
      rw [if_neg nonzero]
      simp only [represents.link_eq (inside current (.head _)) .sibling]
      by_cases found : links .sibling current = number
      · refine ⟨current, .head _, found, ?_⟩
        simp [bind, Except.bind, found, pure, Except.pure]
      · obtain ⟨before, beforeMember, leads, search⟩ := ih (fun k h => inside k (.tail _ h)) member
          found (Nat.le_of_succ_le_succ enough)
        refine ⟨before, .tail _ beforeMember, leads, ?_⟩
        simp [bind, Except.bind, found, search]

theorem length_le_of_forall_mem {members : List UInt16} (distinct : members.Nodup)
    (inside : ∀ k ∈ members, k ≠ 0 ∧ k.toNat ≤ size) : members.length ≤ size := by
  have subset : members.map UInt16.toNat ⊆ List.range' 1 size := by
    intro n member
    obtain ⟨k, kMember, rfl⟩ := List.mem_map.1 member
    obtain ⟨nonzero, bound⟩ := inside k kMember
    obtain ⟨_, k_eq⟩ := exists_toNat_eq_succ nonzero
    rw [List.mem_range'_1]
    omega
  have distinct := distinct.map fun _ _ => UInt16.toNat_inj.1
  simpa using (distinct.subperm subset).length_le

/-- Closing the gap that an object leaves succeeds: either it is the first child,
or its predecessor is found. -/
theorem Represents.unlink (represents : store.Represents size links)
    (forest : links.Forest size) {number : UInt16} (nonzero : number ≠ 0)
    (inside : number.toNat ≤ size) (parentNonzero : links .parent number ≠ 0) :
    ∃ edited, ∃ changed,
      unlink (links .parent number) number (links .sibling number) store = .ok () edited ∧
      edited.Represents size changed ∧
      ((links .child (links .parent number) = number ∧
          changed = links.set .child (links .parent number) (links .sibling number)) ∨
        ∃ before, before ≠ 0 ∧ before.toNat ≤ size ∧ links .sibling before = number ∧
          links .parent before = links .parent number ∧
          changed = links.set .sibling before (links .sibling number)) := by
  have parentInside := forest.bounded .parent number
  have asked := represents.asking_link parentInside .child
  by_cases first : links .child (links .parent number) = number
  · obtain ⟨edited, set, represents'⟩ :=
      represents.setLink .child parentNonzero parentInside (forest.bounded .sibling number)
    refine ⟨edited, _, bind_eq_ok.2 ⟨_, store, asked, ?_⟩, represents', .inl ⟨first, rfl⟩⟩
    rw [if_pos first]
    exact set
  · obtain ⟨members, chain, distinct, known⟩ :=
      forest.chains _ parentNonzero parentInside
    have bounds : ∀ k ∈ members, k ≠ 0 ∧ k.toNat ≤ size :=
      fun k member => ⟨((known k).1 member).1, ((known k).1 member).2.1⟩
    obtain ⟨before, member, leads, search⟩ := represents.predecessor chain
      (fun k member => (bounds k member).2) ((known number).2 ⟨nonzero, inside, rfl⟩) first
      (length_le_of_forall_mem distinct bounds)
    obtain ⟨beforeNonzero, beforeInside, sameParent⟩ := (known before).1 member
    obtain ⟨edited, set, represents'⟩ :=
      represents.setLink .sibling beforeNonzero beforeInside (forest.bounded .sibling number)
    refine ⟨edited, _, bind_eq_ok.2 ⟨_, store, asked, ?_⟩, represents',
      .inr ⟨before, beforeNonzero, beforeInside, leads, sameParent, rfl⟩⟩
    rw [if_neg first]
    rw [← represents.size_eq] at search
    exact bind_eq_ok.2 ⟨.found before, store, asking_eq_ok.2 ⟨search, rfl⟩, set⟩

/-- Removing an object succeeds, and erases it from the chains. -/
theorem Represents.remove (represents : store.Represents size links)
    (forest : links.Forest size) {number : UInt16} (inside : number.toNat ≤ size) :
    ∃ edited, ∃ changed, remove number store = .ok () edited ∧
      edited.Represents size changed ∧ changed.Forest size ∧
      ∀ {parent members}, parent ≠ 0 → parent.toNat ≤ size →
        links.Chain parent members → changed.Chain parent (members.erase number) := by
  have askParent := represents.asking_link inside .parent
  have askSibling := represents.asking_link inside .sibling
  by_cases free : links .parent number = 0
  · refine ⟨store, links, bind_eq_ok.2 ⟨_, store, askParent, ?_⟩, represents, forest, ?_⟩
    · rw [if_pos free]
      rfl
    · intro parent members nonzero parentInside chain
      have absent := forest.not_mem_chain (free ▸ Ne.symm nonzero) nonzero parentInside chain
      rw [List.erase_of_not_mem absent]
      exact chain
  · have nonzero : number ≠ 0 := by
      rintro rfl
      rw [← represents.follow, ObjectTable.follow_zero] at free
      exact free rfl
    have zeroInside : (0 : UInt16).toNat ≤ size := Nat.zero_le _
    obtain ⟨first, changed, gap, represents₁, cases⟩ :=
      represents.unlink forest nonzero inside free
    obtain ⟨second, setParent, represents₂⟩ :=
      represents₁.setLink .parent nonzero inside zeroInside
    obtain ⟨edited, setSibling, represents₃⟩ :=
      represents₂.setLink .sibling nonzero inside zeroInside
    have chains : ∀ {parent members}, parent ≠ 0 → parent.toNat ≤ size →
        links.Chain parent members →
        ((changed.set .parent number 0).set .sibling number 0).Chain parent
          (members.erase number) := by
      intro parent members parentNonzero parentInside chain
      rcases cases with ⟨isFirst, rfl⟩ | ⟨before, beforeNonzero, beforeInside, leads, same, rfl⟩
      · exact forest.chain_removedFirst nonzero isFirst parentNonzero parentInside chain
      · exact forest.chain_removedAfter nonzero beforeNonzero beforeInside leads same
          parentNonzero parentInside chain
    have bounded : ∀ link k, (changed link k).toNat ≤ size := by
      rcases cases with ⟨-, rfl⟩ | ⟨_, -, -, -, -, rfl⟩
      · exact Links.bounded_set forest.bounded (forest.bounded .sibling number)
      · exact Links.bounded_set forest.bounded (forest.bounded .sibling number)
    have parents : changed .parent = links .parent := by
      rcases cases with ⟨-, rfl⟩ | ⟨_, -, -, -, -, rfl⟩
      · simp
      · simp
    refine ⟨edited, _, bind_eq_ok.2 ⟨_, store, askParent, ?_⟩, represents₃,
      forest.of_erased (Links.bounded_set (Links.bounded_set bounded zeroInside) zeroInside) ?_
        chains, chains⟩
    · rw [if_neg free]
      exact bind_eq_ok.2 ⟨_, store, askSibling, bind_eq_ok.2 ⟨(), first, gap,
        bind_eq_ok.2 ⟨(), second, setParent, setSibling⟩⟩⟩
    · simp [parents]

/-! ## Moves -/

/-- A store whose copy agrees with memory and whose links form a forest. -/
structure WellFormed (store : ObjectStore) : Prop where
  agrees : store.table.RecordsAgree store.memory
  size_le : store.table.size ≤ ObjectTable.capacity
  forest : store.table.follow.Forest store.table.size

/-- A loaded table is well-formed as soon as its links form a forest. -/
theorem WellFormed.of_load {memory : Memory} {base : Nat} {abbreviations : Abbreviations}
    {table : ObjectTable} (loaded : ObjectTable.load memory base abbreviations = .ok table)
    (forest : table.follow.Forest table.size) : WellFormed { memory, table } := by
  obtain ⟨agrees, -, small⟩ := ObjectTable.load_agrees loaded
  exact ⟨agrees.recordsAgree, small, forest⟩

/-- A change of the tree. -/
inductive Move where
  | remove (number : UInt16)
  | insert (number destination : UInt16)

/-- The edit that makes a change. -/
def Move.run : Move → Edit Unit
  | .remove number => ObjectStore.remove number
  | .insert number destination => ObjectStore.insert number destination

/-- Any object may be removed.  An object without a parent may be inserted into
one that is not itself and does not lie inside it. -/
def Move.Allowed (table : ObjectTable) : Move → Prop
  | .remove number => number.toNat ≤ table.size
  | .insert number destination =>
      table.follow .parent number = 0 ∧ number ≠ 0 ∧ number.toNat ≤ table.size ∧
      destination ≠ 0 ∧ destination.toNat ≤ table.size ∧ destination ≠ number ∧
      ¬table.follow.Below destination number

/-- What a change does to the chains of children. -/
def Move.Rearranges (table changed : ObjectTable) : Move → Prop
  | .remove number =>
      (∀ members, table.follow .parent number ≠ 0 →
        table.follow.Chain (table.follow .parent number) members →
        number ∈ members ∧
          changed.follow.Chain (table.follow .parent number) (members.erase number)) ∧
      (∀ members, number ≠ 0 → table.follow.Chain number members →
        changed.follow.Chain number members) ∧
      ∀ parent members, parent ≠ 0 → parent.toNat ≤ table.size →
        parent ≠ table.follow .parent number → table.follow.Chain parent members →
        changed.follow.Chain parent members
  | .insert number destination =>
      (∀ members, table.follow.Chain destination members →
        changed.follow.Chain destination (number :: members)) ∧
      ∀ parent members, parent ≠ 0 → parent.toNat ≤ table.size → parent ≠ destination →
        table.follow.Chain parent members → changed.follow.Chain parent members

/-- A store becomes another by changes that are each allowed when their turn
comes. -/
inductive Moves (start : ObjectStore) : ObjectStore → Prop where
  | none : Moves start start
  | more {store after : ObjectStore} (move : Move) : Moves start store →
      move.Allowed store.table → move.run store = .ok () after → Moves start after

theorem WellFormed.represents (wellFormed : store.WellFormed) :
    store.Represents store.table.size store.table.follow :=
  ⟨wellFormed.agrees, rfl, wellFormed.size_le, rfl⟩

theorem Represents.wellFormed (represents : store.Represents size links)
    (forest : links.Forest size) : store.WellFormed := by
  obtain ⟨agrees, rfl, small, rfl⟩ := represents
  exact ⟨agrees, small, forest⟩

/-- One change. -/
theorem WellFormed.move (wellFormed : store.WellFormed) {move : Move}
    (allowed : move.Allowed store.table) :
    ∃ after, move.run store = .ok () after ∧ after.WellFormed ∧
      after.table.size = store.table.size ∧ move.Rearranges store.table after.table := by
  have forest := wellFormed.forest
  cases move with
  | remove number =>
      obtain ⟨after, changed, run, represents, forest', chains⟩ :=
        wellFormed.represents.remove forest allowed
      refine ⟨after, run, represents.wellFormed forest', represents.size_eq, ?_⟩
      have others : ∀ parent members, parent ≠ 0 → parent.toNat ≤ store.table.size →
          parent ≠ store.table.follow .parent number → store.table.follow.Chain parent members →
          changed.Chain parent members := by
        intro parent members nonzero inside other chain
        have absent := forest.not_mem_chain (Ne.symm other) nonzero inside chain
        have erased := chains nonzero inside chain
        rwa [List.erase_of_not_mem absent] at erased
      simp only [Move.Rearranges]
      rw [represents.follow]
      refine ⟨?_, ?_, others⟩
      · intro members nonzero chain
        have inside := forest.bounded .parent number
        have numberNonzero : number ≠ 0 := by
          rintro rfl
          exact nonzero ObjectTable.follow_zero
        refine ⟨?_, chains nonzero inside chain⟩
        exact ((forest.chain nonzero inside chain).2 number).2 ⟨numberNonzero, allowed, rfl⟩
      · intro members nonzero chain
        exact others number members nonzero allowed
          (Ne.symm (forest.parent_ne nonzero allowed)) chain
  | insert number destination =>
      obtain ⟨free, nonzero, inside, destinationNonzero, destinationInside, different, apart⟩ :=
        allowed
      obtain ⟨after, run, represents⟩ := wellFormed.represents.insert forest nonzero inside
        destinationNonzero destinationInside
      refine ⟨after, run, represents.wellFormed (forest.inserted free nonzero inside
        destinationNonzero destinationInside different apart), represents.size_eq, ?_⟩
      simp only [Move.Rearranges]
      rw [represents.follow]
      refine ⟨?_, ?_⟩
      · intro members chain
        exact forest.chain_inserted_self free nonzero destinationNonzero destinationInside chain
      · intro parent members parentNonzero parentInside other chain
        exact forest.chain_inserted_of_ne free parentNonzero parentInside other chain

/-- After any sequence of allowed changes of a well-formed store, the store is
well-formed, and every allowed change succeeds, keeps it so, and rearranges the
chains of children as told. -/
theorem moves_wellFormed {start : ObjectStore} (wellFormed : start.WellFormed)
    (moves : Moves start store) :
    store.WellFormed ∧ ∀ move : Move, move.Allowed store.table →
      ∃ after, move.run store = .ok () after ∧ after.WellFormed ∧
        after.table.size = store.table.size ∧ move.Rearranges store.table after.table := by
  have reached : store.WellFormed := by
    induction moves with
    | none => exact wellFormed
    | more move _ allowed run ih =>
        obtain ⟨after, run', wellFormed', -⟩ := ih.move allowed
        rw [run] at run'
        cases run'
        exact wellFormed'
  exact ⟨reached, fun _ allowed => reached.move allowed⟩

/-- An object table with two objects that have no links. -/
def looseTable : Memory :=
  let record : List UInt8 := [0, 0, 0, 0, 0, 0, 0, 0, 80]
  { bytes := (List.replicate (2 * defaultCount) 0 ++ record ++ record ++ [0, 0]).toArray }

theorem moves_wellFormed_sample : ∃ (table : ObjectTable) (inserted removed : ObjectStore),
    ObjectTable.load looseTable 0 default = .ok table ∧
      WellFormed { memory := looseTable, table } ∧
      (Move.insert 1 2).run { memory := looseTable, table } = .ok () inserted ∧
      Moves { memory := looseTable, table } inserted ∧
      (Move.remove 1).run inserted = .ok () removed ∧ removed.WellFormed := by
  have checked : ((ObjectTable.load looseTable 0 default).toOption.any fun table =>
      decide (table.size = 2) &&
      decide (∀ object ∈ table.objects.toList, object.parent.toNat ≤ 0 ∧
        object.sibling.toNat ≤ 0 ∧ object.child.toNat ≤ 0)) = true := by
    decide +kernel
  obtain ⟨table, loaded, checked⟩ := exists_of_toOption_any checked
  obtain ⟨two, loose⟩ := Bool.and_eq_true_iff.1 checked
  have size : table.size = 2 := of_decide_eq_true two
  have follow : table.follow = fun _ _ => 0 := by
    funext link number
    have least := ObjectTable.follow_le_of_forall_mem (of_decide_eq_true loose) link number
    exact UInt16.toNat_inj.1 (Nat.le_zero.1 least)
  have wellFormed : WellFormed { memory := looseTable, table } :=
    .of_load loaded (follow ▸ .loose table.size)
  have allowed : (Move.insert 1 2).Allowed table := by
    rw [Move.Allowed, size, follow]
    refine ⟨rfl, by decide, by decide, by decide, by decide, by decide, ?_⟩
    intro below
    obtain ⟨_, -, parent⟩ := Relation.TransGen.tail'_iff.1 below
    cases parent
  obtain ⟨inserted, insert, -, size', -⟩ := (moves_wellFormed wellFormed .none).2 _ allowed
  have moves : Moves { memory := looseTable, table } inserted := .more _ .none allowed insert
  have allowed' : (Move.remove 1).Allowed inserted.table := by
    rw [Move.Allowed, size', size]
    decide
  obtain ⟨removed, remove, wellFormed', -, -⟩ := (moves_wellFormed wellFormed moves).2 _ allowed'
  exact ⟨table, inserted, removed, loaded, wellFormed, insert, moves, remove, wellFormed'⟩

end ObjectStore

end StoryMachine
