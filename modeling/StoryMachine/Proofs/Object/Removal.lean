import StoryMachine.Proofs.Object.Forest

/-!
# Taking an object out of tangled links

The links of objects are whatever bytes a story wrote.  A chain of siblings may run
in a circle, and an object may name a parent among whose children it is not.
Removing an object from its parent succeeds all the same, as long as no link leads
out of the table, and it changes no more than it has to (`remove_exact`).

The search for the predecessor of an object asks at most as many objects as the
table has.  That is enough.  Up to the first time that a walk meets an object it
meets no other object twice (`FirstMet.injective`), for it would go in a circle
without the object.  So it has met fewer objects than there are (`FirstMet.lt_size`),
and the search comes to the predecessor (`predecessor_size_eq_found`).
-/

namespace StoryMachine

/-! ## The first time that a walk meets an object -/

/-- A walk from `start` meets `target` after so many steps, and not before. -/
structure FirstMet (next : UInt16 → UInt16) (start target : UInt16) (steps : Nat) : Prop where
  met : next^[steps] start = target
  before : ∀ i < steps, next^[i] start ≠ target

namespace FirstMet

variable {next : UInt16 → UInt16} {start target : UInt16} {steps size : Nat}

/-- A walk that meets an object at all meets it for a first time. -/
theorem exists_of_met (met : next^[steps] start = target) :
    ∃ first, FirstMet next start target first := by
  induction steps using Nat.strongRecOn with
  | ind steps ih =>
      by_cases earlier : ∃ i < steps, next^[i] start = target
      · obtain ⟨i, less, met⟩ := earlier
        exact ih i less met
      · exact ⟨steps, met, fun i less met => earlier ⟨i, less, met⟩⟩

/-- A step of the walk brings the object one step nearer. -/
theorem tail (first : FirstMet next start target (steps + 1)) :
    FirstMet next (next start) target steps where
  met := by
    rw [← Function.iterate_succ_apply]
    exact first.met
  before i less := by
    rw [← Function.iterate_succ_apply]
    exact first.before (i + 1) (Nat.succ_lt_succ less)

/-- If a walk met the same object twice, it would go in a circle. -/
theorem ne_of_lt (first : FirstMet next start target steps) {i j : Nat} (less : i < j)
    (inside : j ≤ steps) : next^[i] start ≠ next^[j] start := by
  intro same
  have shortcut : next^[steps - j + i] start = target := by
    calc next^[steps - j + i] start
        = next^[steps - j] (next^[i] start) := Function.iterate_add_apply ..
      _ = next^[steps - j] (next^[j] start) := by rw [same]
      _ = next^[steps - j + j] start := (Function.iterate_add_apply ..).symm
      _ = target := by rw [Nat.sub_add_cancel inside, first.met]
  exact first.before (steps - j + i) (by omega) shortcut

theorem injective (first : FirstMet next start target steps) :
    ∀ i ∈ List.range (steps + 1), ∀ j ∈ List.range (steps + 1),
      next^[i] start = next^[j] start → i = j := by
  intro i iMember j jMember same
  rw [List.mem_range] at iMember jMember
  rcases Nat.lt_trichotomy i j with less | equal | greater
  · exact absurd same (first.ne_of_lt less (Nat.le_of_lt_succ jMember))
  · exact equal
  · exact absurd same.symm (first.ne_of_lt greater (Nat.le_of_lt_succ iMember))

/-- A walk that has stopped meets nothing any more. -/
theorem ne_zero (first : FirstMet next start target steps) (stops : next 0 = 0)
    (nonzero : target ≠ 0) {i : Nat} (inside : i ≤ steps) : next^[i] start ≠ 0 := by
  intro stopped
  have met := first.met
  rw [← Nat.sub_add_cancel inside, Function.iterate_add_apply, stopped,
    Function.iterate_fixed stops] at met
  exact nonzero met.symm

/-- Among `size` objects, an object is met in fewer than `size` steps or never. -/
theorem lt_size (first : FirstMet next start target steps) (stops : next 0 = 0)
    (nonzero : target ≠ 0) (bounded : ∀ i, (next^[i] start).toNat ≤ size) : steps < size := by
  have distinct : ((List.range (steps + 1)).map fun i => next^[i] start).Nodup :=
    List.Nodup.map_on first.injective List.nodup_range
  have known : ∀ k ∈ (List.range (steps + 1)).map fun i => next^[i] start,
      k ≠ 0 ∧ k.toNat ≤ size := by
    intro k member
    obtain ⟨i, iMember, rfl⟩ := List.mem_map.1 member
    have inside := Nat.le_of_lt_succ (List.mem_range.1 iMember)
    exact ⟨first.ne_zero stops nonzero inside, bounded i⟩
  have few := ObjectStore.length_le_of_forall_mem distinct known
  rw [List.length_map, List.length_range] at few
  exact few

end FirstMet

/-! ## The search for a predecessor -/

namespace ObjectTable

variable {table : ObjectTable} {number : UInt16}

/-- A walk along siblings stays in the table when no link leads out of it. -/
theorem iterate_sibling_le (bounded : ∀ link k, (table.follow link k).toNat ≤ table.size)
    {start : UInt16} (inside : start.toNat ≤ table.size) :
    ∀ i, ((table.follow .sibling)^[i] start).toNat ≤ table.size
  | 0 => inside
  | i + 1 => by
      rw [Function.iterate_succ_apply']
      exact bounded .sibling _

/-- The first question of the search. -/
theorem predecessor_succ {limit : Nat} {current : UInt16} (nonzero : current ≠ 0)
    (inside : current.toNat ≤ table.size) :
    table.predecessor number (limit + 1) current =
      if table.follow .sibling current = number then .ok (.found current)
      else table.predecessor number limit (table.follow .sibling current) := by
  rw [predecessor]
  simp only [if_neg nonzero, link_eq_follow inside]
  rfl

/-- The search finds the object before the first occurrence of another, if it may
ask that many objects. -/
theorem predecessor_eq_found (bounded : ∀ link k, (table.follow link k).toNat ≤ table.size)
    (nonzero : number ≠ 0) {steps : Nat} :
    ∀ {limit : Nat} {current : UInt16}, current.toNat ≤ table.size →
      FirstMet (table.follow .sibling) current number (steps + 1) → steps < limit →
      table.predecessor number limit current =
        .ok (.found ((table.follow .sibling)^[steps] current)) := by
  induction steps with
  | zero =>
      intro limit current inside first enough
      obtain ⟨limit, rfl⟩ := Nat.exists_eq_succ_of_ne_zero (Nat.ne_zero_of_lt enough)
      have current_ne : current ≠ 0 := first.ne_zero follow_zero nonzero (Nat.zero_le _)
      have next : table.follow .sibling current = number := first.met
      rw [predecessor_succ current_ne inside, if_pos next]
      rfl
  | succ steps ih =>
      intro limit current inside first enough
      obtain ⟨limit, rfl⟩ := Nat.exists_eq_succ_of_ne_zero (Nat.ne_zero_of_lt enough)
      have current_ne : current ≠ 0 := first.ne_zero follow_zero nonzero (Nat.zero_le _)
      have next : table.follow .sibling current ≠ number := first.before 1 (by omega)
      rw [predecessor_succ current_ne inside, if_neg next, Function.iterate_succ_apply]
      exact ih (bounded .sibling current) first.tail (Nat.lt_of_succ_lt_succ enough)

/-- As many questions as there are objects are enough. -/
theorem predecessor_size_eq_found
    (bounded : ∀ link k, (table.follow link k).toNat ≤ table.size) (nonzero : number ≠ 0)
    {start : UInt16} (inside : start.toNat ≤ table.size) {steps : Nat}
    (first : FirstMet (table.follow .sibling) start number (steps + 1)) :
    table.predecessor number table.size start =
      .ok (.found ((table.follow .sibling)^[steps] start)) := by
  have few := first.lt_size follow_zero nonzero (iterate_sibling_le bounded inside)
  exact predecessor_eq_found bounded nonzero inside first (Nat.lt_of_succ_lt few)

/-- The search for the predecessor of an object that the walk never meets finds
none. -/
theorem predecessor_of_never_met (bounded : ∀ link k, (table.follow link k).toNat ≤ table.size)
    {limit : Nat} :
    ∀ {current : UInt16}, current.toNat ≤ table.size →
      (∀ i, (table.follow .sibling)^[i] current ≠ number) →
      table.predecessor number limit current = .ok .absent ∨
        table.predecessor number limit current = .ok .endless := by
  induction limit with
  | zero =>
      intro current _ _
      rw [predecessor]
      split
      next => exact .inl rfl
      next => exact .inr rfl
  | succ limit ih =>
      intro current inside never
      by_cases zero : current = 0
      · rw [predecessor, if_pos zero]
        exact .inl rfl
      · have next : table.follow .sibling current ≠ number := never 1
        rw [predecessor_succ zero inside, if_neg next]
        refine ih (bounded .sibling current) fun i => ?_
        rw [← Function.iterate_succ_apply]
        exact never (i + 1)

end ObjectTable

/-! ## Closing the gap -/

/-- The links have been changed so that the children of its parent go on without an
object, if they were led to it. -/
inductive Links.Closes (links : Links) (number : UInt16) : Links → Prop where
  /-- The object was the first child. -/
  | first : links .child (links .parent number) = number →
      Closes links number (links.set .child (links .parent number) (links .sibling number))
  /-- The walk along the children meets the object later, and another right before. -/
  | after {steps : Nat} :
      FirstMet (links .sibling) (links .child (links .parent number)) number (steps + 1) →
      Closes links number (links.set .sibling
        ((links .sibling)^[steps] (links .child (links .parent number))) (links .sibling number))
  /-- The walk along the children does not meet the object. -/
  | never : (∀ i, (links .sibling)^[i] (links .child (links .parent number)) ≠ number) →
      Closes links number links

/-! ## Edits of links -/

/-- An object without its links. -/
def Object.unlinked (object : Object) : Object :=
  { object with parent := 0, sibling := 0, child := 0 }

namespace ObjectTable

/-- A table without its links: all that it says of flags, names, properties and
default values. -/
def unlinked (table : ObjectTable) : ObjectTable :=
  { table with objects := table.objects.map Object.unlinked }

/-- A byte of memory is for a link of an object. -/
def HoldsLink (table : ObjectTable) (x : Nat) : Prop :=
  ∃ link number, number ≠ (0 : UInt16) ∧ number.toNat ≤ table.size ∧
    x = table.record number.toNat + Link.offset link

/-- In memory, too, a link leads where it leads in the copy. -/
theorem RecordsAgree.getByte_link {table : ObjectTable} {memory : Memory} {number : UInt16}
    (agrees : table.RecordsAgree memory) (nonzero : number ≠ 0)
    (inside : number.toNat ≤ table.size) (link : Link) :
    memory.getByte (table.record number.toNat + link.offset) =
      .ok (lowByte (table.follow link number)) := by
  obtain ⟨object, asked, recorded⟩ := agrees.exists_object nonzero inside
  have leads : table.follow link number = (object.link link).toUInt16 := by
    rw [follow, ObjectTable.link, asked]
    rfl
  have byte : lowByte (object.link link).toUInt16 = object.link link := by
    apply UInt8.toNat_inj.1
    rw [toNat_lowByte, UInt8.toNat_toUInt16, Nat.mod_eq_of_lt (object.link link).toNat_lt]
  rw [recorded.links link, leads, byte]

end ObjectTable

namespace ObjectStore

variable {α β : Type} {store : ObjectStore} {number : UInt16}

/-- Nothing has changed but links, in the copy and in memory. -/
structure Relinked (store edited : ObjectStore) : Prop where
  unlinked : edited.table.unlinked = store.table.unlinked
  getByte : ∀ x, ¬store.table.HoldsLink x → edited.memory.getByte x = store.memory.getByte x

namespace Relinked

variable {middle edited : ObjectStore}

theorem refl (store : ObjectStore) : store.Relinked store := ⟨rfl, fun _ _ => rfl⟩

theorem base (relinked : store.Relinked edited) : edited.table.base = store.table.base := by
  have bases := congrArg ObjectTable.base relinked.unlinked
  exact bases

theorem size (relinked : store.Relinked edited) : edited.table.size = store.table.size := by
  have sizes := congrArg ObjectTable.size relinked.unlinked
  simpa only [ObjectTable.size, ObjectTable.unlinked, Array.size_map] using sizes

theorem holdsLink_iff (relinked : store.Relinked edited) {x : Nat} :
    edited.table.HoldsLink x ↔ store.table.HoldsLink x := by
  simp only [ObjectTable.HoldsLink, ObjectTable.record, relinked.base, relinked.size]

theorem trans (first : store.Relinked middle) (second : middle.Relinked edited) :
    store.Relinked edited where
  unlinked := second.unlinked.trans first.unlinked
  getByte x plain :=
    (second.getByte x (mt first.holdsLink_iff.1 plain)).trans (first.getByte x plain)

/-- If the copies agree with their records, a link that leads where it did before has
kept its byte. -/
theorem getByte_of_kept (relinked : store.Relinked edited)
    (agrees : store.table.RecordsAgree store.memory)
    (agrees' : edited.table.RecordsAgree edited.memory) {x : Nat}
    (kept : ∀ link k, k ≠ 0 → k.toNat ≤ store.table.size →
      x = store.table.record k.toNat + link.offset →
      edited.table.follow link k = store.table.follow link k) :
    edited.memory.getByte x = store.memory.getByte x := by
  by_cases holds : store.table.HoldsLink x
  · obtain ⟨link, k, nonzero, inside, rfl⟩ := holds
    have read := agrees.getByte_link nonzero inside link
    have read' := agrees'.getByte_link nonzero (relinked.size ▸ inside) link
    rw [ObjectTable.record, relinked.base] at read'
    rw [ObjectTable.record] at read ⊢
    rw [read, read', kept link k nonzero inside rfl]
  · exact relinked.getByte x holds

end Relinked

/-- An edit that changes nothing but links. -/
def OnlyLinks (edit : Edit α) : Prop :=
  ∀ store a edited, edit store = .ok a edited → store.Relinked edited

namespace OnlyLinks

theorem pure (a : α) : OnlyLinks (pure a) := by
  intro store b edited run
  obtain ⟨-, rfl⟩ := pure_eq_ok.1 run
  exact .refl store

theorem bind {first : Edit α} {next : α → Edit β} (onlyLinks : OnlyLinks first)
    (rest : ∀ a, OnlyLinks (next a)) : OnlyLinks (first >>= next) := by
  intro store b edited run
  obtain ⟨a, middle, run, run'⟩ := bind_eq_ok.1 run
  exact (onlyLinks store a middle run).trans (rest a middle b edited run')

theorem asking (question : ObjectTable → Except Error α) : OnlyLinks (asking question) := by
  intro store a edited run
  obtain ⟨-, rfl⟩ := asking_eq_ok.1 run
  exact .refl _

theorem setLink (link : Link) (number target : UInt16) : OnlyLinks (setLink link number target) := by
  intro store u edited run
  rcases setLink_eq_ok.1 run with ⟨-, rfl⟩ | ⟨nonzero, -, inside, memory, write, rfl⟩
  · exact .refl _
  · constructor
    · have same (object : Object) :
          (object.withLink link (lowByte target)).unlinked = object.unlinked := by
        cases link with
        | parent => rfl
        | sibling => rfl
        | child => rfl
      simp only [ObjectTable.unlinked, ObjectTable.mk.injEq, true_and]
      apply Array.ext
      · simp
      · intro i h h'
        simp only [Array.getElem_map, Array.getElem_modify]
        split
        next => exact same _
        next => rfl
    · intro x plain
      have other : x ≠ store.table.record number.toNat + link.offset := by
        rintro rfl
        exact plain ⟨link, number, nonzero, inside, rfl⟩
      exact (Memory.setByte_eq_ok write).1.getByte x (by omega)

theorem unlink (parent number sibling : UInt16) : OnlyLinks (unlink parent number sibling) := by
  refine .bind (.asking _) ?_
  intro first
  split
  next => exact .setLink _ _ _
  next =>
    refine .bind (.asking _) ?_
    intro found
    cases found with
    | found before => exact .setLink _ _ _
    | absent => exact .pure _
    | endless => exact .pure _

theorem remove (number : UInt16) : OnlyLinks (remove number) := by
  refine .bind (.asking _) ?_
  intro parent
  split
  next => exact .pure _
  next =>
    exact .bind (.asking _) fun _ => .bind (.unlink _ _ _) fun _ =>
      .bind (.setLink _ _ _) fun _ => .setLink _ _ _

end OnlyLinks

/-! ## Removing -/

/-- Closing the gap that an object leaves succeeds in any tangle of links. -/
theorem exists_unlink (represents : store.Represents store.table.size store.table.follow)
    (bounded : ∀ link k, (store.table.follow link k).toNat ≤ store.table.size)
    (nonzero : number ≠ 0) (parentNonzero : store.table.follow .parent number ≠ 0) :
    ∃ edited closed,
      unlink (store.table.follow .parent number) number (store.table.follow .sibling number) store =
        .ok () edited ∧
      edited.Represents store.table.size closed ∧ store.table.follow.Closes number closed := by
  have parentInside := bounded .parent number
  have siblingInside := bounded .sibling number
  have asked := represents.asking_link parentInside .child
  have stays := ObjectTable.iterate_sibling_le bounded
    (bounded .child (store.table.follow .parent number))
  by_cases first : store.table.follow .child (store.table.follow .parent number) = number
  · obtain ⟨edited, set, represents'⟩ :=
      represents.setLink .child parentNonzero parentInside siblingInside
    refine ⟨edited, _, bind_eq_ok.2 ⟨_, store, asked, ?_⟩, represents', .first first⟩
    rw [if_pos first]
    exact set
  · by_cases met : ∃ i, (store.table.follow .sibling)^[i]
        (store.table.follow .child (store.table.follow .parent number)) = number
    · obtain ⟨i, met⟩ := met
      obtain ⟨steps, firstMet⟩ := FirstMet.exists_of_met met
      cases steps with
      | zero => exact absurd firstMet.met first
      | succ steps =>
          have search := ObjectTable.predecessor_size_eq_found bounded nonzero
            (bounded .child (store.table.follow .parent number)) firstMet
          have beforeNonzero :=
            firstMet.ne_zero ObjectTable.follow_zero nonzero (Nat.le_succ steps)
          obtain ⟨edited, set, represents'⟩ :=
            represents.setLink .sibling beforeNonzero (stays steps) siblingInside
          refine ⟨edited, _, bind_eq_ok.2 ⟨_, store, asked, ?_⟩, represents', .after firstMet⟩
          rw [if_neg first]
          exact bind_eq_ok.2 ⟨.found _, store, asking_eq_ok.2 ⟨search, rfl⟩, set⟩
    · have never := not_exists.1 met
      refine ⟨store, _, bind_eq_ok.2 ⟨_, store, asked, ?_⟩, represents, .never never⟩
      rw [if_neg first]
      rcases ObjectTable.predecessor_of_never_met bounded
        (bounded .child (store.table.follow .parent number)) never with absent | endless
      · exact bind_eq_ok.2 ⟨.absent, store, asking_eq_ok.2 ⟨absent, rfl⟩, rfl⟩
      · exact bind_eq_ok.2 ⟨.endless, store, asking_eq_ok.2 ⟨endless, rfl⟩, rfl⟩

/-- Removing an object that names a parent succeeds, in every store whose copy agrees
with its records and in which no link leads out of the table, such as one that was just
loaded.  The gap among the children of the parent is closed where there is one, the
object loses its parent and its sibling, and no other link, no flag and no property
changes.  In memory only the bytes of the links that changed do.  Wherever the walk along the children comes to the object, the search for
its predecessor has not given up before. -/
theorem remove_exact (agrees : store.table.RecordsAgree store.memory)
    (small : store.table.size ≤ ObjectTable.capacity)
    (bounded : ∀ link k, (store.table.follow link k).toNat ≤ store.table.size)
    (parentNonzero : store.table.follow .parent number ≠ 0) :
    ∃ edited closed, remove number store = .ok () edited ∧
      store.table.follow.Closes number closed ∧
      edited.table.follow = (closed.set .parent number 0).set .sibling number 0 ∧
      edited.table.unlinked = store.table.unlinked ∧
      edited.table.RecordsAgree edited.memory ∧
      (∀ x, (∀ link k, k ≠ 0 → k.toNat ≤ store.table.size →
          x = store.table.record k.toNat + link.offset →
          edited.table.follow link k = store.table.follow link k) →
        edited.memory.getByte x = store.memory.getByte x) ∧
      ∀ steps, FirstMet (store.table.follow .sibling)
          (store.table.follow .child (store.table.follow .parent number)) number (steps + 1) →
        store.table.predecessor number store.table.size
            (store.table.follow .child (store.table.follow .parent number)) =
          .ok (.found ((store.table.follow .sibling)^[steps]
            (store.table.follow .child (store.table.follow .parent number)))) := by
  have represents : store.Represents store.table.size store.table.follow :=
    ⟨agrees, rfl, small, rfl⟩
  have nonzero : number ≠ 0 := by
    rintro rfl
    exact parentNonzero ObjectTable.follow_zero
  have inside : number.toNat ≤ store.table.size := by
    refine Nat.not_lt.1 fun outside => parentNonzero ?_
    exact ObjectTable.follow_of_le nonzero (Nat.le_sub_one_of_lt outside)
  have zeroInside : (0 : UInt16).toNat ≤ store.table.size := Nat.zero_le _
  obtain ⟨first, closed, gap, represents₁, closes⟩ :=
    exists_unlink represents bounded nonzero parentNonzero
  obtain ⟨second, setParent, represents₂⟩ :=
    represents₁.setLink .parent nonzero inside zeroInside
  obtain ⟨edited, setSibling, represents₃⟩ :=
    represents₂.setLink .sibling nonzero inside zeroInside
  have removed : remove number store = .ok () edited := by
    refine bind_eq_ok.2 ⟨_, store, represents.asking_link inside .parent, ?_⟩
    rw [if_neg parentNonzero]
    exact bind_eq_ok.2 ⟨_, store, represents.asking_link inside .sibling,
      bind_eq_ok.2 ⟨(), first, gap, bind_eq_ok.2 ⟨(), second, setParent, setSibling⟩⟩⟩
  have relinked := OnlyLinks.remove number _ _ _ removed
  refine ⟨edited, closed, removed, closes, represents₃.follow, relinked.unlinked,
    represents₃.agrees, fun _ => relinked.getByte_of_kept agrees represents₃.agrees, ?_⟩
  intro steps firstMet
  exact ObjectTable.predecessor_size_eq_found bounded nonzero
    (bounded .child (store.table.follow .parent number)) firstMet

/-- An object table with three objects whose siblings run in a circle, 1, 2, 3 and 1
again.  Object 1 is its own first child, and only object 3 names it as its parent. -/
def tangledTable : Memory :=
  let records : List UInt8 :=
    [0, 0, 0, 0, 0, 2, 1, 0, 89] ++ [0, 0, 0, 0, 0, 3, 0, 0, 89] ++ [0, 0, 0, 0, 1, 1, 0, 0, 89]
  { bytes := (List.replicate (2 * defaultCount) 0 ++ records ++ [0, 0]).toArray }

theorem remove_exact_sample : ∃ (table : ObjectTable) (edited : ObjectStore) (closed : Links),
    ObjectTable.load tangledTable 0 default = .ok table ∧
      (∀ link k, (table.follow link k).toNat ≤ table.size) ∧ table.follow .parent 3 ≠ 0 ∧
      remove 3 { memory := tangledTable, table } = .ok () edited ∧
      table.follow.Closes 3 closed ∧
      edited.table.follow = (closed.set .parent 3 0).set .sibling 3 0 ∧
      edited.table.unlinked = table.unlinked ∧
      table.predecessor 3 table.size 1 = .ok (.found 2) := by
  have checked : ((ObjectTable.load tangledTable 0 default).toOption.any fun table =>
      decide (∀ object ∈ table.objects.toList, object.parent.toNat ≤ table.size ∧
        object.sibling.toNat ≤ table.size ∧ object.child.toNat ≤ table.size) &&
      decide (table.follow .parent 3 = 1 ∧ table.follow .child 1 = 1 ∧
        table.follow .sibling 1 = 2 ∧ table.follow .sibling 2 = 3)) = true := by
    decide +kernel
  obtain ⟨table, loaded, checked⟩ := exists_of_toOption_any checked
  obtain ⟨small, links⟩ := Bool.and_eq_true_iff.1 checked
  have bounded := ObjectTable.follow_le_of_forall_mem (of_decide_eq_true small)
  obtain ⟨parent, child, first, second⟩ := of_decide_eq_true links
  have parentNonzero : table.follow .parent 3 ≠ 0 := by
    rw [parent]
    decide
  obtain ⟨agrees, -, size⟩ := ObjectTable.load_agrees loaded
  obtain ⟨edited, closed, removed, closes, follow, unlinked, -, -, search⟩ :=
    @remove_exact ⟨tangledTable, table⟩ 3 agrees.recordsAgree size bounded parentNonzero
  have firstMet : FirstMet (table.follow .sibling) 1 3 2 := by
    refine ⟨?_, ?_⟩
    · show table.follow .sibling (table.follow .sibling 1) = 3
      rw [first, second]
    · intro i less
      obtain rfl | rfl : i = 0 ∨ i = 1 := by omega
      · show (1 : UInt16) ≠ 3
        decide
      · show table.follow .sibling 1 ≠ 3
        rw [first]
        decide
  have search := search 1
  simp only [parent, child] at search
  have found := search firstMet
  rw [Function.iterate_one, first] at found
  exact ⟨table, edited, closed, loaded, bounded, parentNonzero, removed, closes, follow, unlinked,
    found⟩

end ObjectStore

end StoryMachine
