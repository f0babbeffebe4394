import StoryMachine.Proofs.Object.Forest
import StoryMachine.Proofs.Table.Bounds

/-!
# Moves that are refused

The links of objects are whatever bytes a story wrote.  They may lead out of the
table, and a move that meets such a link is refused.

A removal asks all its questions before it writes, and what it writes after the gap
is closed cannot fail.  So it is made as a whole or not at all (`remove_edited`).  An
insertion is refused for one of four reasons, each with a lemma of its own.  Three of
them are found before anything is written.  The fourth, a first child outside the
table, is found after the object has got its new parent, and the object keeps it
(`insert_of_size_lt_child`).

All that is asked of the table is that it lies inside the image, as every table does
that was loaded from it (`ObjectTable.load_inside`).
-/

namespace StoryMachine

/-! ## Questions about links -/

namespace ObjectTable

variable {table : ObjectTable} {number target : UInt16} {link : Link}

/-- A table lies inside the image it was loaded from. -/
theorem load_inside {memory : Memory} {base : Nat} {abbreviations : Abbreviations}
    (loaded : load memory base abbreviations = .ok table) : table.Inside memory.size := by
  obtain ⟨agrees, tidy, -⟩ := load_agrees loaded
  exact agrees.inside tidy

/-- Only the objects of the table have links. -/
theorem le_size_of_link (asked : table.link link number = .ok target) :
    number.toNat ≤ table.size := by
  by_cases zero : number = 0
  · rw [zero]
    exact Nat.zero_le _
  · simp only [ObjectTable.link, except_bind_eq_ok] at asked
    obtain ⟨object, found, -⟩ := asked
    obtain ⟨h, -⟩ := (object_eq_ok zero).1 found
    exact Nat.le_of_pred_lt h

/-- No object has a number beyond the size of the table. -/
theorem object_of_size_lt (outside : table.size < number.toNat) :
    table.object number = .error (.invalidObject number) := by
  have nonzero : number ≠ 0 := by
    rintro rfl
    exact absurd outside (Nat.not_lt_zero _)
  have none : table.objects[number.toNat - 1]? = none :=
    Array.getElem?_eq_none (Nat.le_sub_one_of_lt outside)
  simp only [ObjectTable.object, none]
  exact if_neg nonzero

theorem link_of_size_lt (outside : table.size < number.toNat) :
    table.link link number = .error (.invalidObject number) := by
  rw [ObjectTable.link, object_of_size_lt outside]
  rfl

theorem link_failsOnly (table : ObjectTable) (link : Link) (number : UInt16) :
    FailsOnly (∀ address size, · ≠ .outOfBounds address size) (table.link link number) :=
  .bind (table.object_failsOnly number) fun _ _ => .pure _

theorem predecessor_failsOnly (table : ObjectTable) (number : UInt16) : ∀ limit current,
    FailsOnly (∀ address size, · ≠ .outOfBounds address size)
      (table.predecessor number limit current)
  | 0, current => by
      rw [predecessor]
      exact .ite (.ok _) (.ok _)
  | limit + 1, current => by
      rw [predecessor]
      exact .ite (.ok _) (.bind (table.link_failsOnly .sibling current) fun _ _ =>
        .ite (.pure _) (predecessor_failsOnly table number limit _))

end ObjectTable

namespace ObjectStore

variable {α β : Type} {store : ObjectStore} {number destination target : UInt16} {link : Link}

/-! ## Setting a link -/

theorem Confined.table_size {edited : ObjectStore} (confined : store.Confined edited) :
    edited.table.size = store.table.size :=
  ObjectTable.size_of_shape confined.shape

/-- An edit that is made as a whole or not at all stays so when edits follow that
cannot fail. -/
theorem Edited.followedBy {first : Edit α} {next : α → Edit β}
    (edited : Edited store (first store))
    (rest : ∀ a middle, store.Confined middle →
      ∃ b final, next a middle = .ok b final ∧ middle.Confined final) :
    Edited store ((first >>= next) store) := by
  show Edited store (EStateM.bind first next store)
  simp only [EStateM.bind]
  cases run : first store with
  | ok a middle =>
      rw [run] at edited
      cases edited with
      | done confined =>
          obtain ⟨b, final, run', confined'⟩ := rest a middle confined
          simp only [run']
          exact .done (confined.trans confined')
  | error e left =>
      rw [run] at edited
      cases edited with
      | refused other => exact .refused other

/-- A link of an object of the table can be led to every object of the table. -/
theorem exists_setLink_confined (inside : store.table.Inside store.memory.size) (link : Link)
    (known : number.toNat ≤ store.table.size) (targetKnown : target.toNat ≤ store.table.size) :
    ∃ edited, setLink link number target store = .ok () edited ∧ store.Confined edited := by
  by_cases zero : number = 0
  · exact ⟨store, setLink_eq_ok.2 (.inl ⟨zero, rfl⟩), .refl store⟩
  · obtain ⟨edited, set⟩ := exists_setLink inside link zero known targetKnown
    have confined := (setLink_edited inside link number target).confined
    rw [leaves_of_ok set] at confined
    exact ⟨edited, set, confined⟩

/-- No link is led out of the table. -/
theorem setLink_of_size_lt_target (nonzero : number ≠ 0)
    (outside : store.table.size < target.toNat) :
    setLink link number target store = .error (.invalidObject target) store := by
  show (if number = 0 then _ else _ : Edit Unit) store = _
  rw [if_neg nonzero, if_pos outside]
  rfl

/-- No link of an object outside the table is set. -/
theorem setLink_of_size_lt (targetKnown : target.toNat ≤ store.table.size)
    (outside : store.table.size < number.toNat) :
    setLink link number target store = .error (.invalidObject number) store := by
  have nonzero : number ≠ 0 := by
    rintro rfl
    exact absurd outside (Nat.not_lt_zero _)
  show (if number = 0 then _ else _ : Edit Unit) store = _
  rw [if_neg nonzero, if_neg (Nat.not_lt.2 targetKnown), if_pos outside]
  rfl

/-! ## Removing -/

theorem unlink_edited (inside : store.table.Inside store.memory.size)
    (parent number sibling : UInt16) : Edited store (unlink parent number sibling store) := by
  refine .asking (store.table.link_failsOnly .child parent) ?_
  intro first _
  split
  next => exact setLink_edited inside .child parent sibling
  next =>
    refine .asking (store.table.predecessor_failsOnly number _ first) ?_
    intro predecessor _
    cases predecessor with
    | found before => exact setLink_edited inside .sibling before sibling
    | absent => exact .done (.refl store)
    | endless => exact .done (.refl store)

/-- An object is taken out as a whole or not at all. -/
theorem remove_edited (inside : store.table.Inside store.memory.size) (number : UInt16) :
    Edited store (remove number store) := by
  refine .asking (store.table.link_failsOnly .parent number) ?_
  intro parent asked
  have known := ObjectTable.le_size_of_link asked
  split
  next => exact .done (.refl store)
  next =>
    refine .asking (store.table.link_failsOnly .sibling number) ?_
    intro sibling _
    refine .followedBy (unlink_edited inside parent number sibling) ?_
    -- The object is in the table and both links are led to no object.
    intro _ middle confined
    have none (size : Nat) : (0 : UInt16).toNat ≤ size := Nat.zero_le _
    have known₁ : number.toNat ≤ middle.table.size := confined.table_size ▸ known
    obtain ⟨freed, setParent, confined₁⟩ :=
      exists_setLink_confined (confined.inside inside) .parent known₁ (none _)
    have known₂ : number.toNat ≤ freed.table.size := confined₁.table_size ▸ known₁
    obtain ⟨edited, setSibling, confined₂⟩ :=
      exists_setLink_confined (confined₁.inside (confined.inside inside)) .sibling known₂ (none _)
    exact ⟨(), edited, bind_eq_ok.2 ⟨(), freed, setParent, setSibling⟩,
      confined₁.trans confined₂⟩

/-! ## Inserting -/

theorem asking_child (known : destination.toNat ≤ store.table.size) :
    asking (·.link .child destination) store = .ok (store.table.follow .child destination) store :=
  asking_eq_ok.2 ⟨ObjectTable.link_eq_follow known, rfl⟩

/-- Nothing is put into an object that is not in the table. -/
theorem insert_of_size_lt_destination (nonzero : number ≠ 0)
    (outside : store.table.size < destination.toNat) :
    insert number destination store = .error (.invalidObject destination) store := by
  rw [insert, if_neg nonzero]
  exact bind_of_error (asking_of_error (ObjectTable.link_of_size_lt outside))

/-- No object that is not in the table is put anywhere. -/
theorem insert_of_size_lt (destinationKnown : destination.toNat ≤ store.table.size)
    (outside : store.table.size < number.toNat) :
    insert number destination store = .error (.invalidObject number) store := by
  have nonzero : number ≠ 0 := by
    rintro rfl
    exact absurd outside (Nat.not_lt_zero _)
  rw [insert, if_neg nonzero, bind_of_ok (asking_child destinationKnown)]
  exact bind_of_error (setLink_of_size_lt destinationKnown outside)

/-- An object or a new parent that is not in the table is found before anything is
written. -/
theorem insert_of_unknown
    (unknown : number = 0 ∨ store.table.size < number.toNat ∨
      store.table.size < destination.toNat) :
    ∃ e, insert number destination store = .error e store := by
  by_cases zero : number = 0
  · refine ⟨.invalidObject 0, ?_⟩
    rw [insert, if_pos zero]
    rfl
  · rcases Nat.lt_or_ge store.table.size destination.toNat with outside | destinationKnown
    · exact ⟨_, insert_of_size_lt_destination zero outside⟩
    · have outside : store.table.size < number.toNat :=
        (unknown.resolve_left zero).resolve_right (Nat.not_lt.2 destinationKnown)
      exact ⟨_, insert_of_size_lt destinationKnown outside⟩

/-- A first child outside the table is found when the object has its new parent. -/
theorem insert_of_size_lt_child (inside : store.table.Inside store.memory.size)
    (nonzero : number ≠ 0) (known : number.toNat ≤ store.table.size)
    (destinationKnown : destination.toNat ≤ store.table.size)
    (outside : store.table.size < (store.table.follow .child destination).toNat) :
    ∃ left, setLink .parent number destination store = .ok () left ∧
      insert number destination store =
        .error (.invalidObject (store.table.follow .child destination)) left := by
  obtain ⟨left, setParent, confined⟩ :=
    exists_setLink_confined inside .parent known destinationKnown
  have size := confined.table_size
  refine ⟨left, setParent, ?_⟩
  rw [insert, if_neg nonzero]
  refine bind_eq_error.2 (.inr ⟨_, store, asking_child destinationKnown, ?_⟩)
  refine bind_eq_error.2 (.inr ⟨(), left, setParent, ?_⟩)
  exact bind_eq_error.2 (.inl (setLink_of_size_lt_target nonzero (by omega)))

/-- Nothing else is in the way of an insertion. -/
theorem exists_insert (inside : store.table.Inside store.memory.size)
    (nonzero : number ≠ 0) (known : number.toNat ≤ store.table.size)
    (destinationKnown : destination.toNat ≤ store.table.size)
    (childKnown : (store.table.follow .child destination).toNat ≤ store.table.size) :
    ∃ edited, insert number destination store = .ok () edited := by
  have asked := asking_child destinationKnown
  obtain ⟨first, setParent, confined₁⟩ :=
    exists_setLink_confined inside .parent known destinationKnown
  have inside₁ := confined₁.inside inside
  rw [← confined₁.table_size] at known destinationKnown childKnown
  obtain ⟨second, setSibling, confined₂⟩ :=
    exists_setLink_confined inside₁ .sibling known childKnown
  have inside₂ := confined₂.inside inside₁
  rw [← confined₂.table_size] at known destinationKnown
  obtain ⟨edited, setChild, -⟩ := exists_setLink_confined inside₂ .child destinationKnown known
  refine ⟨edited, ?_⟩
  rw [insert, if_neg nonzero]
  exact bind_eq_ok.2 ⟨_, store, asked,
    bind_eq_ok.2 ⟨(), first, setParent, bind_eq_ok.2 ⟨(), second, setSibling, setChild⟩⟩⟩

/-! ## Refused moves -/

/-- Whatever the links of a table are, a removal that is refused has changed nothing.
An insertion is refused exactly when there is no object to insert, when the object or
its new parent is not in the table, or when the first child of the new parent is not.
If only the first child is not in the table, the object has got its new parent.  In all
other cases nothing has changed. -/
theorem refused_moves (inside : store.table.Inside store.memory.size)
    (number destination : UInt16) :
    (∀ e left, remove number store = .error e left → left = store) ∧
    ((∃ e left, insert number destination store = .error e left) ↔
      (number = 0 ∨ store.table.size < number.toNat ∨ store.table.size < destination.toNat) ∨
        store.table.size < (store.table.follow .child destination).toNat) ∧
    ∀ e left, insert number destination store = .error e left →
      if number = 0 ∨ store.table.size < number.toNat ∨ store.table.size < destination.toNat then
        left = store
      else setLink .parent number destination store = .ok () left := by
  refine ⟨fun e left failed => ((remove_edited inside number).of_error failed).1, ?_⟩
  by_cases unknown : number = 0 ∨ store.table.size < number.toNat ∨
    store.table.size < destination.toNat
  · obtain ⟨cause, refused⟩ := insert_of_unknown unknown
    refine ⟨⟨fun _ => .inl unknown, fun _ => ⟨cause, store, refused⟩⟩, ?_⟩
    intro e left failed
    rw [refused] at failed
    cases failed
    rw [if_pos unknown]
  · obtain ⟨nonzero, inTable⟩ := not_or.1 unknown
    obtain ⟨known, destinationKnown⟩ := not_or.1 inTable
    rw [Nat.not_lt] at known destinationKnown
    rcases Nat.lt_or_ge store.table.size (store.table.follow .child destination).toNat with
      outside | childKnown
    · obtain ⟨left, setParent, refused⟩ :=
        insert_of_size_lt_child inside nonzero known destinationKnown outside
      refine ⟨⟨fun _ => .inr outside, fun _ => ⟨_, left, refused⟩⟩, ?_⟩
      intro e left failed
      rw [refused] at failed
      cases failed
      rw [if_neg unknown]
      exact setParent
    · obtain ⟨edited, made⟩ := exists_insert inside nonzero known destinationKnown childKnown
      have succeeds : ∀ e left, insert number destination store ≠ .error e left := by
        intro e left failed
        rw [made] at failed
        cases failed
      refine ⟨⟨?_, ?_⟩, fun e left failed => absurd failed (succeeds e left)⟩
      · rintro ⟨e, left, failed⟩
        exact absurd failed (succeeds e left)
      · rintro (missing | outside)
        · exact absurd missing unknown
        · exact absurd childKnown (Nat.not_le.2 outside)

/-- Whether an edit of a store is refused for a given cause. -/
def refused? (store : ObjectStore) (edit : Edit α) (cause : Error) : Bool :=
  match edit store with
  | .ok _ _ => false
  | .error e _ => e = cause

theorem exists_of_refused? {edit : Edit α} {cause : Error}
    (refused : store.refused? edit cause = true) : ∃ left, edit store = .error cause left := by
  simp only [refused?] at refused
  cases run : edit store with
  | ok a edited =>
      rw [run] at refused
      cases refused
  | error e left =>
      rw [run] at refused
      obtain rfl := of_decide_eq_true refused
      exact ⟨left, rfl⟩

/-- An object table with three objects and links that lead out of it.  Object 3 lies
inside object 1, whose children are 2 and then 9.  The first child of object 2 is 200. -/
def strayTable : Memory :=
  let records : List UInt8 :=
    [0, 0, 0, 0, 0, 0, 2, 0, 89] ++ [0, 0, 0, 0, 1, 9, 200, 0, 89] ++ [0, 0, 0, 0, 1, 0, 0, 0, 89]
  { bytes := (List.replicate (2 * defaultCount) 0 ++ records ++ [0, 0]).toArray }

/-- The removal of object 3 comes to the link to 9 in the middle of its search, and the
insertion of it into object 2 comes to the link to 200. -/
theorem refused_moves_sample : ∃ (table : ObjectTable) (left : ObjectStore),
    ObjectTable.load strayTable 0 default = .ok table ∧ table.Inside strayTable.size ∧
      remove 3 ⟨strayTable, table⟩ = .error (.invalidObject 9) ⟨strayTable, table⟩ ∧
      insert 3 2 ⟨strayTable, table⟩ = .error (.invalidObject 200) left ∧
      setLink .parent 3 2 ⟨strayTable, table⟩ = .ok () left := by
  have checked : ((ObjectTable.load strayTable 0 default).toOption.any fun table =>
      decide (table.size = 3) && refused? ⟨strayTable, table⟩ (remove 3) (.invalidObject 9) &&
        refused? ⟨strayTable, table⟩ (insert 3 2) (.invalidObject 200)) = true := by
    decide +kernel
  obtain ⟨table, loaded, checked⟩ := exists_of_toOption_any checked
  simp only [Bool.and_eq_true, decide_eq_true_eq] at checked
  obtain ⟨⟨size, removal⟩, insertion⟩ := checked
  obtain ⟨removed, removal⟩ := exists_of_refused? removal
  obtain ⟨left, insertion⟩ := exists_of_refused? insertion
  have inside := ObjectTable.load_inside loaded
  obtain ⟨whole, -, kept⟩ := @refused_moves ⟨strayTable, table⟩ inside 3 2
  have same := whole _ _ removal
  have parent := kept _ _ insertion
  rw [if_neg (by simp only [size]; decide)] at parent
  rw [same] at removal
  exact ⟨table, left, loaded, inside, removal, insertion, parent⟩

end ObjectStore

end StoryMachine
