import StoryMachine.Proofs.Table.Layout

/-!
# Refreshing the copies

After a write anywhere, a refresh of the range that was written restores the
agreement of both copies with memory, whatever the range meets
(`Globals.refresh_agrees`, `ObjectTable.refresh_agrees`).  A refresh reads values
again and moves nothing, so the layout of the tables stays.
-/

namespace StoryMachine

/-! ## Global variables -/

namespace Globals

theorem reload_eq_ok {memory : Memory} {globals reloaded : Globals} {index : Nat}
    (reload : globals.reload memory index = .ok reloaded) :
    reloaded.base = globals.base ∧ ∀ i (h : i < globalCount),
      (i = index ∧ memory.getWord (globals.address i) = .ok reloaded.cells[i]) ∨
        (i ≠ index ∧ reloaded.cells[i] = globals.cells[i]) := by
  simp only [Globals.reload] at reload
  split at reload
  next inside =>
    simp only [except_bind_eq_ok, except_pure_eq_ok] at reload
    obtain ⟨value, read, rfl⟩ := reload
    refine ⟨rfl, ?_⟩
    intro i h
    by_cases same : i = index
    · subst same
      exact .inl ⟨rfl, by simpa using read⟩
    · exact .inr ⟨same, by simp [Vector.getElem_set_ne, Ne.symm same]⟩
  next outside =>
    cases reload
    refine ⟨rfl, fun i h => .inr ⟨?_, rfl⟩⟩
    intro same
    exact outside (same ▸ h)

/-- Reading cells again one after the other gives each of them its word, and
leaves the others. -/
theorem foldlM_reload_eq_ok {memory : Memory} :
    ∀ {indexes : List Nat} {globals reloaded : Globals},
      indexes.foldlM (reload memory) globals = .ok reloaded →
      reloaded.base = globals.base ∧ ∀ i (h : i < globalCount),
        (i ∈ indexes ∧ memory.getWord (globals.address i) = .ok reloaded.cells[i]) ∨
          (i ∉ indexes ∧ reloaded.cells[i] = globals.cells[i])
  | [], _, _, reload => by
      cases reload
      exact ⟨rfl, fun i h => .inr ⟨List.not_mem_nil, rfl⟩⟩
  | index :: rest, globals, reloaded, reload => by
      simp only [List.foldlM_cons, except_bind_eq_ok] at reload
      obtain ⟨middle, first, later⟩ := reload
      obtain ⟨base, cells⟩ := reload_eq_ok first
      obtain ⟨base', cells'⟩ := foldlM_reload_eq_ok later
      refine ⟨base'.trans base, ?_⟩
      intro i h
      simp only [Globals.address, base] at cells cells' ⊢
      rcases cells' i h with ⟨member, read⟩ | ⟨unread, kept⟩
      · exact .inl ⟨.tail _ member, read⟩
      · rcases cells i h with ⟨rfl, read⟩ | ⟨other, kept'⟩
        · exact .inl ⟨.head _, kept ▸ read⟩
        · refine .inr ⟨?_, kept.trans kept'⟩
          rw [List.mem_cons]
          rintro (same | member)
          · exact other same
          · exact unread member

/-- A cell that a range does not touch has both its bytes outside the range. -/
theorem apart_of_not_mem_touched {globals : Globals} {address count i : Nat}
    (h : i < globalCount) (untouched : i ∉ globals.touched address count) :
    globals.address i + 2 ≤ address ∨ address + count ≤ globals.address i := by
  simp only [globalCount] at h
  simp only [touched] at untouched
  split at untouched
  next outside =>
    simp only [stop, Globals.address, globalCount] at outside ⊢
    omega
  next inside =>
    simp only [List.mem_range'_1, stop, Globals.address, globalCount] at inside untouched ⊢
    omega

/-- After a write, reading again what the range touched restores agreement. -/
theorem refresh_agrees {memory written : Memory} {globals refreshed : Globals}
    {address count : Nat} (frame : memory.SameOutside written address count)
    (agrees : globals.Agrees memory)
    (refresh : globals.refresh written address count = .ok refreshed) :
    refreshed.Agrees written ∧ refreshed.base = globals.base := by
  obtain ⟨base, cells⟩ := foldlM_reload_eq_ok refresh
  refine ⟨?_, base⟩
  intro i h
  have same : refreshed.address i = globals.address i := by rw [Globals.address, base]; rfl
  rw [same]
  rcases cells i h with ⟨-, read⟩ | ⟨untouched, kept⟩
  · exact read
  · rw [kept]
    exact frame.getWord_eq_ok (apart_of_not_mem_touched h untouched) (agrees i h)

end Globals

/-! ## Objects -/

theorem overlap_eq_false {address count other length : Nat}
    (apart : overlap address count other length = false) :
    other + length ≤ address ∨ address + count ≤ other := by
  simp only [overlap, Bool.and_eq_false_iff, decide_eq_false_iff_not] at apart
  omega

section Object

variable {memory written : Memory} {address count : Nat}
  (frame : memory.SameOutside written address count)

include frame

theorem Property.refresh_agrees {property refreshed : Property}
    (agrees : property.Agrees memory)
    (refresh : property.refresh written address count = .ok refreshed) :
    refreshed.Agrees written ∧ refreshed.place = property.place := by
  simp only [Property.refresh] at refresh
  split at refresh
  next =>
    simp only [except_bind_eq_ok, except_pure_eq_ok] at refresh
    obtain ⟨data, read, rfl⟩ := refresh
    have length := (Memory.slice_eq_ok.1 read).1
    constructor
    · show written.slice property.dataAddress data.length = .ok data
      rw [length]
      exact read
    · simp only [Property.place, length]
  next apart =>
    cases refresh
    exact ⟨agrees.of_sameOutside frame (overlap_eq_false (by simpa using apart)), rfl⟩

theorem Property.mapM_refresh_agrees :
    ∀ {properties refreshed : List Property},
      (∀ property ∈ properties, property.Agrees memory) →
      properties.mapM (Property.refresh written address count) = .ok refreshed →
      (∀ property ∈ refreshed, property.Agrees written) ∧
        refreshed.map Property.place = properties.map Property.place
  | [], _, _, refresh => by
      simp only [List.mapM_nil, except_pure_eq_ok] at refresh
      subst refresh
      simp
  | property :: rest, _, agree, refresh => by
      simp only [List.mapM_cons, except_bind_eq_ok, except_pure_eq_ok] at refresh
      obtain ⟨first, refreshFirst, others, refreshRest, rfl⟩ := refresh
      have one := refresh_agrees frame (agree property (.head _)) refreshFirst
      have all := mapM_refresh_agrees (fun p h => agree p (.tail _ h)) refreshRest
      constructor
      · intro other member
        rcases List.mem_cons.1 member with rfl | member
        · exact one.1
        · exact all.1 other member
      · rw [List.map_cons, List.map_cons, one.2, all.2]

namespace Object

omit frame in
theorem refreshRecord_agrees {object refreshed : Object} {record : Nat}
    (refresh : object.refreshRecord written record = .ok refreshed) :
    refreshed.RecordAgrees written record ∧ refreshed.shape = object.shape ∧
      refreshed.properties = object.properties := by
  simp only [refreshRecord, readLink, except_bind_eq_ok, except_pure_eq_ok] at refresh
  obtain ⟨attributes, readAttributes, parent, readParent, sibling, readSibling, child, readChild,
    rfl⟩ := refresh
  refine ⟨⟨readAttributes_eq_ok readAttributes, ?_⟩, rfl, rfl⟩
  intro link
  cases link with
  | parent => exact readParent
  | sibling => exact readSibling
  | child => exact readChild

/-- A refresh of an object reads its record and then the data of its
properties. -/
theorem exists_of_refresh {object refreshed : Object} {record : Nat}
    (agrees : object.Agrees memory record)
    (refresh : object.refresh written address count record = .ok refreshed) :
    ∃ (middle : Object) (properties : List Property), middle.RecordAgrees written record ∧
      middle.shape = object.shape ∧ middle.properties = object.properties ∧
      object.properties.mapM (Property.refresh written address count) = .ok properties ∧
      refreshed = { middle with properties } := by
  simp only [Object.refresh] at refresh
  split at refresh
  next =>
    simp only [except_bind_eq_ok, except_pure_eq_ok] at refresh
    obtain ⟨middle, refreshFields, properties, refreshProperties, rfl⟩ := refresh
    obtain ⟨recordAgrees, shape, same⟩ := refreshRecord_agrees refreshFields
    exact ⟨middle, properties, recordAgrees, shape, same, same ▸ refreshProperties, rfl⟩
  next apart =>
    simp only [except_bind_eq_ok, except_pure_eq_ok] at refresh
    obtain ⟨middle, unchanged, properties, refreshProperties, rfl⟩ := refresh
    cases unchanged
    exact ⟨object, properties, agrees.toRecordAgrees.of_sameOutside frame
      (overlap_eq_false (by simpa using apart)), rfl, rfl, refreshProperties, rfl⟩

theorem refresh_agrees {object refreshed : Object} {record : Nat}
    (agrees : object.Agrees memory record)
    (refresh : object.refresh written address count record = .ok refreshed) :
    refreshed.Agrees written record ∧ refreshed.shape = object.shape := by
  obtain ⟨middle, properties, recordAgrees, shape, same, refreshProperties, rfl⟩ :=
    exists_of_refresh frame agrees refresh
  obtain ⟨agree, places⟩ := Property.mapM_refresh_agrees frame agrees.properties refreshProperties
  refine ⟨⟨⟨recordAgrees.attributes, recordAgrees.links⟩, agree⟩, ?_⟩
  rw [← shape, Object.shape, Object.shape, same, places]

end Object

namespace ObjectTable

theorem refreshObjects_agree :
    ∀ {record : Nat} {objects refreshed : List Object},
      (∀ i (h : i < objects.length), objects[i].Agrees memory (record + recordLength * i)) →
      refreshObjects written address count record objects = .ok refreshed →
      refreshed.map Object.shape = objects.map Object.shape ∧
      ∀ i (h : i < refreshed.length), refreshed[i].Agrees written (record + recordLength * i)
  | _, [], _, _, refresh => by
      cases refresh
      simp
  | record, object :: rest, _, agree, refresh => by
      simp only [refreshObjects, except_bind_eq_ok, except_pure_eq_ok] at refresh
      obtain ⟨first, refreshFirst, others, refreshRest, rfl⟩ := refresh
      have one : first.Agrees written record ∧ first.shape = object.shape :=
        Object.refresh_agrees frame (agree 0 (Nat.zero_lt_succ _)) refreshFirst
      have next (i : Nat) : record + recordLength + recordLength * i =
          record + recordLength * (i + 1) := by
        rw [Nat.mul_add_one, Nat.add_assoc, Nat.add_comm recordLength]
      have all := refreshObjects_agree (by
        intro i h
        rw [next]
        exact agree (i + 1) (Nat.succ_lt_succ h)) refreshRest
      constructor
      · rw [List.map_cons, List.map_cons, one.2, all.1]
      · intro i h
        cases i with
        | zero => exact one.1
        | succ i =>
            have later := all.2 i (Nat.lt_of_succ_lt_succ h)
            rw [next] at later
            exact later

/-- A refresh of the table reads its default values and then its objects. -/
theorem exists_of_refresh {table refreshed : ObjectTable} (agrees : table.Agrees memory)
    (refresh : table.refresh written address count = .ok refreshed) :
    ∃ (defaults : Vector UInt16 defaultCount) (objects : List Object),
      (∀ i (h : i < defaultCount), written.getWord (table.base + 2 * i) = .ok defaults[i]) ∧
      refreshObjects written address count (firstRecord table.base) table.objects.toList =
        .ok objects ∧
      refreshed = { table with defaults, objects := objects.toArray } := by
  simp only [ObjectTable.refresh] at refresh
  split at refresh
  next =>
    simp only [except_bind_eq_ok, except_pure_eq_ok] at refresh
    obtain ⟨defaults, read, objects, refreshAll, rfl⟩ := refresh
    exact ⟨defaults, objects, Memory.getWords_eq_ok read, refreshAll, rfl⟩
  next apart =>
    simp only [except_bind_eq_ok, except_pure_eq_ok] at refresh
    obtain ⟨defaults, unchanged, objects, refreshAll, rfl⟩ := refresh
    cases unchanged
    refine ⟨table.defaults, objects, ?_, refreshAll, rfl⟩
    have apart := overlap_eq_false (by simpa using apart)
    intro i h
    refine frame.getWord_eq_ok ?_ (agrees.defaults i h)
    simp only [defaultCount] at h apart
    omega

/-- After a write, reading again what the range touched restores agreement. -/
theorem refresh_agrees {table refreshed : ObjectTable} (agrees : table.Agrees memory)
    (refresh : table.refresh written address count = .ok refreshed) :
    refreshed.Agrees written ∧ refreshed.shape = table.shape := by
  obtain ⟨defaults, objects, defaultsAgree, refreshAll, rfl⟩ :=
    exists_of_refresh frame agrees refresh
  obtain ⟨shapes, agree⟩ := refreshObjects_agree frame (by
    intro i h
    exact agrees.objects i (by simpa using h)) refreshAll
  refine ⟨⟨defaultsAgree, ?_⟩, ?_⟩
  · intro i h
    exact agree i (by simpa using h)
  · simp only [ObjectTable.shape, shapes]

end ObjectTable

end Object

end StoryMachine
