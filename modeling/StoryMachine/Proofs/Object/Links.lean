import Mathlib.Data.List.Nodup
import Mathlib.Logic.Function.Iterate
import Mathlib.Logic.Relation
import StoryMachine.Object.Basic

/-!
# Links that form a forest

The links of objects, taken by themselves, say where each link of each object
leads.  They form a `Forest` when the parents lead to no object in the end, and
when the children of each object form one finite chain without repetition.

Inserting an object in front of the children of another, and taking one out of
the chain it is in, are changes of three links.  Both keep a forest, and both
are described by what they do to the chains.
-/

namespace StoryMachine

/-- Where each link of each object leads. -/
abbrev Links := Link → UInt16 → UInt16

/-! ## Walks -/

/-- The objects that are met on the way from an object to no object. -/
inductive Walk (next : UInt16 → UInt16) : UInt16 → List UInt16 → Prop where
  | stop : Walk next 0 []
  | step {number : UInt16} {rest : List UInt16} :
      number ≠ 0 → Walk next (next number) rest → Walk next number (number :: rest)

namespace Walk

variable {next : UInt16 → UInt16} {start number target : UInt16} {members : List UInt16}

theorem start_mem (walk : Walk next start members) (nonzero : start ≠ 0) : start ∈ members := by
  cases walk with
  | stop => exact absurd rfl nonzero
  | step _ _ => exact .head _

theorem next_mem (walk : Walk next start members) (member : number ∈ members)
    (nonzero : next number ≠ 0) : next number ∈ members := by
  induction walk with
  | stop => cases member
  | step _ rest ih =>
      rcases List.mem_cons.1 member with rfl | member
      · exact .tail _ (rest.start_mem nonzero)
      · exact .tail _ (ih member)

/-- A walk does not see the links of objects that it does not meet. -/
theorem update (walk : Walk next start members) (absent : number ∉ members) :
    Walk (Function.update next number target) start members := by
  induction walk with
  | stop => exact .stop
  | step nonzero _ ih =>
      obtain ⟨other, absent⟩ := not_or.1 (mt List.mem_cons.2 absent)
      refine .step nonzero ?_
      rw [Function.update_of_ne (Ne.symm other)]
      exact ih absent

/-- Leading the predecessor of an object to its successor takes the object out of
a walk. -/
theorem unlink {before : UInt16} (walk : Walk next start members) (distinct : members.Nodup)
    (member : before ∈ members) (leads : next before = number) (nonzero : number ≠ 0) :
    Walk (Function.update (Function.update next before (next number)) number 0) start
      (members.erase number) := by
  induction walk with
  | stop => cases member
  | @step first rest firstNonzero walk ih =>
      obtain ⟨fresh, distinctRest⟩ := List.nodup_cons.1 distinct
      rcases List.mem_cons.1 member with rfl | member
      · rw [leads] at walk
        cases walk with
        | stop => exact absurd rfl nonzero
        | @step _ post _ walk =>
            obtain ⟨fresh', -⟩ := List.nodup_cons.1 distinctRest
            have other : before ≠ number := fun same => fresh (same ▸ List.mem_cons_self)
            rw [List.erase_cons_tail (by simpa using other), List.erase_cons_head]
            refine .step firstNonzero ?_
            rw [Function.update_of_ne other, Function.update_self]
            have absent : before ∉ post := fun member => fresh (.tail _ member)
            exact (walk.update absent).update fresh'
      · have inside : number ∈ rest := leads ▸ walk.next_mem member (leads ▸ nonzero)
        have other : first ≠ number := fun same => fresh (same ▸ inside)
        have other' : first ≠ before := fun same => fresh (same ▸ member)
        rw [List.erase_cons_tail (by simpa using other)]
        refine .step firstNonzero ?_
        rw [Function.update_of_ne other, Function.update_of_ne other']
        exact ih distinctRest member

/-- No two walks start at the same object. -/
theorem unique {others : List UInt16} (walk : Walk next start members)
    (other : Walk next start others) : members = others := by
  induction walk generalizing others with
  | stop =>
      cases other with
      | stop => rfl
      | step nonzero _ => exact absurd rfl nonzero
  | step nonzero _ ih =>
      cases other with
      | stop => exact absurd rfl nonzero
      | step _ other => rw [ih other]

end Walk

namespace Links

/-! ## Setting links -/

/-- The links with one of them set. -/
def set (links : Links) (link : Link) (number target : UInt16) : Links :=
  Function.update links link (Function.update (links link) number target)

variable {links : Links} {size : Nat} {link other : Link} {number destination target : UInt16}

@[simp] theorem set_self :
    links.set link number target link = Function.update (links link) number target :=
  Function.update_self _ _ _

@[simp] theorem set_of_ne (different : other ≠ link) :
    links.set link number target other = links other :=
  Function.update_of_ne different _ _

theorem set_apply_of_ne {k : UInt16} (different : k ≠ number) :
    links.set link number target other k = links other k := by
  by_cases same : other = link
  · subst same
    rw [set_self, Function.update_of_ne different]
  · rw [set_of_ne same]

/-! ## Forests -/

/-- The children of an object, from the first on. -/
def Chain (links : Links) (parent : UInt16) (members : List UInt16) : Prop :=
  Walk (links .sibling) (links .child parent) members

/-- One object lies inside another, or inside an object that does. -/
def Below (links : Links) : UInt16 → UInt16 → Prop :=
  Relation.TransGen fun inner outer => links .parent inner = outer

/-- The links of `size` objects form a forest. -/
structure Forest (size : Nat) (links : Links) : Prop where
  bounded : ∀ link number, (links link number).toNat ≤ size
  rooted : ∀ number, number.toNat ≤ size → ∃ steps, (links .parent)^[steps] number = 0
  chains : ∀ parent, parent ≠ 0 → parent.toNat ≤ size → ∃ members,
    links.Chain parent members ∧ members.Nodup ∧
    ∀ number, number ∈ members ↔
      number ≠ 0 ∧ number.toNat ≤ size ∧ links .parent number = parent

/-- Objects without links are a forest. -/
theorem Forest.loose (size : Nat) : Forest size fun _ _ => 0 where
  bounded _ _ := Nat.zero_le _
  rooted _ _ := ⟨1, rfl⟩
  chains parent nonzero inside := by
    refine ⟨[], .stop, .nil, ?_⟩
    intro number
    simp [Ne.symm nonzero]

theorem Forest.parent_ne (forest : links.Forest size) (nonzero : number ≠ 0)
    (inside : number.toNat ≤ size) : links .parent number ≠ number := by
  intro fixed
  obtain ⟨steps, reached⟩ := forest.rooted number inside
  rw [Function.iterate_fixed fixed] at reached
  exact nonzero reached

/-- What is known of a chain holds of every list that is one. -/
theorem Forest.chain {parent : UInt16} {members : List UInt16} (forest : links.Forest size)
    (nonzero : parent ≠ 0) (inside : parent.toNat ≤ size) (chain : links.Chain parent members) :
    members.Nodup ∧ ∀ number, number ∈ members ↔
      number ≠ 0 ∧ number.toNat ≤ size ∧ links .parent number = parent := by
  obtain ⟨_, walk, known⟩ := forest.chains parent nonzero inside
  obtain rfl := walk.unique chain
  exact known

theorem bounded_set (bounded : ∀ link number, (links link number).toNat ≤ size)
    (inside : target.toNat ≤ size) :
    ∀ other k, (links.set link number target other k).toNat ≤ size := by
  intro other k
  by_cases equal : k = number
  · by_cases same : other = link
    · rw [same, equal, set_self, Function.update_self]
      exact inside
    · rw [set_of_ne same]
      exact bounded other k
  · rw [set_apply_of_ne equal]
    exact bounded other k

/-! ## Roots after a change of parent -/

/-- A new parent that reaches no object in the end spoils no other way there. -/
theorem rooted_update {parent : UInt16 → UInt16}
    (root : ∃ steps, (Function.update parent number target)^[steps] target = 0) :
    ∀ {steps : Nat} {k : UInt16}, parent^[steps] k = 0 →
      ∃ steps, (Function.update parent number target)^[steps] k = 0
  | 0, k, reached => ⟨0, reached⟩
  | steps + 1, k, reached => by
      rw [Function.iterate_succ_apply] at reached
      by_cases same : k = number
      · obtain ⟨more, reached⟩ := root
        refine ⟨more + 1, ?_⟩
        rw [Function.iterate_succ_apply, same, Function.update_self]
        exact reached
      · obtain ⟨more, reached⟩ := rooted_update root reached
        refine ⟨more + 1, ?_⟩
        rw [Function.iterate_succ_apply, Function.update_of_ne same]
        exact reached

/-- An object that does not lie inside another reaches no object without it. -/
theorem rooted_update_of_not_below {parent : UInt16 → UInt16} :
    ∀ {steps : Nat} {k : UInt16}, parent^[steps] k = 0 → k ≠ number →
      ¬Relation.TransGen (fun inner outer => parent inner = outer) k number →
      ∃ steps, (Function.update parent number target)^[steps] k = 0
  | 0, k, reached, _, _ => ⟨0, reached⟩
  | steps + 1, k, reached, different, apart => by
      rw [Function.iterate_succ_apply] at reached
      obtain ⟨more, reached⟩ := rooted_update_of_not_below reached
        (fun same => apart (.single same)) (fun below => apart (.head rfl below))
      refine ⟨more + 1, ?_⟩
      rw [Function.iterate_succ_apply, Function.update_of_ne different]
      exact reached

/-! ## Inserting -/

/-- The links after an object was put in front of the children of another. -/
def inserted (links : Links) (number destination : UInt16) : Links :=
  ((links.set .parent number destination).set .sibling number (links .child destination)).set
    .child destination number

theorem inserted_parent :
    links.inserted number destination .parent =
      Function.update (links .parent) number destination := by
  simp [inserted]

theorem inserted_sibling :
    links.inserted number destination .sibling =
      Function.update (links .sibling) number (links .child destination) := by
  simp [inserted]

theorem inserted_child :
    links.inserted number destination .child =
      Function.update (links .child) destination number := by
  simp [inserted]

namespace Forest

variable {parent : UInt16} {members : List UInt16}

/-- An object without a parent is in no chain. -/
theorem not_mem_chain (forest : links.Forest size) (free : links .parent number ≠ parent)
    (nonzero : parent ≠ 0) (inside : parent.toNat ≤ size) (chain : links.Chain parent members) :
    number ∉ members :=
  fun member => free (((forest.chain nonzero inside chain).2 number).1 member).2.2

/-- The object comes first among the children of its new parent. -/
theorem chain_inserted_self (forest : links.Forest size) (free : links .parent number = 0)
    (numberNonzero : number ≠ 0) (nonzero : destination ≠ 0) (inside : destination.toNat ≤ size)
    (chain : links.Chain destination members) :
    (links.inserted number destination).Chain destination (number :: members) := by
  have absent := forest.not_mem_chain (free ▸ Ne.symm nonzero) nonzero inside chain
  simp only [Chain]
  rw [inserted_child, inserted_sibling, Function.update_self]
  refine .step numberNonzero ?_
  rw [Function.update_self]
  exact Walk.update chain absent

/-- The chains of all other objects stay. -/
theorem chain_inserted_of_ne (forest : links.Forest size) (free : links .parent number = 0)
    (nonzero : parent ≠ 0) (inside : parent.toNat ≤ size) (other : parent ≠ destination)
    (chain : links.Chain parent members) :
    (links.inserted number destination).Chain parent members := by
  have absent := forest.not_mem_chain (free ▸ Ne.symm nonzero) nonzero inside chain
  simp only [Chain]
  rw [inserted_child, inserted_sibling, Function.update_of_ne other]
  exact Walk.update chain absent

/-- Inserting keeps a forest. -/
theorem inserted (forest : links.Forest size) (free : links .parent number = 0)
    (numberNonzero : number ≠ 0) (numberInside : number.toNat ≤ size)
    (nonzero : destination ≠ 0) (inside : destination.toNat ≤ size)
    (different : destination ≠ number) (apart : ¬links.Below destination number) :
    (links.inserted number destination).Forest size := by
  refine ⟨?_, ?_, ?_⟩
  · exact bounded_set (bounded_set (bounded_set forest.bounded inside)
      (forest.bounded .child destination)) numberInside
  · intro k kInside
    obtain ⟨_, reached⟩ := forest.rooted destination inside
    obtain ⟨_, reached'⟩ := forest.rooted k kInside
    rw [inserted_parent]
    exact rooted_update (rooted_update_of_not_below reached different apart) reached'
  · intro parent parentNonzero parentInside
    obtain ⟨members, chain, distinct, known⟩ := forest.chains parent parentNonzero parentInside
    have absent :=
      forest.not_mem_chain (free ▸ Ne.symm parentNonzero) parentNonzero parentInside chain
    rw [inserted_parent]
    by_cases same : parent = destination
    · subst same
      refine ⟨number :: members,
        forest.chain_inserted_self free numberNonzero parentNonzero parentInside chain,
        List.nodup_cons.2 ⟨absent, distinct⟩, ?_⟩
      intro k
      by_cases equal : k = number
      · subst equal
        simp [numberNonzero, numberInside]
      · rw [List.mem_cons, Function.update_of_ne equal, ← known k]
        exact or_iff_right equal
    · refine ⟨members, forest.chain_inserted_of_ne free parentNonzero parentInside same chain,
        distinct, ?_⟩
      intro k
      by_cases equal : k = number
      · subst equal
        rw [Function.update_self]
        exact ⟨fun member => absurd member absent, fun known => absurd known.2.2.symm same⟩
      · rw [Function.update_of_ne equal]
        exact known k

end Forest

/-! ## Removing -/

/-- The links after an object that is the first child of its parent was taken
out. -/
def removedFirst (links : Links) (parent number : UInt16) : Links :=
  ((links.set .child parent (links .sibling number)).set .parent number 0).set .sibling number 0

/-- The links after an object that follows another was taken out. -/
def removedAfter (links : Links) (before number : UInt16) : Links :=
  ((links.set .sibling before (links .sibling number)).set .parent number 0).set .sibling number 0

namespace Forest

variable {parent before : UInt16} {members : List UInt16}

theorem chain_removedFirst (forest : links.Forest size) (numberNonzero : number ≠ 0)
    (first : links .child (links .parent number) = number) (nonzero : parent ≠ 0)
    (inside : parent.toNat ≤ size) (chain : links.Chain parent members) :
    (links.removedFirst (links .parent number) number).Chain parent (members.erase number) := by
  obtain ⟨distinct, known⟩ := forest.chain nonzero inside chain
  have child : links.removedFirst (links .parent number) number .child =
      Function.update (links .child) (links .parent number) (links .sibling number) := by
    simp [removedFirst]
  have sibling : links.removedFirst (links .parent number) number .sibling =
      Function.update (links .sibling) number 0 := by
    simp [removedFirst]
  simp only [Chain] at chain ⊢
  rw [child, sibling]
  by_cases same : parent = links .parent number
  · subst same
    rw [first] at chain
    rw [Function.update_self]
    cases chain with
    | stop => exact absurd rfl numberNonzero
    | step _ walk =>
        rw [List.erase_cons_head]
        exact walk.update (List.nodup_cons.1 distinct).1
  · have absent : number ∉ members := fun member => same ((known number).1 member).2.2.symm
    rw [Function.update_of_ne same, List.erase_of_not_mem absent]
    exact Walk.update chain absent

theorem chain_removedAfter (forest : links.Forest size) (numberNonzero : number ≠ 0)
    (beforeNonzero : before ≠ 0) (beforeInside : before.toNat ≤ size)
    (follows : links .sibling before = number)
    (sameParent : links .parent before = links .parent number)
    (nonzero : parent ≠ 0) (inside : parent.toNat ≤ size) (chain : links.Chain parent members) :
    (links.removedAfter before number).Chain parent (members.erase number) := by
  obtain ⟨distinct, known⟩ := forest.chain nonzero inside chain
  have child : links.removedAfter before number .child = links .child := by
    simp [removedAfter]
  have sibling : links.removedAfter before number .sibling =
      Function.update (Function.update (links .sibling) before (links .sibling number))
        number 0 := by
    simp [removedAfter]
  simp only [Chain] at chain ⊢
  rw [child, sibling]
  by_cases same : parent = links .parent number
  · have member := (known before).2 ⟨beforeNonzero, beforeInside, sameParent.trans same.symm⟩
    exact chain.unlink distinct member follows numberNonzero
  · have absent : number ∉ members := fun member => same ((known number).1 member).2.2.symm
    have absent' : before ∉ members :=
      fun member => same (((known before).1 member).2.2.symm.trans sameParent)
    rw [List.erase_of_not_mem absent]
    exact (Walk.update chain absent').update absent

/-- Links keep a forest when one object loses its parent and is erased from the
chains. -/
theorem of_erased {changed : Links} (forest : links.Forest size)
    (bounded : ∀ link k, (changed link k).toNat ≤ size)
    (parents : changed .parent = Function.update (links .parent) number 0)
    (chains : ∀ {parent members}, parent ≠ 0 → parent.toNat ≤ size →
      links.Chain parent members → changed.Chain parent (members.erase number)) :
    changed.Forest size := by
  refine ⟨bounded, ?_, ?_⟩
  · intro k kInside
    obtain ⟨_, reached⟩ := forest.rooted k kInside
    rw [parents]
    exact rooted_update ⟨0, rfl⟩ reached
  · intro parent nonzero inside
    obtain ⟨members, chain, distinct, known⟩ := forest.chains parent nonzero inside
    refine ⟨members.erase number, chains nonzero inside chain, distinct.erase number, ?_⟩
    intro k
    rw [distinct.mem_erase_iff, parents]
    by_cases equal : k = number
    · subst equal
      rw [Function.update_self]
      exact ⟨fun member => absurd rfl member.1, fun known => absurd known.2.2.symm nonzero⟩
    · rw [Function.update_of_ne equal, ← known k]
      exact and_iff_right equal

end Forest

end Links

end StoryMachine
