import ObjectLink.Core.AnyCapacity

/-!
# Nodes that register themselves

A node registers itself when it is created and unregisters itself when it is destroyed, on either
side (`clientnode.h:29`, `remotenode.h:26`). The storage may be full at that time; then the node
goes on with the invalid id.

Results:
* `OwnIds`: whatever is stored is a live node under the id it has; `OwnIds.created` and
  `OwnIds.destroyed` for the two changes.
* `Registrations`: in addition a live node is stored under its id, or it has the invalid one;
  `Registrations.add_cases` and `Registrations.remove` for a storage that may be full.
-/

namespace ObjectLink

/-- **Whatever is stored is a live node under the id it has.** Nodes from `nextNode` on have not
been created. -/
structure OwnIds (get : Nat → Option NodeRef) (alive : NodeRef → Bool) (nodeId : NodeRef → Nat)
    (nextNode : NodeRef) : Prop where
  stored : ∀ k n, get k = some n → alive n = true ∧ nodeId n = k
  fresh : ∀ n, nextNode ≤ n → alive n = false

namespace OwnIds

variable {get get' : Nat → Option NodeRef} {alive : NodeRef → Bool} {nodeId : NodeRef → Nat}
  {nextNode n m : NodeRef} {id k : Nat}

variable (hi : OwnIds get alive nodeId nextNode)
include hi

theorem ne_nextNode (hk : get k = some m) : m ≠ nextNode := by
  rintro rfl
  have hm := (hi.stored k _ hk).1
  rw [hi.fresh _ (Nat.le_refl _)] at hm
  cases hm

/-- A new node that is not stored. -/
theorem created_unstored (id : Nat) (hget : ∀ k, get' k = get k) :
    OwnIds get' (fun m => if m = nextNode then true else alive m)
      (fun m => if m = nextNode then id else nodeId m) (nextNode + 1) := by
  refine ⟨?_, ?_⟩
  · intro k m hk
    rw [hget] at hk
    rw [if_neg (hi.ne_nextNode hk), if_neg (hi.ne_nextNode hk)]
    exact hi.stored k m hk
  · intro m hm
    rw [if_neg (Nat.ne_of_gt hm)]
    exact hi.fresh m (Nat.le_of_lt hm)

/-- **A new node** that is stored under its id. -/
theorem created (hget : ∀ k, get' k = if k = id then some nextNode else get k) :
    OwnIds get' (fun m => if m = nextNode then true else alive m)
      (fun m => if m = nextNode then id else nodeId m) (nextNode + 1) := by
  refine ⟨?_, (hi.created_unstored id fun _ => rfl).fresh⟩
  intro k m hk
  rw [hget] at hk
  split at hk
  · rename_i hki
    cases hk
    exact ⟨if_pos rfl, by rw [if_pos rfl, hki]⟩
  · exact (hi.created_unstored id fun _ => rfl).stored k m hk

omit hi in
/-- It takes the id of no other node. -/
theorem get_created (hfree : get id = none)
    (hget : ∀ k, get' k = if k = id then some nextNode else get k) (hk : get k = some m) :
    get' k = some m := by
  rw [hget, if_neg, hk]
  rintro rfl
  rw [hfree] at hk
  cases hk

/-- What is stored once the id of a node has been taken out. -/
theorem get_destroyed (hn : get (nodeId n) = some n)
    (hget : ∀ k, get' k = if k = nodeId n then none else get k) :
    get' k = some m ↔ m ≠ n ∧ get k = some m := by
  rw [hget]
  split
  · rename_i hk
    rw [hk, hn]
    simp [eq_comm]
  · rename_i hk
    rw [iff_and_self]
    rintro hm rfl
    exact hk (hi.stored k m hm).2.symm

/-- **A node that is gone**, and stored no more. -/
theorem destroyed (hget : ∀ k m, get' k = some m → m ≠ n ∧ get k = some m) :
    OwnIds get' (fun m => if m = n then false else alive m) nodeId nextNode := by
  refine ⟨?_, ?_⟩
  · intro k m hk
    obtain ⟨hmn, hk⟩ := hget k m hk
    rw [if_neg hmn]
    exact hi.stored k m hk
  · intro m hm
    split
    · rfl
    · exact hi.fresh m hm

end OwnIds

/-- **A live node is stored under its id, or it has the invalid one**, and nothing else is
stored. -/
structure Registrations (maxCount : Nat) (storage : UniqueIdObjectStorage NodeRef)
    (alive : NodeRef → Bool) (nodeId : NodeRef → Nat) (nextNode : NodeRef) : Prop
    extends OwnIds storage.get alive nodeId nextNode where
  sized : storage.Sized maxCount
  registered : ∀ n, alive n = true → nodeId n = invalidId ∨ storage.get (nodeId n) = some n

namespace Registrations

variable {maxCount id k : Nat} {storage storage' : UniqueIdObjectStorage NodeRef}
  {alive : NodeRef → Bool} {nodeId : NodeRef → Nat} {nextNode n m : NodeRef}

theorem new (halive : ∀ n, alive n = false) :
    Registrations maxCount (.new maxCount) alive nodeId nextNode := by
  refine ⟨⟨?_, fun n _ => halive n⟩, UniqueIdObjectStorage.sized_new maxCount, ?_⟩
  · intro k n hk
    rw [UniqueIdObjectStorage.get_new] at hk
    cases hk
  · intro n hn
    rw [halive n] at hn
    cases hn

variable (hi : Registrations maxCount storage alive nodeId nextNode)
include hi

theorem get_invalidId : storage.get invalidId = none := by
  cases h : storage.get invalidId with
  | none => rfl
  | some n => exact absurd rfl (hi.sized.valid _ n h)

/-- **A new node** is stored under a free valid id, or it gets the invalid one. The purge of a full
storage takes no node away, since only live ones are stored. -/
theorem add_cases : ∃ id storage', storage.add (fun m => if m = nextNode then true else alive m)
      (some nextNode) = (id, storage') ∧
    Registrations maxCount storage' (fun m => if m = nextNode then true else alive m)
      (fun m => if m = nextNode then id else nodeId m) (nextNode + 1) ∧
    (id = invalidId ∨ storage.get id = none) ∧
    ∀ k n, storage.get k = some n → storage'.get k = some n := by
  obtain ⟨id, storage', hadd, hsized, hcases⟩ := UniqueIdObjectStorage.add_new_among_live
    (fun m => if m = nextNode then true else alive m) hi.sized (if_pos rfl)
    (fun k m hm => ite_eq_left_iff.mpr fun _ => (hi.stored k m hm).1)
    (fun k hk => hi.ne_nextNode hk rfl)
  rcases hcases with ⟨hid, hget⟩ | ⟨-, hfree, hget⟩
  · refine ⟨id, storage', hadd, ⟨hi.created_unstored id hget, hsized, ?_⟩, Or.inl hid,
      fun k n hk => (hget k).trans hk⟩
    intro m hm
    by_cases hmn : m = nextNode
    · rw [if_pos hmn]
      exact Or.inl hid
    · rw [if_neg hmn] at hm ⊢
      exact (hi.registered m hm).imp_right fun h => (hget _).trans h
  · refine ⟨id, storage', hadd, ⟨hi.created hget, hsized, ?_⟩, Or.inr hfree,
      fun k n hk => OwnIds.get_created hfree hget hk⟩
    intro m hm
    by_cases hmn : m = nextNode
    · rw [if_pos hmn, hget, if_pos rfl, hmn]
      exact Or.inr rfl
    · rw [if_neg hmn] at hm ⊢
      exact (hi.registered m hm).imp_right fun h => OwnIds.get_created hfree hget h

/-- What is stored once a live node has been taken out, which for the invalid id is not needed. -/
theorem get_remove (hn : alive n = true) (hinvalid : nodeId n = invalidId → storage' = storage)
    (hvalid : nodeId n ≠ invalidId → storage' = storage.remove (nodeId n)) :
    storage'.get k = some m ↔ m ≠ n ∧ storage.get k = some m := by
  by_cases hid : nodeId n = invalidId
  · rw [hinvalid hid, iff_and_self]
    rintro hk rfl
    exact hi.sized.valid k m hk ((hi.stored k m hk).2.symm.trans hid)
  · rw [hvalid hid]
    exact hi.get_destroyed ((hi.registered n hn).resolve_left hid)
      fun _ => UniqueIdObjectStorage.get_remove

theorem remove (hn : alive n = true) (hinvalid : nodeId n = invalidId → storage' = storage)
    (hvalid : nodeId n ≠ invalidId → storage' = storage.remove (nodeId n)) :
    Registrations maxCount storage' (fun m => if m = n then false else alive m) nodeId
      nextNode := by
  refine ⟨hi.destroyed fun k m => (hi.get_remove hn hinvalid hvalid).mp, ?_, ?_⟩
  · by_cases hid : nodeId n = invalidId
    · exact hinvalid hid ▸ hi.sized
    · exact hvalid hid ▸ UniqueIdObjectStorage.sized_remove hi.sized _
  · intro m hm
    split at hm
    · cases hm
    · rename_i hmn
      exact (hi.registered m hm).imp_right fun h =>
        (hi.get_remove hn hinvalid hvalid).mpr ⟨hmn, h⟩

end Registrations

end ObjectLink
