import ObjectLink.Core.Allocation

/-!
# The id storage of any capacity

The capacity is an `unsigned long` (`uniqueidobjectstorage.h:26`), which may be larger than the
number of valid ids. Then the invalid id is drawn in its turn, and `add` refuses the object although
there is room (`:58-59`). This file says of a storage of any capacity what `Wf` says of those with
no more room than valid ids.

Results:
* `Sized`: the invariant, kept by every operation (`sized_add` to `sized_run`).
* `add_locked`: all that `add` can do to a live object; `add_new_among_live`: the same where only
  live objects are stored.
-/

namespace ObjectLink

open Foundation (Machine Run)

namespace UniqueIdObjectStorage

variable {Obj : Type} {alive : Obj → Bool} {s : UniqueIdObjectStorage Obj} {o : Obj}
  {k maxCount : Nat}

/-- What every operation keeps, whatever the capacity. -/
structure Sized (maxCount : Nat) (s : UniqueIdObjectStorage Obj) : Prop where
  maxCount_eq : s.maxCount = maxCount
  counted : s.Counted
  valid : ∀ k o, s.get k = some o → k ≠ invalidId
  distinct : s.Distinct

theorem Sized.size_le (hs : s.Sized maxCount) : s.objects.size ≤ maxCount :=
  hs.maxCount_eq ▸ hs.counted.size_le

theorem sized_new (maxCount : Nat) : (new maxCount : UniqueIdObjectStorage Obj).Sized maxCount where
  maxCount_eq := rfl
  counted := counted_new maxCount
  valid k o h := by
    rw [get_new] at h
    cases h
  distinct := distinct_new maxCount

theorem sized_remove (hs : s.Sized maxCount) (id : Nat) : (s.remove id).Sized maxCount where
  maxCount_eq := hs.maxCount_eq
  counted := hs.counted.of_subset fun _ hk => Std.ExtTreeMap.mem_of_mem_erase hk
  valid k o h := hs.valid k o (get_of_get_remove h)
  distinct := hs.distinct.of_get fun _ _ => get_of_get_remove

theorem sized_purgeExpired (hs : s.Sized maxCount) (alive : Obj → Bool) :
    (s.purgeExpired alive).Sized maxCount where
  maxCount_eq := hs.maxCount_eq
  counted := hs.counted.of_subset fun _ hk => Std.ExtTreeMap.mem_of_mem_filter hk
  valid k o h := hs.valid k o (get_purgeExpired.mp h).1
  distinct := hs.distinct.of_get fun _ _ h => (get_purgeExpired.mp h).1

theorem sized_room (hs : s.Sized maxCount) (alive : Obj → Bool) :
    (s.room alive).Sized maxCount := by
  unfold room
  split
  · exact sized_purgeExpired hs alive
  · exact hs

variable [DecidableEq Obj]

/-- **All that the end of `add` can do** where there is room, the result and the storage it
leaves. With more room than there are valid numbers the number drawn may be the invalid id. -/
inductive LockedOutcome (s : UniqueIdObjectStorage Obj) (o : Obj) :
    Nat × UniqueIdObjectStorage Obj → Prop
  | found {id : Nat} : s.get id = some o → LockedOutcome s o (id, s)
  | refused {s' : UniqueIdObjectStorage Obj} : (∀ k, s.get k ≠ some o) → s'.Counted →
      s'.maxCount = s.maxCount → (∀ k, s'.get k = s.get k) → LockedOutcome s o (invalidId, s')
  | stored {id : Nat} {s' : UniqueIdObjectStorage Obj} : (∀ k, s.get k ≠ some o) → s'.Counted →
      s'.maxCount = s.maxCount → id ≠ invalidId → s.get id = none →
      (∀ k, s'.get k = if k = id then some o else s.get k) → LockedOutcome s o (id, s')

theorem addLocked_outcome (hc : s.Counted) (hroom : s.objects.size < s.maxCount)
    (ho : alive o = true) : LockedOutcome s o (s.addLocked alive o) := by
  obtain ⟨-, hfree, hobj, hmax, -, -⟩ := getUniqueIdLocked_spec hc hroom
  have hdraw := counted_draw hc hroom
  have hstore := counted_store (o := o) hc hroom
  unfold addLocked
  cases hfind : s.findObject alive o with
  | some id => exact .found (findObject_eq_some hfind)
  | none =>
    have hnew : ∀ k, s.get k ≠ some o := fun k => findObject_eq_none ho hfind
    dsimp only
    generalize s.getUniqueIdLocked = drawn at hfree hobj hmax hdraw hstore
    obtain ⟨id, s'⟩ := drawn
    dsimp only at hfree hobj hmax hdraw hstore ⊢
    by_cases hid : id = invalidId
    · rw [if_pos hid]
      exact .refused hnew hdraw hmax fun k => congrArg (fun m => m[k]?) hobj
    · rw [if_neg hid]
      refine .stored hnew hstore hmax hid (Std.ExtTreeMap.getElem?_eq_none hfree) fun k => ?_
      unfold get
      rw [Foundation.find_insert, hobj]

/-- The same for `add` of a live object, after the purge. -/
theorem add_locked (hs : s.Sized maxCount) (ho : alive o = true) :
    ((s.room alive).objects.size = s.maxCount ∧
      s.add alive (some o) = (invalidId, s.room alive)) ∨
    ((s.room alive).objects.size < s.maxCount ∧
      LockedOutcome (s.room alive) o (s.add alive (some o))) := by
  have hroom := sized_room hs alive
  have hle := hroom.size_le
  rw [add_eq (WeakPtr.lock_eq_some.mpr ⟨rfl, ho⟩)]
  by_cases hfull : (s.room alive).objects.size = s.maxCount
  · exact Or.inl ⟨hfull, if_pos hfull⟩
  · have hlt : (s.room alive).objects.size < s.maxCount := by
      rw [hs.maxCount_eq] at hfull ⊢
      omega
    rw [if_neg hfull]
    exact Or.inr ⟨hlt, addLocked_outcome hroom.counted (by rwa [room_maxCount]) ho⟩

omit [DecidableEq Obj] in
/-- Storing an object that is not stored yet. -/
theorem Sized.of_locked (hs : s.Sized maxCount) {r : Nat × UniqueIdObjectStorage Obj}
    (hout : LockedOutcome s o r) : r.2.Sized maxCount := by
  obtain ⟨hmax, hc, hvalid, hd⟩ := hs
  cases hout with
  | found _ => exact ⟨hmax, hc, hvalid, hd⟩
  | refused _ hc' hmax' hget =>
    refine ⟨hmax'.trans hmax, hc', ?_, hd.of_get ?_⟩
    · intro k x h
      exact hvalid k x (hget k ▸ h)
    · intro k x h
      exact hget k ▸ h
  | stored hnew hc' hmax' hid _ hget =>
    refine ⟨hmax'.trans hmax, hc', ?_, ?_⟩
    · intro k x h
      rw [hget] at h
      split at h
      · rename_i hk
        rwa [hk]
      · exact hvalid k x h
    · intro i j x hi hj
      rw [hget] at hi hj
      split at hi <;> split at hj
      · rename_i hii hji
        rw [hii, hji]
      · cases hi
        exact absurd hj (hnew j)
      · cases hj
        exact absurd hi (hnew i)
      · exact hd i j x hi hj

theorem sized_add (hs : s.Sized maxCount) (alive : Obj → Bool) (object : WeakPtr Obj) :
    (s.add alive object).2.Sized maxCount := by
  cases ho : object.lock alive with
  | none =>
    unfold add
    rw [ho]
    exact hs
  | some o =>
    obtain ⟨rfl, halive⟩ := WeakPtr.lock_eq_some.mp ho
    have hroom := sized_room hs alive
    rcases add_locked hs halive with ⟨-, heq⟩ | ⟨-, hout⟩
    · rw [heq]
      exact hroom
    · exact hroom.of_locked hout

/-- **A new object** among live ones is stored under a free valid number, or it gets none, and
nothing else changes. -/
theorem add_new_among_live (alive : Obj → Bool) (hs : s.Sized maxCount) (ho : alive o = true)
    (hlive : ∀ k x, s.get k = some x → alive x = true) (hnew : ∀ k, s.get k ≠ some o) :
    ∃ id s', s.add alive (some o) = (id, s') ∧ s'.Sized maxCount ∧
      ((id = invalidId ∧ ∀ k, s'.get k = s.get k) ∨
        (id ≠ invalidId ∧ s.get id = none ∧
          ∀ k, s'.get k = if k = id then some o else s.get k)) := by
  have hroom : ∀ k, (s.room alive).get k = s.get k := fun k => by
    refine Option.ext fun x => ⟨get_of_get_room, fun h => ?_⟩
    exact (get_room_iff (hlive k x h)).mpr h
  have hsized := sized_add hs alive (some o)
  rcases add_locked hs ho with ⟨-, heq⟩ | ⟨-, hout⟩
  · rw [heq] at hsized
    exact ⟨_, _, heq, hsized, Or.inl ⟨rfl, hroom⟩⟩
  · generalize s.add alive (some o) = r at hout hsized
    cases hout with
    | found hid => exact absurd (hroom _ ▸ hid) (hnew _)
    | refused _ _ _ hget =>
      exact ⟨_, _, rfl, hsized, Or.inl ⟨rfl, fun k => (hget k).trans (hroom k)⟩⟩
    | stored _ _ _ hid hfree hget =>
      refine ⟨_, _, rfl, hsized, Or.inr ⟨hid, hroom _ ▸ hfree, fun k => ?_⟩⟩
      rw [hget, hroom]

theorem sized_run {h : List (Holding Obj × Action Obj)} {t : Holding Obj}
    (hr : Run (machine Obj maxCount) h t) : t.storage.Sized maxCount := by
  refine hr.invariant (I := fun t => t.storage.Sized maxCount) ?_ ?_
  · intro t ht
    have hnew : t.storage = new maxCount := ht
    exact hnew ▸ sized_new maxCount
  · intro t a hs _
    cases a with
    | add object => exact sized_add hs t.alive object
    | remove id => exact sized_remove hs id
    | purgeExpired => exact sized_purgeExpired hs t.alive
    | get id => exact hs
    | expire o => exact hs

end UniqueIdObjectStorage

end ObjectLink
