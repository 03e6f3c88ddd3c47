import ObjectLink.Core.StorageRuns

/-!
# When the id storage is full

`add` (`uniqueidobjectstorage.h:38-62`) compares the number of entries with `maxCount` twice, the
second time after it has purged the expired ones (`:110-120`), and draws a number with the search
of `getUniqueIdLocked` (`:126-153`). The search has two exits that give up. Neither is ever taken:
as long as an entry is missing a number below `maxCount` is free, and the counter passes it before
it is back where it started.

Results:
* `search_of_room`: the search ends within `maxCount` rounds, at a free number.
* `add_of_liveCount_lt`: a live object is stored as long as fewer than `maxCount` live ones are.
* `refused_add`: an `add` that fails had an expired reference or found `maxCount` live objects, and
  leaves the live entries, the set of numbers and the counter alone.
* `allocation_complete`: all of it, in every state a storage can reach.
-/

namespace ObjectLink

open Foundation (Machine Run run_play)

namespace UniqueIdObjectStorage

variable {Obj : Type} {alive : Obj → Bool} {s s' : UniqueIdObjectStorage Obj} {o : Obj}
  {id k : Nat}

/-- How many entries hold a live object. -/
def liveCount (alive : Obj → Bool) (s : UniqueIdObjectStorage Obj) : Nat :=
  (s.objects.filter fun _ o => alive o).size

theorem liveCount_le (alive : Obj → Bool) (s : UniqueIdObjectStorage Obj) :
    s.liveCount alive ≤ s.objects.size :=
  Std.ExtTreeMap.size_filter_le_size

theorem size_purgeExpired : (s.purgeExpired alive).objects.size = s.liveCount alive := rfl

/-- **`add` has room** exactly if fewer than `maxCount` live objects are stored: where the expired
entries stand in the way it purges them. -/
theorem room_size_lt_iff (hle : s.objects.size ≤ s.maxCount) :
    (s.room alive).objects.size < s.maxCount ↔ s.liveCount alive < s.maxCount := by
  unfold room
  split
  · rw [size_purgeExpired]
  · rename_i hsize
    have hlive := liveCount_le alive s
    omega

/-- **The search** is run when there is room. It ends within `maxCount` rounds, and at a free
number: neither of the exits that give up is taken. -/
theorem search_of_room (hw : s.Wf) (hroom : s.objects.size < s.maxCount) :
    ∃ c, s.search s.counter s.maxCount s.counter = some (true, c) ∧ c < s.maxCount ∧
      c ∉ s.objects := by
  obtain ⟨c, hc⟩ := search_finds hw.counted hroom
  exact ⟨c, hc, search_free (hw.counter_lt (by omega)) hc⟩

/-- What the purge of a full storage keeps: the counter, and no number that was not in use. -/
theorem room_keeps (alive : Obj → Bool) (s : UniqueIdObjectStorage Obj) :
    (s.room alive).counter = s.counter ∧ (s.room alive).overflowed = s.overflowed ∧
      ∀ k ∈ (s.room alive).objects, k ∈ s.objects := by
  unfold room
  split
  · exact ⟨rfl, rfl, fun k hk => Std.ExtTreeMap.mem_of_mem_filter hk⟩
  · exact ⟨rfl, rfl, fun _ hk => hk⟩

variable [DecidableEq Obj] {object : WeakPtr Obj}

/-- **A live object is stored** as long as fewer than `maxCount` live ones are, wherever the
counter stands and however many entries have expired. -/
theorem add_of_liveCount_lt (hw : s.Wf) (ho : alive o = true)
    (hlive : s.liveCount alive < s.maxCount) (hadd : s.add alive (some o) = (id, s')) :
    id ≠ invalidId ∧ s'.get id = some o := by
  have hlock : WeakPtr.lock alive (some o) = some o := WeakPtr.lock_eq_some.mpr ⟨rfl, ho⟩
  have hroom := (room_size_lt_iff hw.size_le).mpr hlive
  have hmax := hw.maxCount_le
  have hout := add_outcome alive hw (some o)
  rw [hadd] at hout
  cases hout with
  | expired hnone =>
    rw [hlock] at hnone
    cases hnone
  | full _ hfull => omega
  | found ho' hget =>
    rw [hlock] at ho'
    cases ho'
    have hlt := hw.lt_of_get (get_of_get_room hget)
    exact ⟨by omega, hget⟩
  | stored ho' _ hlt _ _ _ hget =>
    rw [hlock] at ho'
    cases ho'
    exact ⟨by omega, by rw [hget, if_pos rfl]⟩

/-- **An `add` that fails** was given an expired reference, or `maxCount` live objects are stored;
it issues no number and moves no live object. -/
theorem refused_add (hw : s.Wf) (hadd : s.add alive object = (invalidId, s')) :
    (object.lock alive = none ∨ s.liveCount alive = s.maxCount) ∧
      (∀ k, (s'.get k).lock alive = (s.get k).lock alive) ∧ (∀ k ∈ s'.objects, k ∈ s.objects) ∧
      s'.counter = s.counter ∧ s'.overflowed = s.overflowed := by
  have hmax := hw.maxCount_le
  have hget : ∀ k, ((s.room alive).get k).lock alive = (s.get k).lock alive := fun k => by
    refine Option.ext fun x => ?_
    rw [WeakPtr.lock_eq_some, WeakPtr.lock_eq_some]
    exact and_congr_left fun hx => get_room_iff hx
  obtain ⟨hcounter, hover, hkeys⟩ := room_keeps alive s
  have hout := add_outcome alive hw object
  rw [hadd] at hout
  cases hout with
  | expired hnone => exact ⟨Or.inl hnone, fun _ => rfl, fun _ hk => hk, rfl, rfl⟩
  | full _ hfull =>
    refine ⟨Or.inr ?_, hget, hkeys, hcounter, hover⟩
    have hle := hw.size_le
    have hlive := liveCount_le alive s
    have hroom : (s.room alive).objects.size < s.maxCount ↔ s.liveCount alive < s.maxCount :=
      room_size_lt_iff hw.size_le
    omega
  | found _ hfound =>
    have hlt := hw.lt_of_get (get_of_get_room hfound)
    omega
  | stored _ _ hlt _ _ _ _ => omega

/-- **Allocation over whole runs.** In every state a storage of capacity `maxCount` can reach:
* a live object that is not stored gets a number of its own as long as fewer than `maxCount` live
  objects are stored;
* whenever `add` has room, after the purge of a full storage, the search ends within `maxCount`
  rounds at a free number;
* an `add` that returns the invalid id was given an expired reference or found `maxCount` live
  objects, and neither moves a live object nor issues a number. -/
theorem allocation_complete {maxCount : Nat} (hmax : maxCount ≤ invalidId)
    {h : List (Holding Obj × Action Obj)} {t : Holding Obj}
    (hr : Run (machine Obj maxCount) h t) :
    (∀ o, t.alive o = true → (∀ k, t.storage.get k ≠ some o) →
      t.storage.liveCount t.alive < maxCount → ∀ id s', t.storage.add t.alive (some o) = (id, s') →
      id ≠ invalidId ∧ id < maxCount ∧ s'.get id = some o) ∧
    ((t.storage.room t.alive).objects.size ≠ maxCount →
      let s := t.storage.room t.alive
      ∃ c, s.search s.counter maxCount s.counter = some (true, c) ∧ c < maxCount ∧
        c ∉ s.objects) ∧
    ∀ object s', t.storage.add t.alive object = (invalidId, s') →
      (object.lock t.alive = none ∨ t.storage.liveCount t.alive = maxCount) ∧
      (∀ k, (s'.get k).lock t.alive = (t.storage.get k).lock t.alive) ∧
      (∀ k ∈ s'.objects, k ∈ t.storage.objects) ∧
      s'.counter = t.storage.counter ∧ s'.overflowed = t.storage.overflowed := by
  have hi := inv_run hmax h t hr
  refine ⟨?_, ?_, ?_⟩
  · intro o ho _ hlive id s' hadd
    rw [← hi.maxCount_eq] at hlive
    obtain ⟨hid, hget⟩ := add_of_liveCount_lt hi.wf ho hlive hadd
    have hw : s'.Wf := by
      have hwf : (t.storage.add t.alive (some o)).2.Wf := wf_add hi.wf (some o)
      rwa [hadd] at hwf
    have hmax' : s'.maxCount = t.storage.maxCount := by
      have hmax : (t.storage.add t.alive (some o)).2.maxCount = t.storage.maxCount :=
        add_maxCount hi.wf (some o)
      rwa [hadd] at hmax
    have hlt := hw.lt_of_get hget
    rw [hmax', hi.maxCount_eq] at hlt
    exact ⟨hid, hlt, hget⟩
  · intro hsize
    have hw := wf_room hi.wf t.alive
    have hle := hw.size_le
    rw [room_maxCount, hi.maxCount_eq] at hle
    have hfind := search_of_room hw (by rw [room_maxCount, hi.maxCount_eq]; omega)
    rwa [room_maxCount, hi.maxCount_eq] at hfind
  · intro object s' hadd
    rw [← hi.maxCount_eq]
    exact refused_add hi.wf hadd

/-- The second object finds the storage for one object full, and gets no number. -/
theorem allocation_complete_oneSlot :
    let t := next oneSlot (.add (some 0))
    (∀ s', t.storage.add t.alive (some 1) = (invalidId, s') →
      t.storage.liveCount t.alive = 1) ∧
    (t.storage.add t.alive (some 1)).1 = invalidId := by
  refine ⟨?_, by decide +kernel⟩
  intro s' hadd
  rcases ((allocation_complete (by decide) run_oneSlot).2.2 _ _ hadd).1 with hnone | hfull
  · cases hnone
  · exact hfull

end UniqueIdObjectStorage

end ObjectLink
