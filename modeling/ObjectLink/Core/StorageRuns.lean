import ObjectLink.Core.UniqueIdObjectStorage
import ObjectLink.Foundation.Machine

/-!
# Runs of the id storage

A `UniqueIdObjectStorage` of any capacity, used in any way while the stored objects expire one
after the other: the machine `machine maxCount`, whose actions are the public operations and
`expire`. An object that has expired never comes back.

Results:
* `storage_runs`: the representation invariant over whole runs, and that `get` yields the object a
  number was issued to until the object expires or the number is removed.
* `add_reissues_key`: the number may have been a key before, in a full storage with an expired
  entry.
-/

namespace ObjectLink

open Foundation (Machine Run Since run_play)

namespace UniqueIdObjectStorage

variable {Obj : Type} [DecidableEq Obj] {o : Obj} {id : Nat}

/-! ## Runs -/

/-- A storage, and which objects are alive. -/
structure Holding (Obj : Type) where
  storage : UniqueIdObjectStorage Obj
  alive : Obj → Bool

/-- What can happen to it. -/
inductive Action (Obj : Type) where
  | add (object : WeakPtr Obj)
  | remove (id : Nat)
  | get (id : Nat)
  | purgeExpired
  | expire (o : Obj)

/-- The storage after it, and what is alive then. -/
def next (t : Holding Obj) : Action Obj → Holding Obj
  | .add object => { t with storage := (t.storage.add t.alive object).2 }
  | .remove id => { t with storage := t.storage.remove id }
  | .get _ => t
  | .purgeExpired => { t with storage := t.storage.purgeExpired t.alive }
  | .expire o => { t with alive := fun x => if x = o then false else t.alive x }

/-- Any use of a storage of the given capacity, with any objects alive at the start. -/
def machine (Obj : Type) [DecidableEq Obj] (maxCount : Nat) : Machine (Holding Obj) (Action Obj)
    where
  init t := t.storage = new maxCount
  enabled _ _ := True
  next := next

/-- Anything can happen at any time. -/
theorem plays {maxCount : Nat} :
    ∀ (t : Holding Obj) (as : List (Action Obj)), (machine Obj maxCount).Plays t as
  | _, [] => trivial
  | _, _ :: as => ⟨trivial, plays _ as⟩

/-- The invariant of a storage in use. -/
structure Inv (maxCount : Nat) (t : Holding Obj) : Prop where
  wf : t.storage.Wf
  maxCount_eq : t.storage.maxCount = maxCount
  distinct : t.storage.Distinct

theorem inv_init {maxCount : Nat} (hmax : maxCount ≤ invalidId) {t : Holding Obj}
    (ht : (machine Obj maxCount).init t) : Inv maxCount t := by
  have hnew : t.storage = new maxCount := ht
  exact ⟨hnew ▸ wf_new hmax, by rw [hnew]; rfl, hnew ▸ distinct_new maxCount⟩

theorem inv_next {maxCount : Nat} {t : Holding Obj} (hi : Inv maxCount t) (a : Action Obj) :
    Inv maxCount (next t a) := by
  obtain ⟨hw, hmax, hd⟩ := hi
  cases a with
  | add object =>
    exact ⟨wf_add hw object, (add_maxCount hw object).trans hmax, distinct_add _ hw hd object⟩
  | remove id =>
    exact ⟨wf_remove hw id, hmax, hd.of_get fun _ _ => get_of_get_remove⟩
  | get id => exact ⟨hw, hmax, hd⟩
  | purgeExpired =>
    exact ⟨wf_purgeExpired hw _, hmax, hd.of_get fun _ _ h => (get_purgeExpired.mp h).1⟩
  | expire o => exact ⟨hw, hmax, hd⟩

theorem inv_run {maxCount : Nat} (hmax : maxCount ≤ invalidId)
    (h : List (Holding Obj × Action Obj)) (t : Holding Obj) (hr : Run (machine Obj maxCount) h t) :
    Inv maxCount t :=
  hr.invariant (fun _ hs => inv_init hmax hs) fun _ a hi _ => inv_next hi a

/-- `add` issued the number `id` to `o`, newly or not. -/
def Issued (id : Nat) (o : Obj) (x : Holding Obj × Action Obj) : Prop :=
  x.2 = .add (some o) ∧ (x.1.storage.add x.1.alive (some o)).1 = id ∧ id ≠ invalidId

/-- The number is removed, or the object expires. -/
def Ended (id : Nat) (o : Obj) (x : Holding Obj × Action Obj) : Prop :=
  x.2 = .remove id ∨ x.2 = .expire o

/-- **One step** issues the number to a live object, or leaves it as it was. -/
theorem lock_get_next {maxCount : Nat} {t : Holding Obj} (hi : Inv maxCount t) (a : Action Obj) :
    ((next t a).storage.get id).lock (next t a).alive = some o ↔
      Issued id o (t, a) ∨ ((t.storage.get id).lock t.alive = some o ∧ ¬ Ended id o (t, a)) := by
  have hw := hi.wf
  rw [WeakPtr.lock_eq_some, WeakPtr.lock_eq_some]
  cases a with
  | add object =>
    have hne : ¬ Ended id o (t, .add object) := by rintro (h | h) <;> cases h
    have hadd : t.storage.add t.alive object
        = ((t.storage.add t.alive object).1, (t.storage.add t.alive object).2) := rfl
    constructor
    · rintro ⟨hget, ho⟩
      rcases get_of_get_add hw hadd hget with hold | ⟨rfl, hid⟩
      · exact Or.inr ⟨⟨hold, ho⟩, hne⟩
      · have hlt := (wf_add hw (some o)).lt_of_get hget
        rw [add_maxCount hw] at hlt
        have hle := hw.maxCount_le
        exact Or.inl ⟨rfl, hid, by omega⟩
    · rintro (⟨he, hid, hval⟩ | ⟨⟨hget, ho⟩, -⟩)
      · cases he
        have hadd' : t.storage.add t.alive (some o) = (id, (t.storage.add t.alive (some o)).2) := by
          rw [← hid]
        exact (get_add_self hw hadd' hval).symm
      · exact ⟨get_add hw hadd ho hget, ho⟩
  | remove j =>
    have hni : ¬ Issued id o (t, .remove j) := by rintro ⟨h, -⟩; cases h
    have hend : Ended id o (t, .remove j) ↔ id = j := by
      simp [Ended, eq_comm]
    have hget : (next t (.remove j)).storage.get id = if id = j then none else t.storage.get id :=
      get_remove
    rw [hget, hend]
    by_cases hij : id = j
    · subst hij
      simp [hni]
    · simp [hij, hni, next]
  | get j =>
    have hni : ¬ Issued id o (t, .get j) := by rintro ⟨h, -⟩; cases h
    have hne : ¬ Ended id o (t, .get j) := by rintro (h | h) <;> cases h
    simp [hni, hne, next]
  | purgeExpired =>
    have hni : ¬ Issued id o (t, .purgeExpired) := by rintro ⟨h, -⟩; cases h
    have hne : ¬ Ended id o (t, .purgeExpired) := by rintro (h | h) <;> cases h
    have hget : (next t .purgeExpired).storage.get id = some o ↔ _ := get_purgeExpired
    rw [hget]
    simp [hni, hne, next]
  | expire x =>
    have hni : ¬ Issued id o (t, .expire x) := by rintro ⟨h, -⟩; cases h
    have hend : Ended id o (t, .expire x) ↔ o = x := by
      simp [Ended, eq_comm]
    rw [hend]
    by_cases hox : o = x
    · subst hox
      simp [hni, next]
    · simp [hox, hni, next]

/-- **The representation invariant over whole runs.** In every state a storage of capacity
`maxCount` can reach:
* the numbers in use are below `maxCount`, so none is the invalid id, there are at most `maxCount`
  of them, and no live object has two;
* a new object that `add` stores goes under a number that held no live object, that is in no use
  at that moment, and that was in no use before unless the storage was full; `get` then yields the
  object;
* adding moves no live object;
* `get` yields a live object exactly when the number was issued to it and neither did it expire
  since nor was the number removed. -/
theorem storage_runs {maxCount : Nat} (hmax : maxCount ≤ invalidId)
    {h : List (Holding Obj × Action Obj)} {t : Holding Obj}
    (hr : Run (machine Obj maxCount) h t) :
    (∀ k ∈ t.storage.objects, k < maxCount ∧ k ≠ invalidId) ∧
    t.storage.objects.size ≤ maxCount ∧
    (∀ i j o, (t.storage.get i).lock t.alive = some o → (t.storage.get j).lock t.alive = some o →
      i = j) ∧
    (∀ object id s', t.storage.add t.alive object = (id, s') →
      (∀ o, object.lock t.alive = some o → (∀ k, t.storage.get k ≠ some o) → id ≠ invalidId →
        (t.storage.get id).lock t.alive = none ∧ (t.storage.room t.alive).get id = none ∧
        (t.storage.objects.size < maxCount → t.storage.get id = none) ∧ s'.get id = some o) ∧
      ∀ k o, (t.storage.get k).lock t.alive = some o → s'.get k = some o) ∧
    ∀ id o, (t.storage.get id).lock t.alive = some o ↔ Since (Issued id o) (Ended id o) h := by
  have hi := inv_run hmax h t hr
  refine ⟨?_, ?_, ?_, fun object id s' hadd => ⟨?_, ?_⟩, ?_⟩
  · intro k hk
    have := hi.wf.keys_lt k hk
    rw [hi.maxCount_eq] at this
    exact ⟨this, by omega⟩
  · exact hi.maxCount_eq ▸ hi.wf.size_le
  · intro i j o hgi hgj
    rw [WeakPtr.lock_eq_some] at hgi hgj
    exact hi.distinct i j o hgi.1 hgj.1
  · intro o ho hnew hid
    obtain ⟨hget, hfree⟩ := add_new hi.wf hadd ho hnew hid
    refine ⟨?_, hfree, ?_, hget⟩
    · rw [Option.eq_none_iff_forall_ne_some]
      intro x hx
      obtain ⟨hgx, hx⟩ := WeakPtr.lock_eq_some.mp hx
      rw [(get_room_iff hx).mpr hgx] at hfree
      cases hfree
    · intro hsize
      rwa [room_eq_self (by rw [hi.maxCount_eq]; omega)] at hfree
  · intro k o hgk
    obtain ⟨hgk, ho⟩ := WeakPtr.lock_eq_some.mp hgk
    exact get_add hi.wf hadd ho hgk
  · intro id o
    refine Run.iff_since (M := machine Obj maxCount)
      (Q := fun t => (t.storage.get id).lock t.alive = some o) (inv_run hmax) ?_
      (fun s a hi _ => lock_get_next hi a) hr
    intro s hs
    have hnew : s.storage = new maxCount := hs
    rw [hnew, get_new, WeakPtr.lock_none]
    exact fun h => by cases h

/-- An empty storage for one object. -/
def oneSlot : Holding Nat := ⟨new 1, fun _ => true⟩

/-- An empty storage for two objects. -/
def twoSlots : Holding Nat := ⟨new 2, fun _ => true⟩

theorem run_oneSlot :
    Run (machine Nat 1) [(oneSlot, .add (some 0))] (next oneSlot (.add (some 0))) :=
  run_play (M := machine Nat 1) (s := oneSlot) [.add (some 0)] rfl (plays _ _)

/-- Both numbers are issued. The first one is removed, and issued again when the counter has
wrapped; the object under the second one expires and is purged to make room for another. -/
def wraps : List (Action Nat) :=
  [.add (some 0), .add (some 1), .remove 0, .add (some 2), .expire 1, .add (some 3)]

/-- The two objects that were added last are stored, the first one no longer is. -/
theorem storage_runs_wraps :
    ((machine Nat 2).exec twoSlots wraps).storage.objects.size ≤ 2 ∧
    ¬ Since (Issued 0 0) (Ended 0 0) ((machine Nat 2).history twoSlots wraps) ∧
    Since (Issued 0 2) (Ended 0 2) ((machine Nat 2).history twoSlots wraps) ∧
    Since (Issued 1 3) (Ended 1 3) ((machine Nat 2).history twoSlots wraps) := by
  have hrun := run_play (M := machine Nat 2) (s := twoSlots) wraps rfl (plays _ _)
  obtain ⟨-, hsize, -, -, hget⟩ := storage_runs (by decide) hrun
  refine ⟨hsize, fun h => ?_, (hget 0 2).mp (by decide +kernel), (hget 1 3).mp (by decide +kernel)⟩
  exact absurd ((hget 0 0).mpr h) (by decide +kernel)

/-- **A number can have been a key before it is issued.** In a storage for one object, with an
expired one in it, `add` purges and issues the same number again. -/
theorem add_reissues_key :
    ¬ ∀ (maxCount : Nat), maxCount ≤ invalidId →
      ∀ (h : List (Holding Nat × Action Nat)) (t : Holding Nat), Run (machine Nat maxCount) h t →
      ∀ object id s', t.storage.add t.alive object = (id, s') →
      ∀ o, object.lock t.alive = some o → (∀ k, t.storage.get k ≠ some o) → id ≠ invalidId →
        id ∉ t.storage.objects := by
  intro hall
  have hr := run_play (M := machine Nat 1) (s := oneSlot) [.add (some 0), .expire 0] rfl
    (plays _ _)
  have hid : (next (next oneSlot (.add (some 0))) (.expire 0)).storage.add
      (fun x => if x = 0 then false else true) (some 1) = (0, _) := Prod.ext (by decide +kernel) rfl
  refine hall 1 (by decide) _ _ hr (some 1) 0 _ hid 1 rfl ?_ (by decide) (by decide)
  intro k hk
  have hget : ((∅ : Foundation.Map Nat Nat).insert 0 0)[k]? = some 1 := hk
  rw [Std.ExtTreeMap.getElem?_insert] at hget
  split at hget <;> simp at hget

end UniqueIdObjectStorage

end ObjectLink
