import ObjectLink.Core.Types
import ObjectLink.Foundation.FiniteMap

/-!
# The id storage

Model of `UniqueIdObjectStorage` (`uniqueidobjectstorage.h`), which keeps weak pointers to objects
under small numbers. Which objects are alive is an argument of the operations that lock the
pointers; a stored pointer is never empty, so an entry is the object it was made from.

* `add` (`uniqueidobjectstorage.h:38-62`) returns the number of an object that is stored and alive
  already, or stores it under a number from `getUniqueIdLocked`.
* `getUniqueIdLocked` (`:126-153`) counts up until the counter reaches `maxCount` for the first
  time, and from then on searches a number that is not in use. The loop runs on fuel `maxCount`;
  `search_finds` says that it needs no more.

Results:
* `Wf`: the representation invariant, kept by every operation (`wf_add`, `wf_remove`,
  `wf_purgeExpired`).
* `add_outcome`: all that `add` can do. It refuses an expired object or one there is no room for,
  finds the object, or stores it under a number that is free once the expired entries are purged.
* `add_new`: the number under which `add` stores an object is free, but for an expired entry that
  `add` itself purges; `get_add`: no live object moves; `distinct_add`: none is stored twice.
-/

namespace ObjectLink

open Foundation (Map keysWhere mem_keysWhere)

/-- `invalidId`. -/
def invalidId : Nat := 0xFFFFFFFF

/-- The storage of weak pointers to objects `Obj`. -/
structure UniqueIdObjectStorage (Obj : Type) where
  maxCount : Nat
  objects : Map Nat Obj
  counter : Nat
  overflowed : Bool

namespace UniqueIdObjectStorage

variable {Obj : Type}

/-- The constructor. -/
def new (maxCount : Nat) : UniqueIdObjectStorage Obj where
  maxCount := maxCount
  objects := ∅
  counter := 0
  overflowed := false

section Operations

variable (alive : Obj → Bool) (s : UniqueIdObjectStorage Obj)

/-- `get`. -/
def get (id : Nat) : WeakPtr Obj := s.objects[id]?

/-- `remove`. -/
def remove (id : Nat) : UniqueIdObjectStorage Obj := { s with objects := s.objects.erase id }

/-- `purgeExpiredLocked`, the body of `purgeExpired`. -/
def purgeExpired : UniqueIdObjectStorage Obj :=
  { s with objects := s.objects.filter fun _ o => alive o }

/-- `m_counter += 1; if (m_counter == m_maxCount) m_counter = 0;` -/
def bump (counter : Nat) : Nat := if counter + 1 = s.maxCount then 0 else counter + 1

/-- The loop of `getUniqueIdLocked` from the value `counter` on: the counter it leaves behind and
whether that number is free; `none` when the fuel is used up. -/
def search (startId : Nat) : Nat → Nat → Option (Bool × Nat)
  | 0, _ => none
  | fuel + 1, counter =>
    if counter ∈ s.objects then
      if s.objects.size = s.maxCount then some (false, counter + 1)
      else if s.bump counter = startId then some (false, s.bump counter)
      else search startId fuel (s.bump counter)
    else some (true, counter)

/-- `getUniqueIdLocked`. -/
def getUniqueIdLocked : Nat × UniqueIdObjectStorage Obj :=
  if !s.overflowed then
    if s.counter + 1 = s.maxCount then (s.counter, { s with counter := 0, overflowed := true })
    else (s.counter, { s with counter := s.counter + 1 })
  else
    match s.search s.counter s.maxCount s.counter with
    | some (true, c) => (c, { s with counter := s.bump c })
    | some (false, c) => (invalidId, { s with counter := c })
    | none => (invalidId, s)

variable [DecidableEq Obj]

/-- The `find_if` of `add`: an entry that is alive and holds the object. -/
def findObject (o : Obj) : Option Nat :=
  (keysWhere s.objects fun current => alive current && decide (current = o)).head?

/-- The end of `add`, from `find_if` on. -/
def addLocked (o : Obj) : Nat × UniqueIdObjectStorage Obj :=
  match s.findObject alive o with
  | some id => (id, s)
  | none =>
    let (id, s) := s.getUniqueIdLocked
    if id = invalidId then (invalidId, s) else (id, { s with objects := s.objects.insert id o })

/-- `add`. -/
def add (object : WeakPtr Obj) : Nat × UniqueIdObjectStorage Obj :=
  match object.lock alive with
  | none => (invalidId, s)
  | some o =>
    if s.objects.size = s.maxCount then
      let s := s.purgeExpired alive
      if s.objects.size = s.maxCount then (invalidId, s) else s.addLocked alive o
    else s.addLocked alive o

end Operations

/-! ## The representation invariant -/

variable {alive : Obj → Bool} {s : UniqueIdObjectStorage Obj} {o : Obj} {id k : Nat}

/-- What every operation keeps: the numbers in use are below `maxCount`, and until the counter
wraps for the first time they are below the counter. -/
structure Wf (s : UniqueIdObjectStorage Obj) : Prop where
  maxCount_le : s.maxCount ≤ invalidId
  keys_lt : ∀ k ∈ s.objects, k < s.maxCount
  counter_lt : 0 < s.maxCount → s.counter < s.maxCount
  fresh : s.overflowed = false → ∀ k ∈ s.objects, k < s.counter

/-- The part of it that holds for any capacity. -/
structure Counted (s : UniqueIdObjectStorage Obj) : Prop where
  keys_lt : ∀ k ∈ s.objects, k < s.maxCount
  counter_lt : 0 < s.maxCount → s.counter < s.maxCount
  fresh : s.overflowed = false → ∀ k ∈ s.objects, k < s.counter

theorem Wf.counted (hw : s.Wf) : s.Counted := ⟨hw.keys_lt, hw.counter_lt, hw.fresh⟩

theorem Counted.wf (hc : s.Counted) (h : s.maxCount ≤ invalidId) : s.Wf :=
  ⟨h, hc.keys_lt, hc.counter_lt, hc.fresh⟩

theorem mem_objects_iff : k ∈ s.objects ↔ ∃ o, s.get k = some o := Foundation.mem_iff_find _ _

theorem counted_new (maxCount : Nat) : (new maxCount : UniqueIdObjectStorage Obj).Counted where
  keys_lt _ hk := absurd hk Std.ExtTreeMap.not_mem_empty
  counter_lt hpos := hpos
  fresh _ _ hk := absurd hk Std.ExtTreeMap.not_mem_empty

theorem wf_new {maxCount : Nat} (h : maxCount ≤ invalidId) :
    (new maxCount : UniqueIdObjectStorage Obj).Wf := (counted_new maxCount).wf h

@[simp] theorem get_new (maxCount : Nat) :
    (new maxCount : UniqueIdObjectStorage Obj).get k = none := by
  simp [get, new]

theorem Counted.size_le (hc : s.Counted) : s.objects.size ≤ s.maxCount :=
  Foundation.size_le_of_keys_lt hc.keys_lt

theorem Wf.size_le (hw : s.Wf) : s.objects.size ≤ s.maxCount := hw.counted.size_le

theorem Wf.lt_of_get (hw : s.Wf) (h : s.get k = some o) : k < s.maxCount :=
  hw.keys_lt k (mem_objects_iff.mpr ⟨o, h⟩)

/-- No object is ever stored under the invalid id. -/
theorem Wf.get_invalidId (hw : s.Wf) : s.get invalidId = none := by
  cases h : s.get invalidId with
  | none => rfl
  | some o =>
    have := hw.lt_of_get h
    have := hw.maxCount_le
    omega

/-- Dropping entries keeps the invariant. -/
theorem Counted.of_subset {objects : Map Nat Obj} (hc : s.Counted)
    (h : ∀ k ∈ objects, k ∈ s.objects) : Counted { s with objects := objects } where
  keys_lt k hk := hc.keys_lt k (h k hk)
  counter_lt := hc.counter_lt
  fresh hf k hk := hc.fresh hf k (h k hk)

theorem Wf.of_subset {objects : Map Nat Obj} (hw : s.Wf) (h : ∀ k ∈ objects, k ∈ s.objects) :
    Wf { s with objects := objects } := (hw.counted.of_subset h).wf hw.maxCount_le

theorem get_remove : (s.remove id).get k = if k = id then none else s.get k :=
  Foundation.find_erase _ _ _

theorem wf_remove (hw : s.Wf) (id : Nat) : (s.remove id).Wf :=
  hw.of_subset fun _ hk => Std.ExtTreeMap.mem_of_mem_erase hk

theorem get_purgeExpired :
    (s.purgeExpired alive).get k = some o ↔ s.get k = some o ∧ alive o = true := by
  unfold purgeExpired get
  rw [Std.ExtTreeMap.getElem?_filter']
  exact Option.filter_eq_some_iff

theorem wf_purgeExpired (hw : s.Wf) (alive : Obj → Bool) : (s.purgeExpired alive).Wf :=
  hw.of_subset fun _ hk => Std.ExtTreeMap.mem_of_mem_filter hk

/-- **No object is stored twice**, also when it has expired. -/
def Distinct (s : UniqueIdObjectStorage Obj) : Prop :=
  ∀ i j o, s.get i = some o → s.get j = some o → i = j

theorem distinct_new (maxCount : Nat) : (new maxCount : UniqueIdObjectStorage Obj).Distinct :=
  fun i j o hi _ => by
    rw [get_new] at hi
    cases hi

theorem Distinct.of_get {s' : UniqueIdObjectStorage Obj} (hd : s.Distinct)
    (h : ∀ k o, s'.get k = some o → s.get k = some o) : s'.Distinct :=
  fun i j o hi hj => hd i j o (h i o hi) (h j o hj)

theorem get_of_get_remove (h : (s.remove id).get k = some o) : s.get k = some o := by
  rw [get_remove] at h
  split at h
  · cases h
  · exact h

/-! ## Drawing a number -/

theorem bump_eq_mod {c : Nat} (h : c < s.maxCount) : s.bump c = (c + 1) % s.maxCount := by
  unfold bump
  split
  · rename_i he
    rw [he, Nat.mod_self]
  · rw [Nat.mod_eq_of_lt (by omega)]

theorem bump_lt {c : Nat} (h : c < s.maxCount) : s.bump c < s.maxCount := by
  rw [bump_eq_mod h]
  exact Nat.mod_lt _ (by omega)

/-- Where the search succeeds it has found a free number. -/
theorem search_free {startId : Nat} : ∀ {fuel counter c : Nat}, counter < s.maxCount →
    s.search startId fuel counter = some (true, c) → c < s.maxCount ∧ c ∉ s.objects
  | fuel + 1, counter, c, hlt, h => by
    unfold search at h
    by_cases hused : counter ∈ s.objects
    · rw [if_pos hused] at h
      split at h
      · cases h
      · split at h
        · cases h
        · exact search_free (bump_lt hlt) h
    · rw [if_neg hused] at h
      cases h
      exact ⟨hlt, hused⟩

/-- **The search succeeds while there is room.** After `n` steps from the start the first `n`
numbers it has passed, counted cyclically, are all in use; were all `maxCount` of them, there
would be no room. -/
theorem search_finds_from (hroom : s.objects.size < s.maxCount) {startId : Nat}
    (hstart : startId < s.maxCount) : ∀ {fuel n : Nat}, n + fuel = s.maxCount → n < s.maxCount →
    (∀ j < n, (startId + j) % s.maxCount ∈ s.objects) →
    ∃ c, s.search startId fuel ((startId + n) % s.maxCount) = some (true, c)
  | 0, n, hfuel, hn, _ => absurd hfuel (by omega)
  | fuel + 1, n, hfuel, hn, hpassed => by
    have hpos : 0 < s.maxCount := by omega
    unfold search
    by_cases hused : (startId + n) % s.maxCount ∈ s.objects
    · have hpassed' : ∀ j < n + 1, (startId + j) % s.maxCount ∈ s.objects := fun j hj => by
        by_cases hjn : j = n
        · rw [hjn]
          exact hused
        · exact hpassed j (by omega)
      have hbump : s.bump ((startId + n) % s.maxCount) = (startId + (n + 1)) % s.maxCount := by
        rw [bump_eq_mod (Nat.mod_lt _ hpos), Nat.mod_add_mod, Nat.add_assoc]
      rw [if_pos hused, if_neg (by omega), hbump]
      by_cases hlast : n + 1 = s.maxCount
      · -- back at the start: every number has been passed
        obtain ⟨k, hk, hfree⟩ := Foundation.exists_lt_not_mem hroom
        have hpos : (startId + (k + s.maxCount - startId) % s.maxCount) % s.maxCount = k := by
          rw [Nat.add_mod_mod, Nat.add_sub_cancel' (by omega), Nat.add_mod_right,
            Nat.mod_eq_of_lt hk]
        refine absurd (hpassed' _ ?_) (hpos ▸ hfree)
        rw [hlast]
        exact Nat.mod_lt _ (by omega)
      · have hne : (startId + (n + 1)) % s.maxCount ≠ startId := by
          rw [Nat.add_mod_eq_ite, Nat.mod_eq_of_lt hstart, Nat.mod_eq_of_lt (by omega)]
          split <;> omega
        rw [if_neg hne]
        exact search_finds_from hroom hstart (by omega) (by omega) hpassed'
    · rw [if_neg hused]
      exact ⟨_, rfl⟩

/-- The search of `getUniqueIdLocked` finds a free number while there is room. -/
theorem search_finds (hc : s.Counted) (hroom : s.objects.size < s.maxCount) :
    ∃ c, s.search s.counter s.maxCount s.counter = some (true, c) := by
  have hlt := hc.counter_lt (by omega)
  have : ∃ c, s.search s.counter s.maxCount ((s.counter + 0) % s.maxCount) = some (true, c) :=
    search_finds_from hroom hlt (by omega) (by omega) fun j hj => absurd hj (by omega)
  rwa [Nat.add_zero, Nat.mod_eq_of_lt hlt] at this

/-- What `getUniqueIdLocked` hands out is free, and the counter stays in range. -/
theorem getUniqueIdLocked_spec (hw : s.Counted) (hroom : s.objects.size < s.maxCount) :
    (s.getUniqueIdLocked).1 < s.maxCount ∧ (s.getUniqueIdLocked).1 ∉ s.objects ∧
      (s.getUniqueIdLocked).2.objects = s.objects ∧
      (s.getUniqueIdLocked).2.maxCount = s.maxCount ∧
      (s.getUniqueIdLocked).2.counter < s.maxCount ∧
      ((s.getUniqueIdLocked).2.overflowed = false →
        s.overflowed = false ∧ (s.getUniqueIdLocked).1 < (s.getUniqueIdLocked).2.counter ∧
          s.counter < (s.getUniqueIdLocked).2.counter) := by
  have hlt := hw.counter_lt (by omega)
  unfold getUniqueIdLocked
  by_cases ho : s.overflowed = true
  · obtain ⟨c, hc⟩ := search_finds hw hroom
    obtain ⟨hcl, hfree⟩ := search_free hlt hc
    rw [if_neg (by simp [ho]), hc]
    exact ⟨hcl, hfree, rfl, rfl, bump_lt hcl, fun h => absurd ho (by simp_all)⟩
  · have hof : s.overflowed = false := by simpa using ho
    have hfree : s.counter ∉ s.objects := fun hk => absurd (hw.fresh hof _ hk) (lt_irrefl _)
    rw [if_pos (by simp [hof])]
    split
    · exact ⟨hlt, hfree, rfl, rfl, by dsimp only; omega, fun h => by cases h⟩
    · dsimp only
      exact ⟨hlt, hfree, rfl, rfl, by omega, fun _ => ⟨hof, by omega, by omega⟩⟩

/-! ## Adding an object -/

/-- The storage after the purge `add` makes when there is no room. -/
def room (alive : Obj → Bool) (s : UniqueIdObjectStorage Obj) : UniqueIdObjectStorage Obj :=
  if s.objects.size = s.maxCount then s.purgeExpired alive else s

@[simp] theorem room_maxCount : (s.room alive).maxCount = s.maxCount := by
  unfold room
  split <;> rfl

theorem room_eq_self (h : s.objects.size ≠ s.maxCount) : s.room alive = s := if_neg h

theorem wf_room (hw : s.Wf) (alive : Obj → Bool) : (s.room alive).Wf := by
  unfold room
  split
  · exact wf_purgeExpired hw alive
  · exact hw

theorem get_of_get_room (h : (s.room alive).get k = some o) : s.get k = some o := by
  unfold room at h
  split at h
  · exact (get_purgeExpired.mp h).1
  · exact h

/-- The purge leaves the live objects where they are. -/
theorem get_room_iff (ho : alive o = true) :
    (s.room alive).get k = some o ↔ s.get k = some o := by
  refine ⟨get_of_get_room, ?_⟩
  intro h
  unfold room
  split
  · exact get_purgeExpired.mpr ⟨h, ho⟩
  · exact h

/-- Storing an object under the number drawn for it. -/
theorem counted_store (hc : s.Counted) (hroom : s.objects.size < s.maxCount) :
    Counted { (s.getUniqueIdLocked).2 with
      objects := (s.getUniqueIdLocked).2.objects.insert (s.getUniqueIdLocked).1 o } := by
  obtain ⟨hlt, -, hobj, hmax, hcl, hfresh⟩ := getUniqueIdLocked_spec hc hroom
  have hmem : ∀ k ∈ (s.getUniqueIdLocked).2.objects.insert (s.getUniqueIdLocked).1 o,
      k = (s.getUniqueIdLocked).1 ∨ k ∈ s.objects := fun k hk => by
    rw [hobj] at hk
    rcases Std.ExtTreeMap.mem_insert.mp hk with he | hk
    · exact Or.inl (Std.LawfulEqOrd.compare_eq_iff_eq.mp he).symm
    · exact Or.inr hk
  refine ⟨?_, fun _ => hmax ▸ hcl, ?_⟩
  · intro k hk
    rcases hmem k hk with rfl | hk
    · exact hmax ▸ hlt
    · exact hmax ▸ hc.keys_lt k hk
  · intro hf k hk
    obtain ⟨hsf, hidlt, hclt⟩ := hfresh hf
    rcases hmem k hk with rfl | hk
    · exact hidlt
    · exact lt_trans (hc.fresh hsf k hk) hclt

/-- Drawing a number that is not used. -/
theorem counted_draw (hc : s.Counted) (hroom : s.objects.size < s.maxCount) :
    (s.getUniqueIdLocked).2.Counted := by
  obtain ⟨-, -, hobj, hmax, hcl, hfresh⟩ := getUniqueIdLocked_spec hc hroom
  refine ⟨?_, fun _ => hmax ▸ hcl, ?_⟩
  · intro k hk
    rw [hmax]
    exact hc.keys_lt k (hobj ▸ hk)
  · intro hf k hk
    obtain ⟨hsf, -, hclt⟩ := hfresh hf
    exact lt_trans (hc.fresh hsf k (hobj ▸ hk)) hclt

variable [DecidableEq Obj] {s' : UniqueIdObjectStorage Obj} {object : WeakPtr Obj}

theorem findObject_eq_some (h : s.findObject alive o = some id) : s.get id = some o := by
  obtain ⟨v, hv, hp⟩ := mem_keysWhere.mp (List.mem_of_mem_head? h)
  simp only [Bool.and_eq_true, decide_eq_true_eq] at hp
  rw [← hp.2]
  exact hv

theorem findObject_eq_none (ho : alive o = true) (h : s.findObject alive o = none) :
    s.get k ≠ some o := by
  intro hk
  have hmem : k ∈ keysWhere s.objects fun current => alive current && decide (current = o) :=
    mem_keysWhere.mpr ⟨o, hk, by simp [ho]⟩
  rw [List.head?_eq_none_iff.mp h] at hmem
  exact absurd hmem List.not_mem_nil

/-- `add` of an object that is alive: the purge where it needs room, then the search. -/
theorem add_eq (ho : object.lock alive = some o) : s.add alive object =
    if (s.room alive).objects.size = s.maxCount then (invalidId, s.room alive)
    else (s.room alive).addLocked alive o := by
  unfold add room
  rw [ho]
  by_cases hfull : s.objects.size = s.maxCount
  · simp only [if_pos hfull]
    rfl
  · simp only [if_neg hfull]

/-- **All that `add` can do**, the result and the storage it leaves. -/
inductive AddOutcome (alive : Obj → Bool) (s : UniqueIdObjectStorage Obj) (object : WeakPtr Obj) :
    Nat × UniqueIdObjectStorage Obj → Prop
  | expired : object.lock alive = none → AddOutcome alive s object (invalidId, s)
  | full {o : Obj} : object.lock alive = some o → (s.room alive).objects.size = s.maxCount →
      AddOutcome alive s object (invalidId, s.room alive)
  | found {o : Obj} {id : Nat} : object.lock alive = some o → (s.room alive).get id = some o →
      AddOutcome alive s object (id, s.room alive)
  | stored {o : Obj} {id : Nat} {s' : UniqueIdObjectStorage Obj} :
      object.lock alive = some o → (∀ k, s.get k ≠ some o) → id < s.maxCount →
      (s.room alive).get id = none → s'.Wf → s'.maxCount = s.maxCount →
      (∀ k, s'.get k = if k = id then some o else (s.room alive).get k) →
      AddOutcome alive s object (id, s')

theorem add_outcome (alive : Obj → Bool) (hw : s.Wf) (object : WeakPtr Obj) :
    AddOutcome alive s object (s.add alive object) := by
  cases ho : object.lock alive with
  | none =>
    have : s.add alive object = (invalidId, s) := by
      unfold add
      rw [ho]
    rw [this]
    exact .expired ho
  | some o =>
    have hlive := (WeakPtr.lock_eq_some.mp ho).2
    rw [add_eq ho]
    by_cases hfull : (s.room alive).objects.size = s.maxCount
    · rw [if_pos hfull]
      exact .full ho hfull
    · rw [if_neg hfull]
      have hwr := wf_room hw alive
      have hroom : (s.room alive).objects.size < (s.room alive).maxCount := by
        have := hwr.size_le
        rw [room_maxCount] at this ⊢
        omega
      unfold addLocked
      cases hfind : (s.room alive).findObject alive o with
      | some id => exact .found ho (findObject_eq_some hfind)
      | none =>
        obtain ⟨hlt, hfree, hobj, hmax, -, -⟩ := getUniqueIdLocked_spec hwr.counted hroom
        rw [room_maxCount] at hlt hmax
        have hvalid : ((s.room alive).getUniqueIdLocked).1 ≠ invalidId := by
          have := hw.maxCount_le
          omega
        dsimp only
        rw [if_neg hvalid]
        refine .stored ho ?_ hlt ?_
          ((counted_store hwr.counted hroom).wf (hmax ▸ hw.maxCount_le)) hmax ?_
        · intro k hk
          exact findObject_eq_none hlive hfind ((get_room_iff hlive).mpr hk)
        · exact Std.ExtTreeMap.getElem?_eq_none hfree
        · intro k
          unfold get
          rw [Foundation.find_insert, hobj]

theorem wf_add (hw : s.Wf) (object : WeakPtr Obj) : (s.add alive object).2.Wf := by
  have hout := add_outcome alive hw object
  generalize s.add alive object = r at hout
  cases hout with
  | expired _ => exact hw
  | full _ _ => exact wf_room hw alive
  | found _ _ => exact wf_room hw alive
  | stored _ _ _ _ hw' _ _ => exact hw'

@[simp] theorem add_maxCount (hw : s.Wf) (object : WeakPtr Obj) :
    (s.add alive object).2.maxCount = s.maxCount := by
  have hout := add_outcome alive hw object
  generalize s.add alive object = r at hout
  cases hout with
  | expired _ => rfl
  | full _ _ => exact room_maxCount
  | found _ _ => exact room_maxCount
  | stored _ _ _ _ _ hmax _ => exact hmax

/-! ## What `add` does to the entries -/

/-- **A new object** goes under a number that held no live object, that is free at the moment of
storing, and that was free before unless the storage was full. -/
theorem add_new (hw : s.Wf) (hadd : s.add alive object = (id, s'))
    (ho : object.lock alive = some o) (hnew : ∀ k, s.get k ≠ some o) (hid : id ≠ invalidId) :
    s'.get id = some o ∧ (s.room alive).get id = none := by
  have hout := add_outcome alive hw object
  rw [hadd] at hout
  cases hout with
  | expired _ => exact absurd rfl hid
  | full _ _ => exact absurd rfl hid
  | found ho' hget =>
    rw [ho] at ho'
    cases ho'
    exact absurd (get_of_get_room hget) (hnew id)
  | stored ho' _ _ hfree _ _ hget =>
    rw [ho] at ho'
    cases ho'
    exact ⟨by rw [hget, if_pos rfl], hfree⟩

/-- **No live object moves** when another one is added. -/
theorem get_add (hw : s.Wf) (hadd : s.add alive object = (id, s')) (ho : alive o = true)
    (hk : s.get k = some o) : s'.get k = some o := by
  have hroom := (get_room_iff ho).mpr hk
  have hout := add_outcome alive hw object
  rw [hadd] at hout
  cases hout with
  | expired _ => exact hk
  | full _ _ => exact hroom
  | found _ _ => exact hroom
  | stored _ _ _ hfree _ _ hget =>
    rw [hget, if_neg (fun he => ?_)]
    · exact hroom
    · rw [he, hfree] at hroom
      cases hroom

/-- With room left nothing is purged, so no entry moves at all. -/
theorem get_add_of_lt (hw : s.Wf) (hroom : s.objects.size < s.maxCount)
    (hadd : s.add alive object = (id, s')) (hk : s.get k = some o) : s'.get k = some o := by
  have hself : s.room alive = s := room_eq_self (by omega)
  have hk' : (s.room alive).get k = some o := by rwa [hself]
  have hout := add_outcome alive hw object
  rw [hadd] at hout
  cases hout with
  | expired _ => exact hk
  | full _ _ => exact hk'
  | found _ _ => exact hk'
  | stored _ _ _ hfree _ _ hget =>
    rw [hself] at hfree hget
    rw [hget, if_neg (fun he => ?_)]
    · exact hk
    · rw [he, hfree] at hk
      cases hk

/-- **With room left a new live object is stored** under a free number, and nothing else
changes. -/
theorem add_fresh (alive : Obj → Bool) (hw : s.Wf) (hroom : s.objects.size < s.maxCount)
    (ho : alive o = true) (hnew : ∀ k, s.get k ≠ some o) :
    ∃ id s', s.add alive (some o) = (id, s') ∧ id ≠ invalidId ∧
      s.get id = none ∧ s'.Wf ∧ s'.maxCount = s.maxCount ∧
      ∀ k, s'.get k = if k = id then some o else s.get k := by
  have hself : s.room alive = s := room_eq_self (by omega)
  have hlock : WeakPtr.lock alive (some o) = some o := WeakPtr.lock_eq_some.mpr ⟨rfl, ho⟩
  have hout := add_outcome alive hw (some o)
  generalize hadd : s.add alive (some o) = r at hout
  cases hout with
  | expired hnone =>
    rw [hlock] at hnone
    cases hnone
  | full _ hfull =>
    rw [hself] at hfull
    omega
  | found ho' hget =>
    rw [hlock] at ho'
    cases ho'
    exact absurd (get_of_get_room hget) (hnew _)
  | @stored o' id s' ho' _ hlt hfree hw' hmax hget =>
    rw [hlock] at ho'
    cases ho'
    rw [hself] at hfree hget
    have := hw.maxCount_le
    exact ⟨id, s', rfl, by omega, hfree, hw', hmax, hget⟩

/-- **A new object**, which nothing stored there can be, is stored as `add_fresh` says. -/
theorem add_created {alive : Obj → Bool} (hw : s.Wf) (hroom : s.objects.size < s.maxCount)
    (hlive : ∀ k x, s.get k = some x → alive x = true) (ho : alive o = false) :
    ∃ id s', s.add (fun x => if x = o then true else alive x) (some o) = (id, s') ∧
      id ≠ invalidId ∧ s.get id = none ∧ s'.Wf ∧ s'.maxCount = s.maxCount ∧
      ∀ k, s'.get k = if k = id then some o else s.get k := by
  refine add_fresh _ hw hroom (if_pos rfl) ?_
  intro k hk
  have hdead := hlive k o hk
  rw [ho] at hdead
  cases hdead

/-- Conversely, what is stored afterwards was stored there before, or is the object added and got
that number. -/
theorem get_of_get_add (hw : s.Wf) (hadd : s.add alive object = (id, s'))
    (hk : s'.get k = some o) : s.get k = some o ∨ (object = some o ∧ id = k) := by
  have hout := add_outcome alive hw object
  rw [hadd] at hout
  cases hout with
  | expired _ => exact Or.inl hk
  | full _ _ => exact Or.inl (get_of_get_room hk)
  | found _ _ => exact Or.inl (get_of_get_room hk)
  | stored ho' _ _ _ _ _ hget =>
    rw [hget] at hk
    split at hk
    · rename_i hki
      cases hk
      exact Or.inr ⟨(WeakPtr.lock_eq_some.mp ho').1, hki.symm⟩
    · exact Or.inl (get_of_get_room hk)

/-- An object that `add` gives a number to is alive, and stored under it. -/
theorem get_add_self (hw : s.Wf) (hadd : s.add alive (some o) = (id, s')) (hid : id ≠ invalidId) :
    alive o = true ∧ s'.get id = some o := by
  have hout := add_outcome alive hw (some o)
  rw [hadd] at hout
  cases hout with
  | expired _ => exact absurd rfl hid
  | full _ _ => exact absurd rfl hid
  | found ho' hget =>
    obtain ⟨he, ho⟩ := WeakPtr.lock_eq_some.mp ho'
    cases he
    exact ⟨ho, hget⟩
  | stored ho' _ _ _ _ _ hget =>
    obtain ⟨he, ho⟩ := WeakPtr.lock_eq_some.mp ho'
    cases he
    exact ⟨ho, by rw [hget, if_pos rfl]⟩

/-- Adding stores no object twice. -/
theorem distinct_add (alive : Obj → Bool) (hw : s.Wf) (hd : s.Distinct) (object : WeakPtr Obj) :
    (s.add alive object).2.Distinct := by
  have hroom : (s.room alive).Distinct := hd.of_get fun _ _ => get_of_get_room
  have hout := add_outcome alive hw object
  generalize s.add alive object = r at hout
  cases hout with
  | expired _ => exact hd
  | full _ _ => exact hroom
  | found _ _ => exact hroom
  | stored _ hnew _ _ _ _ hget =>
    intro i j o hi hj
    rw [hget] at hi hj
    split at hi <;> split at hj
    · rename_i hii hji
      rw [hii, hji]
    · cases hi
      exact absurd (get_of_get_room hj) (hnew j)
    · cases hj
      exact absurd (get_of_get_room hi) (hnew i)
    · exact hroom i j o hi hj

/-! ## Objects that come and go -/

/-- The storage when the counter has been moved on by the ids that were given meanwhile. -/
def countedTo (s : UniqueIdObjectStorage Obj) (counter : Nat) : UniqueIdObjectStorage Obj :=
  if counter = s.maxCount then { s with counter := 0, overflowed := true }
  else { s with counter := counter }

/-- An object that is added and removed again moves the counter on. -/
theorem remove_add_new (hw : s.Wf) (hroom : s.objects.size < s.maxCount)
    (ho : alive o = true) (hnew : ∀ k, s.get k ≠ some o) (hov : s.overflowed = false) :
    (s.add alive (some o)).1 = s.counter ∧
      (s.add alive (some o)).2.remove s.counter = s.countedTo (s.counter + 1) := by
  have hlock : WeakPtr.lock alive (some o) = some o := WeakPtr.lock_eq_some.mpr ⟨rfl, ho⟩
  have hself : s.room alive = s := room_eq_self (by omega)
  have hfind : s.findObject alive o = none := by
    cases hf : s.findObject alive o with
    | none => rfl
    | some id => exact absurd (findObject_eq_some hf) (hnew id)
  have hlt := hw.counter_lt (by omega)
  have hle := hw.maxCount_le
  have hunused : s.counter ∉ s.objects := fun h => absurd (hw.fresh hov _ h) (Nat.lt_irrefl _)
  have hdraw : s.getUniqueIdLocked = (s.counter, s.countedTo (s.counter + 1)) := by
    unfold getUniqueIdLocked countedTo
    rw [hov]
    simp only [Bool.not_false, if_true]
    split <;> rfl
  have hadd : s.add alive (some o) = (s.counter, { s.countedTo (s.counter + 1) with
      objects := (s.countedTo (s.counter + 1)).objects.insert s.counter o }) := by
    rw [add_eq hlock, hself, if_neg (by omega)]
    unfold addLocked
    rw [hfind]
    dsimp only
    rw [hdraw]
    exact if_neg (by omega)
  rw [hadd]
  refine ⟨rfl, ?_⟩
  have hobjects : ((s.countedTo (s.counter + 1)).objects.insert s.counter o).erase s.counter
      = (s.countedTo (s.counter + 1)).objects := by
    refine Foundation.erase_insert ?_
    unfold countedTo
    split <;> exact hunused
  unfold remove
  rw [hobjects]

end UniqueIdObjectStorage

end ObjectLink
