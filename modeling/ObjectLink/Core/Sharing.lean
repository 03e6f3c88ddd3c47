import ObjectLink.Core.UniqueIdObjectStorage
import ObjectLink.Foundation.Machine

/-!
# The id storage between threads

`UniqueIdObjectStorage` says that it can be used from several threads
(`uniqueidobjectstorage.h:15-19`). Here any number of threads share the storage of one registry:
they create nodes, pass references to them around and drop them, and whichever step releases the
last reference to a node runs its destructor on its own thread. The steps are those at which
another thread can come in between: taking or releasing a strong reference, and locking or
unlocking the storage's mutex.

* `create` (`clientnode.cpp:24-29`, `remotenode.cpp:21-26`) holds `node` while it calls
  `registerNode`, and `add` holds `lockedObject` (`uniqueidobjectstorage.h:38-62`). The scan takes
  a temporary reference to every entry that has not expired and releases it after the comparison,
  all under the mutex.
* The node destructors (`clientnode.cpp:76-84`, `remotenode.cpp:28-31`) call `unregisterNode`,
  which calls `remove` unless the id is the invalid one, and `remove` locks the mutex (`:68-72`).

`registerNode`'s own reference and the copies the scan's predicate captures are released while
`lockedObject` or `node` is still held; `get` and `purgeExpired` take no strong reference. They are
left out; `take` is what locks a weak pointer that `get` gave out.

Results:
* `safe_run_iff`: no thread runs into a destructor, or asks for the mutex, while it has the mutex,
  exactly if at each release of a temporary reference another reference to the node is held.
* `deadlock_next`: a thread that asks for the mutex it has keeps it, whatever the others do.
* `alone_add`: without other threads in between, the steps of a call do what `add` does.
* `scan_destroys`: without the condition the scan does run a destructor under the mutex.
-/

namespace ObjectLink.Sharing

open Foundation (Machine Run run_play)

/-- The identity of a thread. -/
abbrev ThreadId := Nat

/-- An entry of the storage, as the scan of `add` sees it. -/
abbrev Entry := Nat × NodeRef

/-- Where a thread is in `create` for the node `o`. -/
inductive Creating where
  /-- `add` has its `lockedObject` and asks for the mutex. -/
  | lock (o : NodeRef)
  /-- `find_if` with these entries still to look at. -/
  | scan (o : NodeRef) (rest : List Entry)
  /-- The entry had not expired, and its `lock()` is next. -/
  | lockEntry (o : NodeRef) (entry : Entry) (rest : List Entry)
  /-- The temporary reference to the entry is held. -/
  | compare (o : NodeRef) (entry : Entry) (rest : List Entry)
  /-- The node was not found. -/
  | store (o : NodeRef)
  /-- `add` returns `id`; its lock goes first. -/
  | unlock (o : NodeRef) (id : Nat)
  /-- `lockedObject` goes next. -/
  | release (o : NodeRef) (id : Nat)
  | setNodeId (o : NodeRef) (id : Nat)
  deriving DecidableEq

/-- Where a thread is in the destructor of a node. -/
inductive Destroying where
  | destructor (o : NodeRef)
  /-- `remove` asks for the mutex. -/
  | lock (id : Nat)
  | erase (id : Nat)
  deriving DecidableEq

/-- `add` has the mutex. -/
def Creating.locked : Creating → Bool
  | .lock _ | .release _ _ | .setNodeId _ _ => false
  | .scan _ _ | .lockEntry _ _ _ | .compare _ _ _ | .store _ | .unlock _ _ => true

/-- The entries the scan has not done with. -/
def Creating.entries : Creating → List Entry
  | .scan _ rest => rest
  | .lockEntry _ entry rest | .compare _ entry rest => entry :: rest
  | _ => []

/-- `remove` has the mutex. -/
def Destroying.locked : Destroying → Bool
  | .destructor _ | .lock _ => false
  | .erase _ => true

/-- The threads, the storage they share, and the strong references each of them holds. A thread
may be in a destructor while its call of `create` waits. -/
structure Threads where
  storage : UniqueIdObjectStorage NodeRef
  mutex : Option ThreadId
  refs : List (ThreadId × NodeRef)
  created : NodeRef
  nodeId : NodeRef → Nat
  creating : ThreadId → Option Creating
  destroying : ThreadId → Option Destroying

/-- What can happen. `step` is the next step of what the thread is doing. -/
inductive Action where
  | create (t : ThreadId)
  /-- The thread copies a reference, or locks a weak pointer. -/
  | take (t : ThreadId) (o : NodeRef)
  | drop (t : ThreadId) (o : NodeRef)
  /-- `add` gets the mutex; `order` is the order in which `find_if` will see the entries. -/
  | lock (t : ThreadId) (order : List Entry)
  | step (t : ThreadId)

/-- The thread that acts. -/
def Action.thread : Action → ThreadId
  | .create t | .take t _ | .drop t _ | .lock t _ | .step t => t

namespace Threads

variable (w : Threads)

/-- A strong reference to the node is held somewhere. -/
def alive (o : NodeRef) : Bool := decide (o ∈ w.refs.map Prod.snd)

/-- The thread is in none of the library's calls. -/
def Idle (t : ThreadId) : Prop := w.creating t = none ∧ w.destroying t = none

instance (t : ThreadId) : Decidable (w.Idle t) := inferInstanceAs (Decidable (_ ∧ _))

/-- The thread's call of `create` goes on at `p`. -/
def goto (t : ThreadId) (p : Creating) : Threads :=
  { w with creating := Function.update w.creating t (some p) }

/-- The thread's destructor goes on at `d`. -/
def gotoDestroying (t : ThreadId) (d : Destroying) : Threads :=
  { w with destroying := Function.update w.destroying t (some d) }

/-- The thread has taken a strong reference. -/
def hold (t : ThreadId) (o : NodeRef) : Threads := { w with refs := (t, o) :: w.refs }

/-- What is left when the thread has given up one reference. -/
def without (t : ThreadId) (o : NodeRef) : Threads := { w with refs := w.refs.erase (t, o) }

/-- The thread releases a strong reference; the last one runs the destructor. -/
def release (t : ThreadId) (o : NodeRef) : Threads :=
  if (w.without t o).alive o then w.without t o
  else (w.without t o).gotoDestroying t (.destructor o)

/-- The end of `add`, where the object was not found. -/
def store (o : NodeRef) : Nat × UniqueIdObjectStorage NodeRef :=
  let (id, s) := w.storage.getUniqueIdLocked
  if id = invalidId then (invalidId, s) else (id, { s with objects := s.objects.insert id o })

/-- `add` has the mutex: the check for room, before the scan. -/
def locked (t : ThreadId) (o : NodeRef) (order : List Entry) : Threads :=
  let storage := w.storage.room w.alive
  let w := { w with storage := storage, mutex := some t }
  if storage.objects.size = storage.maxCount then w.goto t (.unlock o invalidId)
  else w.goto t (.scan o order)

/-- The next step of `create`. -/
def stepCreating (t : ThreadId) : Creating → Threads
  | .lock _ => w
  | .scan o [] => w.goto t (.store o)
  | .scan o (entry :: rest) =>
    if WeakPtr.expired w.alive (some entry.2) then w.goto t (.scan o rest)
    else w.goto t (.lockEntry o entry rest)
  | .lockEntry o entry rest =>
    match WeakPtr.lock w.alive (some entry.2) with
    | some current => (w.hold t current).goto t (.compare o entry rest)
    | none => w.goto t (.scan o rest)
  | .compare o entry rest =>
    if entry.2 = o then (w.goto t (.unlock o entry.1)).release t entry.2
    else (w.goto t (.scan o rest)).release t entry.2
  | .store o => { w with storage := (w.store o).2 }.goto t (.unlock o (w.store o).1)
  | .unlock o id => { w with mutex := none }.goto t (.release o id)
  | .release o id => (w.goto t (.setNodeId o id)).release t o
  | .setNodeId o id =>
    { w with
      nodeId := Function.update w.nodeId o id
      creating := Function.update w.creating t none }

/-- The next step of a destructor: `unregisterNode`, then `remove`. -/
def stepDestroying (t : ThreadId) : Destroying → Threads
  | .destructor o =>
    if w.nodeId o = invalidId then { w with destroying := Function.update w.destroying t none }
    else w.gotoDestroying t (.lock (w.nodeId o))
  | .lock id => { w with mutex := some t }.gotoDestroying t (.erase id)
  | .erase id =>
    { w with
      storage := w.storage.remove id
      mutex := none
      destroying := Function.update w.destroying t none }

/-- The threads after a step. -/
def next : Action → Threads
  | .create t =>
    ({ w with created := w.created + 1 }.hold t w.created).hold t w.created |>.goto t
      (.lock w.created)
  | .take t o => w.hold t o
  | .drop t o => w.release t o
  | .lock t order =>
    match w.creating t with
    | some (.lock o) => w.locked t o order
    | _ => w
  | .step t =>
    match w.destroying t, w.creating t with
    | some d, _ => w.stepDestroying t d
    | none, some p => w.stepCreating t p
    | none, none => w

/-- The thread asks for the mutex. -/
def requests (t : ThreadId) : Bool :=
  match w.destroying t, w.creating t with
  | some (.lock _), _ => true
  | none, some (.lock _) => true
  | _, _ => false

/-- When an action is possible. The application uses a thread that is in none of the library's
calls; a thread that asks for the mutex waits until it is free. -/
def Enabled : Action → Prop
  | .create t => w.Idle t
  | .take t o => w.Idle t ∧ w.alive o = true
  | .drop t o => w.Idle t ∧ (t, o) ∈ w.refs
  | .lock t order =>
    w.destroying t = none ∧ w.requests t = true ∧ w.mutex = none ∧
      order.Perm (w.storage.room w.alive).objects.toList
  | .step t => ¬ w.Idle t ∧ (w.requests t = true → w.destroying t ≠ none ∧ w.mutex = none)

instance : ∀ a, Decidable (w.Enabled a)
  | .create _ => inferInstanceAs (Decidable (_ ∧ _))
  | .take _ _ => inferInstanceAs (Decidable (_ ∧ _))
  | .drop _ _ => inferInstanceAs (Decidable (_ ∧ _))
  | .lock _ _ => inferInstanceAs (Decidable (_ ∧ _))
  | .step _ => inferInstanceAs (Decidable (_ ∧ _))

/-- **The lock is safe**: a thread that has the mutex starts no destructor of a stored node, and
does not ask for the mutex. -/
structure Safe : Prop where
  destructor : ∀ t o id, w.mutex = some t → w.destroying t = some (.destructor o) →
    w.storage.get id ≠ some o
  request : ∀ t, w.mutex = some t → w.requests t = false

/-- The node whose temporary reference the scan of the thread is about to release. -/
def temporary (t : ThreadId) : Option NodeRef :=
  match w.destroying t, w.creating t with
  | none, some (.compare _ entry _) => some entry.2
  | _, _ => none

/-- The condition: when the scan of `add` releases its temporary reference to an entry, another
reference to that node is held. -/
def Kept : Action → Prop
  | .step t => ∀ o ∈ w.temporary t, (w.without t o).alive o = true
  | _ => True

instance : ∀ a, Decidable (w.Kept a)
  | .step t => inferInstanceAs (Decidable (∀ o ∈ w.temporary t, (w.without t o).alive o = true))
  | .create _ | .take _ _ | .drop _ _ | .lock _ _ => inferInstanceAs (Decidable True)

end Threads

/-- No node yet, and an empty storage. -/
structure Init (maxCount : Nat) (w : Threads) : Prop where
  storage : w.storage = .new maxCount
  mutex : w.mutex = none
  refs : w.refs = []
  idle : ∀ t, w.Idle t

/-- Any number of threads that share one storage. -/
def machine (maxCount : Nat) : Machine Threads Action where
  init := Init maxCount
  enabled := Threads.Enabled
  next := Threads.next

instance (maxCount : Nat) (w : Threads) (a : Action) : Decidable ((machine maxCount).enabled w a) :=
  inferInstanceAs (Decidable (w.Enabled a))

namespace Threads

variable {w w' : Threads} {t u : ThreadId} {o : NodeRef} {a : Action}

/-! ## What a step leaves alone -/

section Fields

variable (w : Threads) (t : ThreadId) (o : NodeRef)

@[simp] theorem release_storage : (w.release t o).storage = w.storage := by
  unfold release
  split <;> rfl

@[simp] theorem release_mutex : (w.release t o).mutex = w.mutex := by
  unfold release
  split <;> rfl

@[simp] theorem release_creating : (w.release t o).creating = w.creating := by
  unfold release
  split <;> rfl

theorem release_destroying : (w.release t o).destroying =
    if (w.without t o).alive o then w.destroying
    else Function.update w.destroying t (some (.destructor o)) := by
  unfold release
  split <;> rfl

@[simp] theorem goto_creating_self (p : Creating) : (w.goto t p).creating t = some p :=
  Function.update_self ..

end Fields

/-- `w'` has the same as `w` of what concerns the thread `u`. -/
structure SameAt (u : ThreadId) (w w' : Threads) : Prop where
  creating : w'.creating u = w.creating u
  destroying : w'.destroying u = w.destroying u
  mutex : w'.mutex = some u ↔ w.mutex = some u
  storage : w.mutex = some u → w'.storage = w.storage

theorem SameAt.trans {w'' : Threads} (h : SameAt u w w') (h' : SameAt u w' w'') :
    SameAt u w w'' where
  creating := h'.creating.trans h.creating
  destroying := h'.destroying.trans h.destroying
  mutex := h'.mutex.trans h.mutex
  storage hm := (h'.storage (h.mutex.mpr hm)).trans (h.storage hm)

theorem sameAt_goto (hu : u ≠ t) (p : Creating) : SameAt u w (w.goto t p) :=
  ⟨Function.update_of_ne hu .., rfl, Iff.rfl, fun _ => rfl⟩

theorem sameAt_gotoDestroying (hu : u ≠ t) (d : Destroying) :
    SameAt u w (w.gotoDestroying t d) :=
  ⟨rfl, Function.update_of_ne hu .., Iff.rfl, fun _ => rfl⟩

theorem sameAt_hold : SameAt u w (w.hold t o) := ⟨rfl, rfl, Iff.rfl, fun _ => rfl⟩

theorem sameAt_release (hu : u ≠ t) : SameAt u w (w.release t o) := by
  refine ⟨by rw [release_creating], ?_, by rw [release_mutex], fun _ => by rw [release_storage]⟩
  rw [release_destroying]
  split
  · rfl
  · exact Function.update_of_ne hu ..

/-- What happens to a mutex that another thread takes from nobody, or gives back. -/
theorem sameAt_mutex {m : Option ThreadId} {s : UniqueIdObjectStorage NodeRef}
    (hm : w.mutex = none ∨ w.mutex = some t) (hm' : m = none ∨ m = some t) (hu : u ≠ t) :
    SameAt u w { w with storage := s, mutex := m } := by
  have hne : w.mutex ≠ some u := by
    rcases hm with h | h
    · simp [h]
    · simpa [h] using hu.symm
  have hne' : m ≠ some u := by
    rcases hm' with h | h
    · simp [h]
    · simpa [h] using hu.symm
  exact ⟨rfl, rfl, iff_of_false hne' hne, fun h => absurd h hne⟩

/-! ## Who has the mutex -/

/-- The thread is in a part of `add` that has the mutex. -/
def inAdd (w : Threads) (t : ThreadId) : Bool := (w.creating t).any Creating.locked

/-- The thread is in a part of `remove` that has the mutex. -/
def inRemove (w : Threads) (t : ThreadId) : Bool := (w.destroying t).any Destroying.locked

/-- The invariant, for one thread: it owns the mutex where `add` or `remove` has it, the entries
the scan has still to look at are those of the storage, and a destructor that starts under the
mutex is that of a stored node. -/
structure InvAt (w : Threads) (t : ThreadId) : Prop where
  holder : w.mutex = some t ↔ w.inAdd t = true ∨ w.inRemove t = true
  one : w.inAdd t = true → w.inRemove t = false
  entries : ∀ p, w.creating t = some p → ∀ e ∈ p.entries, w.storage.get e.1 = some e.2
  dying : ∀ o, w.mutex = some t → w.destroying t = some (.destructor o) →
    ∃ id, w.storage.get id = some o

/-- Only an owner of the mutex has entries to look at. -/
theorem locked_of_entries {p : Creating} {e : Entry} (he : e ∈ p.entries) : p.locked = true := by
  cases p <;> first | rfl | exact absurd he List.not_mem_nil

/-- What the other threads do does not touch the invariant of this one. -/
theorem InvAt.of_sameAt (hi : w.InvAt u) (h : SameAt u w w') : w'.InvAt u := by
  obtain ⟨hc, hd, hm, hs⟩ := h
  have hadd : w'.inAdd u = w.inAdd u := by
    unfold inAdd
    rw [hc]
  have hrem : w'.inRemove u = w.inRemove u := by
    unfold inRemove
    rw [hd]
  refine ⟨?_, ?_, ?_, ?_⟩
  · rw [hm, hadd, hrem]
    exact hi.holder
  · rw [hadd, hrem]
    exact hi.one
  · intro p hp e he
    rw [hc] at hp
    have hmu : w.mutex = some u := by
      refine hi.holder.mpr (Or.inl ?_)
      unfold inAdd
      rw [hp]
      exact locked_of_entries he
    rw [hs hmu]
    exact hi.entries p hp e he
  · intro o hm' hd'
    rw [hm] at hm'
    rw [hd] at hd'
    rw [hs hm']
    exact hi.dying o hm' hd'

theorem InvAt.not_mutex_of_idle (hi : w.InvAt t) (hidle : w.Idle t) : w.mutex ≠ some t := by
  intro hm
  obtain ⟨hc, hd⟩ := hidle
  rcases hi.holder.mp hm with h | h
  · simp [inAdd, hc] at h
  · simp [inRemove, hd] at h

/-- Moving on inside `create`, with the mutex or without. -/
theorem InvAt.goto {p : Creating} (hd : w.destroying t = none)
    (hm : w.mutex = some t ↔ p.locked = true)
    (he : ∀ e ∈ p.entries, w.storage.get e.1 = some e.2) : (w.goto t p).InvAt t := by
  have hadd : (w.goto t p).inAdd t = p.locked := by
    unfold inAdd
    rw [goto_creating_self]
    rfl
  have hd' : (w.goto t p).destroying t = none := hd
  have hrem : (w.goto t p).inRemove t = false := by
    unfold inRemove
    rw [hd']
    rfl
  refine ⟨?_, fun _ => hrem, ?_, ?_⟩
  · rw [hadd, hrem]
    exact hm.trans (by simp)
  · intro q hq
    rw [goto_creating_self] at hq
    cases hq
    exact he
  · intro o _ ho
    rw [hd'] at ho
    cases ho

/-- Releasing a reference, of a stored node where the thread has the mutex. -/
theorem InvAt.release (hi : w.InvAt t) (hd : w.destroying t = none)
    (ho : w.mutex = some t → ∃ id, w.storage.get id = some o) : (w.release t o).InvAt t := by
  have hrem : w.inRemove t = false := by
    unfold inRemove
    rw [hd]
    rfl
  have hadd : (w.release t o).inAdd t = w.inAdd t := by
    unfold inAdd
    rw [release_creating]
  have hdes : (w.release t o).destroying t = none ∨
      (w.release t o).destroying t = some (.destructor o) := by
    rw [release_destroying]
    split
    · exact Or.inl hd
    · exact Or.inr (Function.update_self ..)
  have hrem' : (w.release t o).inRemove t = false := by
    unfold inRemove
    rcases hdes with h | h <;> rw [h] <;> rfl
  refine ⟨?_, fun _ => hrem', ?_, ?_⟩
  · rw [release_mutex, hadd, hrem', hi.holder, hrem]
  · intro p hp
    rw [release_creating] at hp
    rw [release_storage]
    exact hi.entries p hp
  · intro o' hm hd'
    rw [release_mutex] at hm
    rw [release_storage]
    rcases hdes with h | h
    · rw [h] at hd'
      cases hd'
    · rw [h] at hd'
      cases hd'
      exact ho hm

/-! ## One step -/

theorem eq_of_requests_creating (hd : w.destroying t = none) (hr : w.requests t = true) :
    ∃ o, w.creating t = some (.lock o) := by
  unfold requests at hr
  rw [hd] at hr
  cases hc : w.creating t with
  | none => simp [hc] at hr
  | some p =>
    cases p with
    | lock o => exact ⟨o, rfl⟩
    | _ => simp [hc] at hr

/-- The thread that is in `add` with the mutex and in no destructor has the mutex. -/
theorem InvAt.mutex_iff_locked (hi : w.InvAt t) (hd : w.destroying t = none) {p : Creating}
    (hp : w.creating t = some p) : w.mutex = some t ↔ p.locked = true := by
  have hadd : w.inAdd t = p.locked := by
    unfold inAdd
    rw [hp]
    rfl
  have hrem : w.inRemove t = false := by
    unfold inRemove
    rw [hd]
    rfl
  rw [hi.holder, hadd, hrem]
  simp

theorem InvAt.mutex_of_erase (hi : w.InvAt t) {id : Nat} (hd : w.destroying t = some (.erase id)) :
    w.mutex = some t := by
  refine hi.holder.mpr (Or.inr ?_)
  unfold inRemove
  rw [hd]
  rfl

theorem sameAt_stepCreating (hi : w.InvAt t) (hd : w.destroying t = none) {p : Creating}
    (hp : w.creating t = some p) (hu : u ≠ t) : SameAt u w (w.stepCreating t p) := by
  have hmutex := hi.mutex_iff_locked hd hp
  cases p with
  | lock o => exact ⟨rfl, rfl, Iff.rfl, fun _ => rfl⟩
  | scan o rest =>
    cases rest with
    | nil => exact sameAt_goto hu _
    | cons entry rest =>
      unfold stepCreating
      dsimp only
      split
      · exact sameAt_goto hu _
      · exact sameAt_goto hu _
  | lockEntry o entry rest =>
    unfold stepCreating
    dsimp only
    split
    · exact sameAt_hold.trans (sameAt_goto hu _)
    · exact sameAt_goto hu _
  | compare o entry rest =>
    unfold stepCreating
    dsimp only
    split
    · exact (sameAt_goto hu _).trans (sameAt_release hu)
    · exact (sameAt_goto hu _).trans (sameAt_release hu)
  | store o =>
    have hm : w.mutex = some t := hmutex.mpr rfl
    exact (sameAt_mutex (Or.inr hm) (Or.inr hm) hu).trans (sameAt_goto hu _)
  | unlock o id =>
    exact (sameAt_mutex (Or.inr (hmutex.mpr rfl)) (Or.inl rfl) hu).trans (sameAt_goto hu _)
  | release o id => exact (sameAt_goto hu _).trans (sameAt_release hu)
  | setNodeId o id => exact ⟨Function.update_of_ne hu .., rfl, Iff.rfl, fun _ => rfl⟩

theorem sameAt_stepDestroying (hi : w.InvAt t) {d : Destroying} (hd : w.destroying t = some d)
    (hen : w.Enabled (.step t)) (hu : u ≠ t) : SameAt u w (w.stepDestroying t d) := by
  cases d with
  | destructor o =>
    unfold stepDestroying
    dsimp only
    split
    · exact ⟨rfl, Function.update_of_ne hu .., Iff.rfl, fun _ => rfl⟩
    · exact sameAt_gotoDestroying hu _
  | lock id =>
    have hfree : w.mutex = none := (hen.2 (by simp [requests, hd])).2
    exact (sameAt_mutex (Or.inl hfree) (Or.inr rfl) hu).trans (sameAt_gotoDestroying hu _)
  | erase id =>
    obtain ⟨hc, -, hm, hs⟩ := sameAt_mutex (w := w) (s := w.storage.remove id)
      (Or.inr (hi.mutex_of_erase hd)) (Or.inl rfl) hu
    exact ⟨hc, Function.update_of_ne hu .., hm, hs⟩

theorem next_lock {order : List Entry} (hc : w.creating t = some (.lock o)) :
    w.next (.lock t order) = w.locked t o order := by
  unfold next
  dsimp only
  rw [hc]

theorem next_destroying {d : Destroying} (hd : w.destroying t = some d) :
    w.next (.step t) = w.stepDestroying t d := by
  unfold next
  dsimp only
  rw [hd]

theorem next_creating {p : Creating} (hd : w.destroying t = none)
    (hp : w.creating t = some p) : w.next (.step t) = w.stepCreating t p := by
  unfold next
  dsimp only
  rw [hd, hp]

/-- **A step leaves the other threads alone**: where they are, whether they have the mutex, and the
storage while they have it. -/
theorem sameAt_next (hi : w.InvAt a.thread) (hen : w.Enabled a) (hu : u ≠ a.thread) :
    SameAt u w (w.next a) := by
  cases a with
  | create t =>
    have hcount : SameAt u w { w with created := w.created + 1 } :=
      ⟨rfl, rfl, Iff.rfl, fun _ => rfl⟩
    exact hcount.trans (sameAt_hold.trans (sameAt_hold.trans (sameAt_goto hu _)))
  | take t o => exact sameAt_hold
  | drop t o => exact sameAt_release hu
  | lock t order =>
    obtain ⟨hd, hr, hfree, -⟩ := hen
    obtain ⟨o, hc⟩ := eq_of_requests_creating hd hr
    rw [next_lock hc]
    unfold locked
    dsimp only
    split
    · exact (sameAt_mutex (Or.inl hfree) (Or.inr rfl) hu).trans (sameAt_goto hu _)
    · exact (sameAt_mutex (Or.inl hfree) (Or.inr rfl) hu).trans (sameAt_goto hu _)
  | step t =>
    cases hd : w.destroying t with
    | some d =>
      rw [next_destroying hd]
      exact sameAt_stepDestroying hi hd hen hu
    | none =>
      cases hp : w.creating t with
      | some p =>
        rw [next_creating hd hp]
        exact sameAt_stepCreating hi hd hp hu
      | none => exact absurd ⟨hp, hd⟩ hen.1

theorem InvAt.stored (hi : w.InvAt t) {entry : Entry} {rest : List Entry}
    (hp : w.creating t = some (.compare o entry rest)) : w.storage.get entry.1 = some entry.2 :=
  hi.entries _ hp entry List.mem_cons_self

theorem invAt_stepCreating (hi : w.InvAt t) (hd : w.destroying t = none) {p : Creating}
    (hp : w.creating t = some p) : (w.stepCreating t p).InvAt t := by
  have hmutex := hi.mutex_iff_locked hd hp
  have hentries := hi.entries p hp
  cases p with
  | lock o => exact hi
  | scan o rest =>
    cases rest with
    | nil => exact .goto hd hmutex fun e he => absurd he List.not_mem_nil
    | cons entry rest =>
      unfold stepCreating
      dsimp only
      split
      · exact .goto hd hmutex fun e he => hentries e (List.mem_cons_of_mem _ he)
      · exact .goto hd hmutex hentries
  | lockEntry o entry rest =>
    unfold stepCreating
    dsimp only
    split
    · exact .goto hd hmutex hentries
    · exact .goto hd hmutex fun e he => hentries e (List.mem_cons_of_mem _ he)
  | compare o entry rest =>
    have hstored : w.mutex = some t → ∃ id, w.storage.get id = some entry.2 :=
      fun _ => ⟨entry.1, hi.stored hp⟩
    unfold stepCreating
    dsimp only
    split
    · have hgo : (w.goto t (.unlock o entry.1)).InvAt t :=
        .goto hd hmutex fun e he => absurd he List.not_mem_nil
      exact hgo.release hd hstored
    · have hgo : (w.goto t (.scan o rest)).InvAt t :=
        .goto hd hmutex fun e he => hentries e (List.mem_cons_of_mem _ he)
      exact hgo.release hd hstored
  | store o => exact .goto hd hmutex fun e he => absurd he List.not_mem_nil
  | unlock o id => exact .goto hd (by simp [Creating.locked]) fun e he => absurd he List.not_mem_nil
  | release o id =>
    have hno : w.mutex ≠ some t := by simp [hmutex, Creating.locked]
    have hgo : (w.goto t (.setNodeId o id)).InvAt t :=
      .goto hd hmutex fun e he => absurd he List.not_mem_nil
    exact hgo.release hd fun hm => absurd hm hno
  | setNodeId o id =>
    have hno : w.mutex ≠ some t := by simp [hmutex, Creating.locked]
    unfold stepCreating
    refine ⟨iff_of_false hno ?_, ?_, ?_, fun o hm => absurd hm hno⟩
    · simp [inAdd, inRemove, hd]
    · simp [inAdd]
    · intro p hp
      simp at hp

theorem invAt_stepDestroying (hi : w.InvAt t) {d : Destroying} (hd : w.destroying t = some d)
    (hen : w.Enabled (.step t)) : (w.stepDestroying t d).InvAt t := by
  obtain ⟨hholder, hone, hentries, -⟩ := hi
  cases d with
  | destructor o =>
    have hrem : w.inRemove t = false := by
      unfold inRemove
      rw [hd]
      rfl
    unfold stepDestroying
    dsimp only
    split
    · refine ⟨hholder.trans ?_, ?_, hentries, ?_⟩
      · simp [inAdd, inRemove, hd, Destroying.locked]
      · intro _
        simp [inRemove]
      · intro o _ ho
        simp at ho
    · refine ⟨hholder.trans ?_, ?_, hentries, ?_⟩
      · simp [gotoDestroying, inAdd, inRemove, hd, Destroying.locked]
      · intro _
        simp [gotoDestroying, inRemove, Destroying.locked]
      · intro o _ ho
        simp [gotoDestroying] at ho
  | lock id =>
    have hfree : w.mutex = none := (hen.2 (by simp [requests, hd])).2
    have hadd : w.inAdd t = false := by
      cases h : w.inAdd t with
      | false => rfl
      | true =>
        have := hholder.mpr (Or.inl h)
        rw [hfree] at this
        cases this
    refine ⟨iff_of_true rfl (Or.inr ?_), ?_, hentries, ?_⟩
    · simp [stepDestroying, gotoDestroying, inRemove, Destroying.locked]
    · intro h
      exact absurd h (by simpa [stepDestroying, gotoDestroying, inAdd] using hadd)
    · intro o _ ho
      simp [stepDestroying, gotoDestroying] at ho
  | erase id =>
    have hadd : w.inAdd t = false := by
      cases h : w.inAdd t with
      | false => rfl
      | true =>
        have := hone h
        simp [inRemove, hd, Destroying.locked] at this
    have hadd' : (w.creating t).any Creating.locked = false := hadd
    unfold stepDestroying
    refine ⟨iff_of_false (by simp) ?_, ?_, ?_, ?_⟩
    · simp [inAdd, inRemove, hadd']
    · intro h
      exact absurd h (by simpa [inAdd] using hadd')
    · intro p hp e he
      have hp' : w.creating t = some p := hp
      rw [hp'] at hadd'
      exact absurd (locked_of_entries he) (by simpa using hadd')
    · intro o hm
      cases hm

/-- **A step keeps the invariant of the thread that acts.** -/
theorem invAt_next (hi : w.InvAt a.thread) (hen : w.Enabled a) : (w.next a).InvAt a.thread := by
  cases a with
  | create t =>
    have hno := hi.not_mutex_of_idle hen
    exact .goto hen.2 (iff_of_false hno (by simp [Creating.locked]))
      fun e he => absurd he List.not_mem_nil
  | take t o => exact ⟨hi.holder, hi.one, hi.entries, hi.dying⟩
  | drop t o => exact hi.release hen.1.2 fun hm => absurd hm (hi.not_mutex_of_idle hen.1)
  | lock t order =>
    obtain ⟨hd, hr, -, hperm⟩ := hen
    obtain ⟨o, hc⟩ := eq_of_requests_creating hd hr
    have hd' : w.destroying t = none := hd
    show (w.next (.lock t order)).InvAt t
    rw [next_lock hc]
    unfold locked
    dsimp only
    split
    · exact .goto hd' (iff_of_true rfl rfl) fun e he => absurd he List.not_mem_nil
    · refine .goto hd' (iff_of_true rfl rfl) ?_
      intro e he
      have hmem : e ∈ (w.storage.room w.alive).objects.toList := hperm.mem_iff.mp he
      exact Std.ExtTreeMap.mem_toList_iff_getElem?_eq_some.mp hmem
  | step t =>
    show (w.next (.step t)).InvAt t
    cases hd : w.destroying t with
    | some d =>
      rw [next_destroying hd]
      exact invAt_stepDestroying hi hd hen
    | none =>
      cases hp : w.creating t with
      | some p =>
        rw [next_creating hd hp]
        exact invAt_stepCreating hi hd hp
      | none => exact absurd ⟨hp, hd⟩ hen.1

theorem inv_next (hi : ∀ t, w.InvAt t) (hen : w.Enabled a) (t : ThreadId) :
    (w.next a).InvAt t := by
  by_cases ht : t = a.thread
  · rw [ht]
    exact invAt_next (hi _) hen
  · exact (hi t).of_sameAt (sameAt_next (hi _) hen ht)

/-! ## When the lock is safe -/

/-- The thread has the mutex in no destructor but for the `remove` of one. -/
def CleanAt (w : Threads) (t : ThreadId) : Prop :=
  w.mutex = some t → ∀ d, w.destroying t = some d → d.locked = true

/-- Under the invariant the lock is safe where every thread is clean. -/
theorem safe_iff (hi : ∀ t, w.InvAt t) : w.Safe ↔ ∀ t, w.CleanAt t := by
  constructor
  · intro hs t hm d hd
    cases d with
    | destructor o =>
      obtain ⟨id, hget⟩ := (hi t).dying o hm hd
      exact absurd hget (hs.destructor t o id hm hd)
    | lock id =>
      have hr := hs.request t hm
      simp [requests, hd] at hr
    | erase id => rfl
  · intro hc
    refine ⟨?_, ?_⟩
    · intro t o id hm hd
      have := hc t hm _ hd
      cases this
    · intro t hm
      cases hr : w.requests t with
      | false => rfl
      | true =>
        cases hd : w.destroying t with
        | some d =>
          have hlocked := hc t hm d hd
          cases d with
          | erase id => simp [requests, hd] at hr
          | _ => cases hlocked
        | none =>
          obtain ⟨o, hp⟩ := eq_of_requests_creating hd hr
          have := ((hi t).mutex_iff_locked hd hp).mp hm
          cases this

theorem CleanAt.of_sameAt (hc : w.CleanAt u) (h : SameAt u w w') : w'.CleanAt u := by
  intro hm d hd
  rw [h.mutex] at hm
  rw [h.destroying] at hd
  exact hc hm d hd

theorem cleanAt_of_none (hd : w.destroying t = none) : w.CleanAt t := fun _ d h => by
  rw [hd] at h
  cases h

theorem cleanAt_of_not_mutex (hm : w.mutex ≠ some t) : w.CleanAt t := fun h => absurd h hm

/-- A release by a thread that has the mutex is clean if another reference to the node is left. -/
theorem cleanAt_release_iff (hd : w.destroying t = none) (hm : w.mutex = some t) :
    (w.release t o).CleanAt t ↔ (w.without t o).alive o = true := by
  constructor
  · intro hc
    by_contra hdead
    have hdes : (w.release t o).destroying t = some (.destructor o) := by
      rw [release_destroying, if_neg hdead]
      exact Function.update_self ..
    have hlocked := hc ((release_mutex w t o).trans hm) _ hdes
    cases hlocked
  · intro hlive
    refine cleanAt_of_none ?_
    rw [release_destroying, if_pos hlive]
    exact hd

theorem cleanAt_stepCreating_iff (hi : w.InvAt t) (hd : w.destroying t = none) {p : Creating}
    (hp : w.creating t = some p) : (w.stepCreating t p).CleanAt t ↔ w.Kept (.step t) := by
  have hmutex := hi.mutex_iff_locked hd hp
  -- only the release of a temporary reference is under the condition
  have hfree (h : w.temporary t = none) : w.Kept (.step t) := fun o ho => by
    rw [h] at ho
    cases ho
  cases p with
  | compare o entry rest =>
    have hm : w.mutex = some t := hmutex.mpr rfl
    have hkept : w.Kept (.step t) ↔ (w.without t entry.2).alive entry.2 = true := by
      simp [Kept, temporary, hd, hp]
    rw [hkept]
    unfold stepCreating
    dsimp only
    split
    · exact cleanAt_release_iff (w := w.goto t (.unlock o entry.1)) hd hm
    · exact cleanAt_release_iff (w := w.goto t (.scan o rest)) hd hm
  | release o id =>
    refine iff_of_true (cleanAt_of_not_mutex ?_) (hfree (by simp [temporary, hd, hp]))
    have hno : w.mutex ≠ some t := by simp [hmutex, Creating.locked]
    unfold stepCreating
    rw [release_mutex]
    exact hno
  | scan o rest =>
    refine iff_of_true (cleanAt_of_none ?_) (hfree (by simp [temporary, hd, hp]))
    cases rest with
    | nil => exact hd
    | cons entry rest =>
      unfold stepCreating
      dsimp only
      split
      · exact hd
      · exact hd
  | lockEntry o entry rest =>
    refine iff_of_true (cleanAt_of_none ?_) (hfree (by simp [temporary, hd, hp]))
    unfold stepCreating
    dsimp only
    split
    · exact hd
    · exact hd
  | _ => exact iff_of_true (cleanAt_of_none hd) (hfree (by simp [temporary, hd, hp]))

/-- **One step is clean exactly under the condition**, for the thread that acts. -/
theorem cleanAt_next_iff (hi : w.InvAt a.thread) (hen : w.Enabled a) (hc : w.CleanAt a.thread) :
    (w.next a).CleanAt a.thread ↔ w.Kept a := by
  cases a with
  | create t => exact iff_of_true (cleanAt_of_none hen.2) trivial
  | take t o => exact iff_of_true hc trivial
  | drop t o =>
    refine iff_of_true (cleanAt_of_not_mutex ?_) trivial
    show (w.release t o).mutex ≠ some t
    rw [release_mutex]
    exact hi.not_mutex_of_idle hen.1
  | lock t order =>
    obtain ⟨hd, hr, -, -⟩ := hen
    obtain ⟨o, ho⟩ := eq_of_requests_creating hd hr
    refine iff_of_true (cleanAt_of_none ?_) trivial
    show (w.next (.lock t order)).destroying t = none
    rw [next_lock ho]
    unfold locked
    dsimp only
    split
    · exact hd
    · exact hd
  | step t =>
    show (w.next (.step t)).CleanAt t ↔ _
    cases hd : w.destroying t with
    | some d =>
      have hkept : w.Kept (.step t) := by simp [Kept, temporary, hd]
      rw [next_destroying hd]
      refine iff_of_true ?_ hkept
      cases d with
      | destructor o =>
        -- the destructor was started without the mutex, and does not have it now
        refine cleanAt_of_not_mutex ?_
        have hno : w.mutex ≠ some t := fun hm => by
          have := hc hm _ hd
          cases this
        unfold stepDestroying
        dsimp only
        split
        · exact hno
        · exact hno
      | lock id =>
        intro _ d hd'
        have : d = .erase id := by simpa [stepDestroying, gotoDestroying] using hd'.symm
        rw [this]
        rfl
      | erase id =>
        refine cleanAt_of_not_mutex ?_
        unfold stepDestroying
        simp
    | none =>
      cases hp : w.creating t with
      | some p =>
        rw [next_creating hd hp]
        exact cleanAt_stepCreating_iff hi hd hp
      | none => exact absurd ⟨hp, hd⟩ hen.1

/-- **One step is safe exactly under the condition.** -/
theorem safe_next_iff (hi : ∀ t, w.InvAt t) (hen : w.Enabled a) (hs : w.Safe) :
    (w.next a).Safe ↔ w.Kept a := by
  have hc := (safe_iff hi).mp hs
  rw [safe_iff fun t => inv_next hi hen t, ← cleanAt_next_iff (hi _) hen (hc _)]
  refine ⟨fun h => h a.thread, ?_⟩
  intro h t
  by_cases ht : t = a.thread
  · rw [ht]
    exact h
  · exact (hc t).of_sameAt (sameAt_next (hi _) hen ht)

end Threads

/-! ## Whole runs -/

variable {maxCount : Nat}

theorem inv_init {w : Threads} (hw : Init maxCount w) (t : ThreadId) : w.InvAt t := by
  obtain ⟨-, hm, -, hidle⟩ := hw
  obtain ⟨hc, hd⟩ := hidle t
  refine ⟨iff_of_false (by simp [hm]) ?_, ?_, ?_, ?_⟩
  · simp [Threads.inAdd, Threads.inRemove, hc, hd]
  · intro h
    simp [Threads.inAdd, hc] at h
  · intro p hp
    rw [hc] at hp
    cases hp
  · intro o h
    rw [hm] at h
    cases h

theorem safe_init {w : Threads} (hw : Init maxCount w) : w.Safe := by
  obtain ⟨-, hm, -, -⟩ := hw
  refine ⟨?_, ?_⟩
  · intro t o id h
    rw [hm] at h
    cases h
  · intro t h
    rw [hm] at h
    cases h

/-- **When registering a node cannot deadlock on its own lock.** In a run of any threads that share
the storage, no thread that has the mutex starts the destructor of a stored node or asks for the
mutex, in any state of the run, exactly if at each release of a temporary reference by the scan of
`add` another reference to that node is held. -/
theorem safe_run_iff {h : List (Threads × Action)} {w : Threads} (hr : Run (machine maxCount) h w) :
    (∀ x ∈ h, x.1.Kept x.2) ↔ (∀ x ∈ h, x.1.Safe) ∧ w.Safe :=
  hr.guard_iff (I := fun w => ∀ t, w.InvAt t) (A := fun _ _ => True)
    (fun _ hw => ⟨inv_init hw, safe_init hw⟩) (fun _ _ hi hen _ => Threads.inv_next hi hen)
    (fun _ _ hi hen _ => Threads.safe_next_iff hi hen) fun _ _ => trivial

/-! ## A call that nobody interrupts -/

namespace Threads

variable {w : Threads} {t : ThreadId} {o : NodeRef}

/-- The thread goes on for a while, and no other thread acts. -/
def Alone (t : ThreadId) : Threads → Threads → Prop :=
  Relation.ReflTransGen fun w w' => w' = w.next (.step t)

theorem alone_goto {p : Creating} (hd : w.destroying t = none) :
    Alone t (w.goto t p) ((w.goto t p).stepCreating t p) :=
  .single (next_creating (w := w.goto t p) hd (goto_creating_self w t p)).symm

@[simp] theorem goto_goto (p q : Creating) : (w.goto t p).goto t q = w.goto t q := by
  unfold goto
  rw [Function.update_idem]

/-- A temporary reference to a node that is alive comes and goes. -/
theorem release_hold (hlive : w.alive o = true) (p q : Creating) :
    (((w.hold t o).goto t p).goto t q).release t o = w.goto t q := by
  have hrefs : (((w.hold t o).goto t p).goto t q).without t o = w.goto t q := by
    rw [goto_goto]
    unfold without goto hold
    simp
  have hlive' : (w.goto t q).alive o = true := hlive
  unfold release
  rw [hrefs, if_pos hlive']

/-- The scan skips an expired entry. -/
theorem alone_expired {entry : Entry} {rest : List Entry} (hd : w.destroying t = none)
    (hdead : w.alive entry.2 = false) :
    Alone t (w.goto t (.scan o (entry :: rest))) (w.goto t (.scan o rest)) := by
  have hexp : WeakPtr.expired (w.goto t (.scan o (entry :: rest))).alive (some entry.2) := by
    rw [WeakPtr.expired_iff]
    rintro x hx
    cases hx
    exact hdead
  have hscan := alone_goto (p := .scan o (entry :: rest)) hd
  unfold stepCreating at hscan
  dsimp only at hscan
  rw [if_pos hexp, goto_goto] at hscan
  exact hscan

/-- The scan compares an entry that is alive, and leaves the references as they were. -/
theorem alone_compared {entry : Entry} (rest : List Entry) (hd : w.destroying t = none)
    (hlive : w.alive entry.2 = true) : Alone t (w.goto t (.scan o (entry :: rest)))
      (if entry.2 = o then w.goto t (.unlock o entry.1) else w.goto t (.scan o rest)) := by
  have hne : ¬ WeakPtr.expired (w.goto t (.scan o (entry :: rest))).alive (some entry.2) := by
    rw [WeakPtr.expired_iff]
    intro h
    have hdead : w.alive entry.2 = false := h entry.2 rfl
    rw [hlive] at hdead
    cases hdead
  have hsome : WeakPtr.lock (w.goto t (.lockEntry o entry rest)).alive (some entry.2)
      = some entry.2 := WeakPtr.lock_eq_some.mpr ⟨rfl, hlive⟩
  have hscan := alone_goto (p := .scan o (entry :: rest)) hd
  have hlock := alone_goto (p := .lockEntry o entry rest) hd
  have hcompare := alone_goto (w := w.hold t entry.2) (p := .compare o entry rest) hd
  unfold stepCreating at hscan hlock hcompare
  dsimp only at hscan hlock hcompare
  rw [if_neg hne, goto_goto] at hscan
  rw [hsome] at hlock
  rw [release_hold hlive, release_hold hlive] at hcompare
  have htaken : ((w.goto t (.lockEntry o entry rest)).hold t entry.2).goto t (.compare o entry rest)
      = (w.hold t entry.2).goto t (.compare o entry rest) := goto_goto (w := w.hold t entry.2) ..
  dsimp only at hlock
  rw [htaken] at hlock
  exact hscan.trans (hlock.trans hcompare)

/-- Where the scan ends: at the first entry that is alive and holds the node. -/
def scanned (w : Threads) (o : NodeRef) (rest : List Entry) : Creating :=
  match rest.find? fun entry => w.alive entry.2 && decide (entry.2 = o) with
  | some entry => .unlock o entry.1
  | none => .store o

theorem scanned_cons (entry : Entry) (rest : List Entry) : w.scanned o (entry :: rest) =
    if w.alive entry.2 = true ∧ entry.2 = o then .unlock o entry.1 else w.scanned o rest := by
  unfold scanned
  rw [List.find?_cons]
  by_cases h : w.alive entry.2 = true ∧ entry.2 = o
  · have hp : (w.alive entry.2 && decide (entry.2 = o)) = true := by
      rw [h.1]
      simpa using h.2
    rw [hp, if_pos h]
  · have hp : (w.alive entry.2 && decide (entry.2 = o)) = false := by simpa using h
    rw [hp, if_neg h]

theorem alone_scan (hd : w.destroying t = none) : ∀ rest : List Entry,
    Alone t (w.goto t (.scan o rest)) (w.goto t (w.scanned o rest))
  | [] => by
    have hstep := alone_goto (p := .scan o []) hd
    unfold stepCreating at hstep
    dsimp only at hstep
    rw [goto_goto] at hstep
    exact hstep
  | entry :: rest => by
    have ih := alone_scan hd rest
    rw [scanned_cons]
    by_cases hlive : w.alive entry.2 = true
    · have hhead := alone_compared (o := o) rest hd hlive
      by_cases ho : entry.2 = o
      · rw [if_pos ho] at hhead
        rw [if_pos ⟨hlive, ho⟩]
        exact hhead
      · rw [if_neg ho] at hhead
        rw [if_neg fun h => ho h.2]
        exact hhead.trans ih
    · rw [if_neg fun h => hlive h.1]
      exact (alone_expired hd (by simpa using hlive)).trans ih

/-- In whatever order it sees the entries, the scan ends where `find_if` of `add` does. -/
theorem scanned_eq {order : List Entry} (hdist : w.storage.Distinct) (hlive : w.alive o = true)
    (hperm : order.Perm w.storage.objects.toList) : w.scanned o order =
      match w.storage.findObject w.alive o with
      | some id => .unlock o id
      | none => .store o := by
  have hmem (e : Entry) : e ∈ order ↔ w.storage.get e.1 = some e.2 :=
    hperm.mem_iff.trans Std.ExtTreeMap.mem_toList_iff_getElem?_eq_some
  unfold scanned
  cases hscan : order.find? fun entry => w.alive entry.2 && decide (entry.2 = o) with
  | some entry =>
    have hget := (hmem entry).mp (List.mem_of_find?_eq_some hscan)
    have ho : entry.2 = o := by
      have := List.find?_some hscan
      simp only [Bool.and_eq_true, decide_eq_true_eq] at this
      exact this.2
    rw [ho] at hget
    cases hfind : w.storage.findObject w.alive o with
    | some id =>
      have hid : entry.1 = id :=
        hdist _ _ o hget (UniqueIdObjectStorage.findObject_eq_some hfind)
      dsimp only
      rw [hid]
    | none => exact absurd hget (UniqueIdObjectStorage.findObject_eq_none hlive hfind)
  | none =>
    cases hfind : w.storage.findObject w.alive o with
    | none => rfl
    | some id =>
      have hget := (hmem (id, o)).mpr (UniqueIdObjectStorage.findObject_eq_some hfind)
      have hno := List.find?_eq_none.mp hscan _ hget
      simp [hlive] at hno

/-- **A call that no other thread comes into is `add`**, in whatever order the scan sees the
entries: it returns what `add` returns, leaves the storage and the references as `add` does, and
gives the mutex back. -/
theorem alone_add {order : List Entry} (hen : w.Enabled (.lock t order))
    (hp : w.creating t = some (.lock o)) (hlive : w.alive o = true)
    (hdist : w.storage.Distinct) : Alone t (w.next (.lock t order))
      ({ w with storage := (w.storage.add w.alive (some o)).2 }.goto t
        (.release o (w.storage.add w.alive (some o)).1)) := by
  obtain ⟨hd, -, hfree, hperm⟩ := hen
  -- the storage is left as `s`, the number is `id`, and the lock goes last
  have hunlock (s : UniqueIdObjectStorage NodeRef) (id : Nat) :
      Alone t ({ w with storage := s, mutex := some t }.goto t (.unlock o id))
        ({ w with storage := s }.goto t (.release o id)) := by
    have h := alone_goto (w := { w with storage := s, mutex := some t }) (p := .unlock o id) hd
    have he : ({ w with storage := s, mutex := some t }.goto t (.unlock o id)).stepCreating t
        (.unlock o id) = { w with storage := s }.goto t (.release o id) := by
      unfold stepCreating goto
      simp only [Function.update_idem, hfree]
    rwa [he] at h
  rw [next_lock hp, UniqueIdObjectStorage.add_eq (WeakPtr.lock_eq_some.mpr ⟨rfl, hlive⟩)]
  unfold locked
  dsimp only
  rw [UniqueIdObjectStorage.room_maxCount]
  by_cases hfull : (w.storage.room w.alive).objects.size = w.storage.maxCount
  · rw [if_pos hfull, if_pos hfull]
    exact hunlock _ _
  · rw [if_neg hfull, if_neg hfull]
    have hroom : (w.storage.room w.alive).Distinct :=
      hdist.of_get fun _ _ => UniqueIdObjectStorage.get_of_get_room
    have hscan := alone_scan (o := o)
      (w := { w with storage := w.storage.room w.alive, mutex := some t }) hd order
    have hend := scanned_eq (w := { w with storage := w.storage.room w.alive, mutex := some t })
      hroom hlive hperm
    rw [hend] at hscan
    refine hscan.trans ?_
    unfold UniqueIdObjectStorage.addLocked
    dsimp only
    show Alone t ({ w with storage := w.storage.room w.alive, mutex := some t }.goto t
      (match (w.storage.room w.alive).findObject w.alive o with
        | some id => .unlock o id
        | none => .store o)) _
    cases hfind : (w.storage.room w.alive).findObject w.alive o with
    | some id => exact hunlock _ _
    | none =>
      have hstore := alone_goto (p := .store o)
        (w := { w with storage := w.storage.room w.alive, mutex := some t }) hd
      refine hstore.trans ?_
      have hnew := hunlock (store { w with storage := w.storage.room w.alive } o).2
        (store { w with storage := w.storage.room w.alive } o).1
      unfold stepCreating
      unfold goto at hnew ⊢
      dsimp only at hnew ⊢
      rw [Function.update_idem]
      exact hnew

end Threads

/-! ## A thread that waits for itself -/

namespace Threads

variable {w : Threads} {t : ThreadId} {a : Action}

/-- A thread that asks for the mutex it has cannot act. -/
theorem thread_ne_of_requests (hi : w.InvAt t) (hm : w.mutex = some t) (hr : w.requests t = true)
    (hen : w.Enabled a) : t ≠ a.thread := by
  rintro rfl
  cases a with
  | create t => exact hi.not_mutex_of_idle hen hm
  | take t o => exact hi.not_mutex_of_idle hen.1 hm
  | drop t o => exact hi.not_mutex_of_idle hen.1 hm
  | lock t order =>
    obtain ⟨-, -, hfree, -⟩ := hen
    have hm' : w.mutex = some t := hm
    rw [hfree] at hm'
    cases hm'
  | step t =>
    have hm' : w.mutex = some t := hm
    rw [(hen.2 hr).2] at hm'
    cases hm'

/-- **It waits forever**, and so does every thread that asks for the mutex from then on: whatever
the other threads do, the mutex stays with the thread that asks for it. -/
theorem deadlock_next (hi : ∀ t, w.InvAt t) (hen : w.Enabled a) (hm : w.mutex = some t)
    (hr : w.requests t = true) : (w.next a).mutex = some t ∧ (w.next a).requests t = true := by
  have hsame := sameAt_next (hi _) hen (thread_ne_of_requests (hi t) hm hr hen)
  refine ⟨hsame.mutex.mpr hm, ?_⟩
  unfold requests
  rw [hsame.destroying, hsame.creating]
  exact hr

end Threads

/-! ## Two connections -/

/-- Nothing has happened yet. -/
def start : Threads where
  storage := .new invalidId
  mutex := none
  refs := []
  created := 0
  nodeId _ := invalidId
  creating _ := none
  destroying _ := none

theorem init_start : Init invalidId start := ⟨rfl, rfl, rfl, fun _ => ⟨rfl, rfl⟩⟩

/-- Thread 1 creates a node, and while thread 0 creates another one its scan has a temporary
reference to the first. -/
def opening : List Action :=
  [.create 1, .lock 1 [], .step 1, .step 1, .step 1, .step 1, .step 1,
    .create 0, .lock 0 [(0, 0)], .step 0, .step 0]

/-- The run that starts with these steps. -/
theorem run_opening (as : List Action)
    (h : (machine invalidId).Plays start (opening ++ as)) :
    Run (machine invalidId) ((machine invalidId).history start (opening ++ as))
      ((machine invalidId).exec start (opening ++ as)) :=
  run_play (M := machine invalidId) _ init_start h

/-- Thread 1 keeps its node, and thread 0 comes through. -/
theorem safe_opening : ((machine invalidId).exec start (opening ++ [.step 0])).Safe := by
  have hr := run_opening [.step 0] (by decide)
  have hkept : ∀ x ∈ (machine invalidId).history start (opening ++ [.step 0]), x.1.Kept x.2 := by
    decide
  exact ((safe_run_iff hr).mp hkept).2

/-- **The scan runs a destructor under the mutex** where thread 1 drops its node in between. -/
theorem scan_destroys : ¬ ∀ h w, Run (machine invalidId) h w → w.Safe := by
  intro hsafe
  have hs := hsafe _ _ (run_opening [.drop 1 0, .step 0] (by decide))
  exact hs.destructor 0 0 0 (by decide) (by decide) (by decide)

end ObjectLink.Sharing
