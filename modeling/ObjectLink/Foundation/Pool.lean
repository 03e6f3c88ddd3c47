import Mathlib.Logic.Function.Basic
import Mathlib.Logic.Relation
import ObjectLink.Foundation.Threads

/-!
# Threads that share mutexes

Any number of threads that run programs over one state. A mutex is given to a thread only while
nobody has it; a thread that asks for one that is taken waits. What the mutexes are for is a
`Discipline`: the order in which they are acquired, the part of the state each protects, and what
holds of the part while the mutex is free.

* `Guarded`: a program keeps to the discipline: it asks for mutexes in their order, changes a part
  only while it holds its mutex, leaves the part sound when it releases it, and calls code outside
  without a mutex. It may count on a part to stay as it knows it while it holds the mutex.
* `Leaves`, `Edits`: the same for a piece of code that changes none of the parts it can rely on,
  and for one in a critical section, with a rule for each way to put code together.
* `inv_run`: if the operations keep to the discipline, so does every thread in every run, and the
  part of a mutex that nobody has is sound.
* `progress`: a thread that is running waits for a chain of threads the last of which can go on, so
  there is no deadlock.
* `part_next`: a step changes only parts whose mutexes the thread has.
-/

namespace ObjectLink.Foundation

variable {P : Platform} {O ι : Type}

/-! ## Pools of threads -/

/-- What one of the threads has of its own; with the state it is a `Thread`. -/
structure Worker (P : Platform) where
  held : List P.Mutex
  running : Option (Program P Unit)
  waiting : List (Except P.Exception P.Reply → Program P Unit)

/-- Threads on one state. -/
structure Pool (P : Platform) (ι : Type) where
  state : P.State
  workers : ι → Worker P

/-- What can happen. -/
inductive PoolAction (P : Platform) (O ι : Type) where
  /-- Code outside calls an operation on the thread. -/
  | start (i : ι) (op : O)
  | step (i : ι)
  /-- The code outside that the thread is running ends a call. -/
  | answer (i : ι) (reply : Except P.Exception P.Reply) (state : P.State)
  /-- What is not up to the threads changes. -/
  | outside (state : P.State)

namespace Pool

section Steps

variable [DecidableEq P.Mutex] [DecidableEq ι] (code : O → Program P Unit)
  (changes : P.State → P.State → Prop) (p : Pool P ι)

/-- One of them, with the state. -/
def thread (i : ι) : Thread P where
  state := p.state
  held := (p.workers i).held
  running := (p.workers i).running
  waiting := (p.workers i).waiting

/-- The pool once a thread has gone on. -/
def put (i : ι) (t : Thread P) : Pool P ι where
  state := t.state
  workers := Function.update p.workers i
    { held := t.held, running := t.running, waiting := t.waiting }

/-- The pool after it. -/
def next : PoolAction P O ι → Pool P ι
  | .start i op => p.put i ((p.thread i).next code (.start op))
  | .step i => p.put i (p.thread i).step
  | .answer i reply state => p.put i ((p.thread i).next code (.answer reply state))
  | .outside state => { p with state := state }

/-- Nobody has the mutex. -/
def Free (m : P.Mutex) : Prop := ∀ i, m ∉ (p.workers i).held

/-- The thread runs a program that does not ask for a mutex that is taken. -/
def CanStep (i : ι) : Prop :=
  match (p.workers i).running with
  | some (.acquire m _) => p.Free m
  | some _ => True
  | none => False

/-- When an action is possible. What the threads do not do themselves keeps to `changes`. -/
def Enabled : PoolAction P O ι → Prop
  | .start i _ => (p.workers i).running.isNone = true
  | .step i => p.CanStep i
  | .answer i _ state => (p.workers i).running.isNone = true ∧
    (p.workers i).waiting.isEmpty = false ∧ changes p.state state
  | .outside state => changes p.state state

/-- The first thread asks for a mutex that the second one has. -/
def WaitsFor (i j : ι) : Prop := ∃ m, (p.thread i).Requests m ∧ m ∈ (p.workers j).held

/-- If the action accesses the state, it meets the condition. -/
def Accesses (meets : AccessCondition P) : PoolAction P O ι → Prop
  | .step i => (p.thread i).Accesses meets (ThreadAction.step : ThreadAction P O)
  | _ => True

end Steps

section CanStep

variable {p : Pool P ι} {i : ι}

/-- A thread whose next step is not asking for a mutex can take it. -/
theorem canStep_of_not_requests {prog : Program P Unit}
    (hr : (p.workers i).running = some prog) (hno : ∀ m, ¬ (p.thread i).Requests m) :
    p.CanStep i := by
  unfold CanStep
  rw [hr]
  cases prog with
  | acquire m next => exact absurd ⟨next, hr⟩ (hno m)
  | _ => trivial

end CanStep

section Put

variable [DecidableEq ι] {p : Pool P ι} {i j : ι}

theorem put_self (t : Thread P) : (p.put i t).workers i
    = { held := t.held, running := t.running, waiting := t.waiting } := Function.update_self _ _ _

theorem put_of_ne (t : Thread P) (h : j ≠ i) : (p.put i t).workers j = p.workers j :=
  Function.update_of_ne h _ _

theorem free_of_ne {m : P.Mutex} (hm : m ∉ (p.workers i).held)
    (hne : ∀ j ≠ i, m ∉ (p.workers j).held) : p.Free m := by
  intro j
  by_cases hj : j = i
  · exact hj ▸ hm
  · exact hne j hj

end Put

end Pool

/-- Threads that run the operations. -/
def pool [DecidableEq P.Mutex] [DecidableEq ι] (init : P.State → Prop)
    (changes : P.State → P.State → Prop) (code : O → Program P Unit) :
    Machine (Pool P ι) (PoolAction P O ι) where
  init p := init p.state ∧ ∀ i, p.workers i = { held := [], running := none, waiting := [] }
  enabled := Pool.Enabled changes
  next := Pool.next code

/-! ## Disciplines -/

/-- What the mutexes are for. -/
structure Discipline (P : Platform) where
  /-- A mutex is asked for only while those held have a smaller rank. -/
  rank : P.Mutex → Nat
  top : Nat
  rank_le : ∀ m, rank m ≤ top
  /-- What a mutex protects. -/
  Part : P.Mutex → Type
  part : (m : P.Mutex) → P.State → Part m
  /-- What holds of it while nobody has the mutex. -/
  Sound : (m : P.Mutex) → Part m → Prop
  meets : AccessCondition P

namespace Discipline

variable (D : Discipline P)

/-- What these mutexes protect is the same. -/
def Agree (held : List P.Mutex) (s s' : P.State) : Prop := ∀ m ∈ held, D.part m s = D.part m s'

variable {D} {held : List P.Mutex} {s s' s'' : P.State}

theorem Agree.rfl : D.Agree held s s := fun _ _ => Eq.refl _

theorem Agree.symm (h : D.Agree held s s') : D.Agree held s' s := fun m hm => (h m hm).symm

theorem Agree.trans (h : D.Agree held s s') (h' : D.Agree held s' s'') : D.Agree held s s'' :=
  fun m hm => (h m hm).trans (h' m hm)

theorem Agree.nil : D.Agree [] s s' := fun _ hm => absurd hm List.not_mem_nil

theorem Agree.mono {held' : List P.Mutex} (h : D.Agree held s s') (hsub : held' ⊆ held) :
    D.Agree held' s s' := fun m hm => h m (hsub hm)

/-- What a program leaves behind: how it ended, the mutexes it has then, and a state that agrees
with the real one on what they protect. -/
abbrev Post (P : Platform) (α : Type) := Except P.Exception α → List P.Mutex → P.State → Prop

variable (D) [DecidableEq P.Mutex] {α β : Type}

/-- **The program keeps to the discipline**, from a point where it holds some mutexes and what they
protect is as in the state `known`. -/
def Guarded : Program P α → Post P α → List P.Mutex → P.State → Prop
  | .done r, post, held, known => post r held known
  | .access f next, post, held, known => ∀ s, D.Agree held s known → D.meets held _ f s →
    (∀ m ∉ held, D.part m (f s).2 = D.part m s) ∧ Guarded (next (f s).1) post held (f s).2
  | .acquire m next, post, held, known => (∀ m' ∈ held, D.rank m' < D.rank m) ∧
    ∀ s, D.Agree held s known → D.Sound m (D.part m s) → Guarded next post (m :: held) s
  | .release m next, post, held, known => m ∈ held ∧ D.Sound m (D.part m known) ∧
    Guarded next post (held.erase m) known
  | .call _ next, post, held, _ => held = [] ∧ ∀ r s, Guarded (next r) post [] s

variable {D} {post post' : Post P α} {known known' : P.State} {p : Program P α}

theorem Guarded.mono (hpost : ∀ r held s, post r held s → post' r held s)
    (h : D.Guarded p post held known) : D.Guarded p post' held known := by
  induction p generalizing held known with
  | done r => exact hpost _ _ _ h
  | access f next ih =>
    intro s hs hmeets
    obtain ⟨hframe, hnext⟩ := h s hs hmeets
    exact ⟨hframe, ih _ hnext⟩
  | acquire m next ih => exact ⟨h.1, fun s hs hsound => ih (h.2 s hs hsound)⟩
  | release m next ih => exact ⟨h.1, h.2.1, ih h.2.2⟩
  | call c next ih => exact ⟨h.1, fun r s => ih r (h.2 r s)⟩

/-- A program only counts on what its mutexes protect. -/
theorem Guarded.congr (hpost : ∀ r held s s', D.Agree held s s' → post r held s → post r held s')
    (hagree : D.Agree held known known') (h : D.Guarded p post held known) :
    D.Guarded p post held known' := by
  induction p generalizing held known known' with
  | done r => exact hpost _ _ _ _ hagree h
  | access f next ih => exact fun s hs hmeets => h s (hs.trans hagree.symm) hmeets
  | acquire m next ih => exact ⟨h.1, fun s hs hsound => h.2 s (hs.trans hagree.symm) hsound⟩
  | release m next ih =>
    obtain ⟨hm, hsound, hnext⟩ := h
    exact ⟨hm, hagree m hm ▸ hsound, ih (hagree.mono List.erase_subset) hnext⟩
  | call c next ih => exact h

theorem guarded_followedBy {f : Except P.Exception α → Program P β} {post : Post P β} :
    D.Guarded (p.followedBy f) post held known ↔
      D.Guarded p (fun r held s => D.Guarded (f r) post held s) held known := by
  induction p generalizing held known with
  | done r => exact Iff.rfl
  | access g next ih =>
    exact forall_congr' fun s => imp_congr_right fun _ => imp_congr_right fun _ =>
      and_congr_right fun _ => ih _
  | acquire m next ih =>
    exact and_congr_right fun _ => forall_congr' fun s => imp_congr_right fun _ =>
      imp_congr_right fun _ => ih
  | release m next ih => exact and_congr_right fun _ => and_congr_right fun _ => ih
  | call c next ih =>
    exact and_congr_right fun _ => forall_congr' fun r => forall_congr' fun s => ih r

/-! ## Pieces of code -/

variable (D) in
/-- The code holds the same mutexes afterwards, and has left alone what they protect. -/
def Leaves (held : List P.Mutex) (p : Program P α) : Prop :=
  ∀ known, D.Guarded p (fun _ held' s => held' = held ∧ D.Agree held s known) held known

variable (D) in
/-- Code of the critical section of a mutex: it may change what the mutex protects, and leaves it
sound if it found it so. -/
def Edits (m : P.Mutex) (held : List P.Mutex) (p : Program P α) : Prop :=
  ∀ known, D.Sound m (D.part m known) → D.Guarded p (fun _ held' s => held' = m :: held ∧
    D.Agree held s known ∧ D.Sound m (D.part m s)) (m :: held) known

theorem leaves_done (r : Except P.Exception α) : D.Leaves held (.done r) :=
  fun _ => ⟨rfl, Agree.rfl⟩

theorem leaves_pure (a : α) : D.Leaves held (pure a : Program P α) := leaves_done _

/-- What is read and written is not protected by any mutex. -/
theorem leaves_exchange {f : P.State → α × P.State} (hf : ∀ s m, D.part m (f s).2 = D.part m s) :
    D.Leaves held (Program.exchange f) := by
  intro known s hs _
  refine ⟨fun m _ => hf s m, rfl, ?_⟩
  exact Agree.trans (fun m _ => hf s m) hs

theorem leaves_read (f : P.State → α) : D.Leaves held (Program.read f) :=
  leaves_exchange fun _ _ => rfl

theorem leaves_followedBy {f : Except P.Exception α → Program P β} (hp : D.Leaves held p)
    (hf : ∀ r, D.Leaves held (f r)) : D.Leaves held (p.followedBy f) := by
  intro known
  rw [guarded_followedBy]
  refine Guarded.mono (fun r held' s h => ?_) (hp known)
  obtain ⟨rfl, hagree⟩ := h
  exact Guarded.mono (fun _ _ _ h => ⟨h.1, h.2.trans hagree⟩) (hf r s)

theorem leaves_bind {f : α → Program P β} (hp : D.Leaves held p) (hf : ∀ a, D.Leaves held (f a)) :
    D.Leaves held (p >>= f) := by
  refine leaves_followedBy hp fun r => ?_
  cases r with
  | ok a => exact hf a
  | error e => exact leaves_done _

theorem leaves_tryCatch {f : P.Exception → Program P α} (hp : D.Leaves held p)
    (hf : ∀ e, D.Leaves held (f e)) : D.Leaves held (tryCatch p f) := by
  refine leaves_followedBy hp fun r => ?_
  cases r with
  | ok a => exact leaves_done _
  | error e => exact hf e

/-- Code outside is called without a mutex. -/
theorem leaves_outside (c : P.Call) : D.Leaves [] (Program.outside c) :=
  fun _ => ⟨rfl, fun _ _ => ⟨rfl, Agree.nil⟩⟩

/-- What follows a value may count on the state it has been read in. -/
theorem leaves_read_bind {f : P.State → α} {g : α → Program P β}
    (hg : ∀ s, D.meets held α (fun s => (f s, s)) s → D.Leaves held (g (f s))) :
    D.Leaves held (Program.read f >>= g) := by
  intro known s hs hmeets
  refine ⟨fun _ _ => rfl, Guarded.mono (fun _ _ _ h => ⟨h.1, h.2.trans hs⟩) (hg s hmeets s)⟩

/-- What follows a piece of code that leaves alone what the mutexes held protect. -/
theorem Leaves.guarded_bind {f : α → Program P β} {post : Post P β} (hp : D.Leaves held p)
    (hf : ∀ a s, D.Agree held s known → D.Guarded (f a) post held s)
    (herror : ∀ e s, D.Agree held s known → post (.error e) held s) :
    D.Guarded (p >>= f) post held known := by
  change D.Guarded (p.followedBy (Program.onValue f)) _ _ _
  rw [guarded_followedBy]
  refine Guarded.mono (fun r held' s h => ?_) (hp known)
  obtain ⟨rfl, hagree⟩ := h
  cases r with
  | ok a => exact hf a s hagree
  | error e => exact herror e s hagree

theorem edits_of_leaves {m : P.Mutex} (hp : D.Leaves (m :: held) p) : D.Edits m held p := by
  intro known hsound
  refine Guarded.mono (fun r held' s h => ?_) (hp known)
  obtain ⟨rfl, hagree⟩ := h
  refine ⟨rfl, hagree.mono (List.subset_cons_self _ _), ?_⟩
  rw [hagree m List.mem_cons_self]
  exact hsound

/-- One access to what the mutex protects. -/
theorem edits_exchange {m : P.Mutex} {f : P.State → α × P.State} (hm : m ∉ held)
    (hframe : ∀ s, ∀ m' ≠ m, D.part m' (f s).2 = D.part m' s)
    (hsound : ∀ s, D.Sound m (D.part m s) → D.Sound m (D.part m (f s).2)) :
    D.Edits m held (Program.exchange f) := by
  intro known hknown s hs _
  refine ⟨fun m' hm' => hframe s m' (List.ne_of_not_mem_cons hm'), rfl, fun m' hm' => ?_, ?_⟩
  · rw [hframe s m' fun h => hm (h ▸ hm')]
    exact hs m' (List.mem_cons_of_mem _ hm')
  · rw [← hs m List.mem_cons_self] at hknown
    exact hsound s hknown

theorem edits_bind {m : P.Mutex} {f : α → Program P β} (hp : D.Edits m held p)
    (hf : ∀ a, D.Edits m held (f a)) : D.Edits m held (p >>= f) := by
  intro known hknown
  change D.Guarded (p.followedBy (Program.onValue f)) _ _ _
  rw [guarded_followedBy]
  refine Guarded.mono (fun r held' s h => ?_) (hp known hknown)
  obtain ⟨rfl, hagree, hs⟩ := h
  cases r with
  | ok a => exact Guarded.mono (fun _ _ _ h => ⟨h.1, h.2.1.trans hagree, h.2.2⟩) (hf a s hs)
  | error e => exact ⟨rfl, hagree, hs⟩

/-- **A critical section.** -/
theorem leaves_withLock {m : P.Mutex} (hrank : ∀ m' ∈ held, D.rank m' < D.rank m)
    (hp : D.Edits m held p) : D.Leaves held (Program.withLock m p) := by
  refine fun known => ⟨hrank, fun s hs hsound => guarded_followedBy.mpr ?_⟩
  refine Guarded.mono (fun r held' s' h => ?_) (hp s hsound)
  obtain ⟨rfl, hagree, hs'⟩ := h
  exact ⟨List.mem_cons_self, hs', List.erase_cons_head m held, hagree.trans hs⟩

/-- A value that is read in a critical section. -/
theorem leaves_withLock_read_bind {m : P.Mutex} {f : P.State → α} {g : α → Program P β}
    (hrank : ∀ m' ∈ held, D.rank m' < D.rank m)
    (hg : ∀ s, D.meets (m :: held) α (fun s => (f s, s)) s → D.Leaves held (g (f s))) :
    D.Leaves held (Program.withLock m (Program.read f) >>= g) := by
  refine fun known => ⟨hrank, fun s hs hsound s' hs' hmeets => ⟨fun _ _ => rfl,
    List.mem_cons_self, ?_, ?_⟩⟩
  · change D.Sound m (D.part m s')
    rw [hs' m List.mem_cons_self]
    exact hsound
  · have hagree := (hs'.mono (List.subset_cons_self _ _)).trans hs
    change D.Guarded (g (f s')) _ ((m :: held).erase m) s'
    rw [List.erase_cons_head]
    exact Guarded.mono (fun _ _ _ h => ⟨h.1, h.2.trans hagree⟩) (hg s' hmeets s')

end Discipline

/-! ## Runs -/

/-- A program ends without a mutex. -/
def ended : Discipline.Post P Unit := fun _ held _ => held = []

theorem ended_congr {D : Discipline P} (r : Except P.Exception Unit) (held : List P.Mutex)
    (s s' : P.State) (_ : D.Agree held s s') (h : ended r held s) : ended r held s' := h

section Runs

variable [DecidableEq P.Mutex] {D : Discipline P} {p : Pool P ι} {i j : ι} {m : P.Mutex}

/-- What is running keeps to the discipline, and so will what is waiting; no two threads have the
same mutex, and what nobody is working on is sound. -/
structure Pool.Inv (D : Discipline P) (p : Pool P ι) : Prop where
  running : ∀ i prog, (p.workers i).running = some prog →
    D.Guarded prog ended (p.workers i).held p.state
  outside : ∀ i, (p.workers i).running = none → (p.workers i).held = []
  waiting : ∀ i, ∀ next ∈ (p.workers i).waiting, ∀ r s, D.Guarded (next r) ended [] s
  nodup : ∀ i, (p.workers i).held.Nodup
  exclusive : ∀ i j m, m ∈ (p.workers i).held → m ∈ (p.workers j).held → i = j
  sound : ∀ m, p.Free m → D.Sound m (D.part m p.state)

/-- What is not up to the threads changes. -/
theorem Pool.Inv.changed {s : P.State} (hi : p.Inv D) (hs : ∀ m, D.part m s = D.part m p.state) :
    Pool.Inv D { p with state := s } where
  running i prog h := (hi.running i prog h).congr ended_congr fun m _ => (hs m).symm
  outside := hi.outside
  waiting := hi.waiting
  nodup := hi.nodup
  exclusive := hi.exclusive
  sound m hm := by
    change D.Sound m (D.part m s)
    rw [hs m]
    exact hi.sound m hm

/-- A mutex that one thread has is no one else's. -/
theorem Pool.Inv.not_mem_of_ne (hi : p.Inv D) (hm : m ∈ (p.workers i).held) (hj : j ≠ i) :
    m ∉ (p.workers j).held := fun h => hj (hi.exclusive j i m h hm)

/-- **No deadlock**: a thread that is running can go on, or waits for a chain of threads the last of
which can. Along the chain the mutexes that are asked for rise in rank. -/
theorem Pool.Inv.progress (hi : p.Inv D) {prog : Program P Unit}
    (hr : (p.workers i).running = some prog) :
    ∃ j, Relation.ReflTransGen p.WaitsFor i j ∧ p.CanStep j := by
  -- a thread that asks for a mutex, by what is left between the mutex and the top
  have hchain : ∀ n i m, D.top - D.rank m < n → (p.thread i).Requests m →
      ∃ j, Relation.ReflTransGen p.WaitsFor i j ∧ p.CanStep j := by
    intro n
    induction n with
    | zero => exact fun i m h => absurd h (Nat.not_lt_zero _)
    | succ n ih =>
      rintro i m hn ⟨next, hreq⟩
      by_cases hfree : p.Free m
      · refine ⟨i, .refl, ?_⟩
        unfold Pool.CanStep
        rw [show (p.workers i).running = some (.acquire m next) from hreq]
        exact hfree
      · obtain ⟨k, hk⟩ := not_forall_not.mp hfree
        have hwait : p.WaitsFor i k := ⟨m, ⟨next, hreq⟩, hk⟩
        cases hkr : (p.workers k).running with
        | none =>
          rw [hi.outside k hkr] at hk
          cases hk
        | some prog' =>
          by_cases hno : ∀ m', ¬ (p.thread k).Requests m'
          · exact ⟨k, .single hwait, Pool.canStep_of_not_requests hkr hno⟩
          · obtain ⟨m', next', hreq'⟩ := not_forall_not.mp hno
            have hprog := hi.running k _ hreq'
            have hlt : D.rank m < D.rank m' := hprog.1 m hk
            have hle := D.rank_le m'
            obtain ⟨j, hj, hstep⟩ := ih k m' (by omega) ⟨next', hreq'⟩
            exact ⟨j, .head hwait hj, hstep⟩
  by_cases hno : ∀ m, ¬ (p.thread i).Requests m
  · exact ⟨i, .refl, Pool.canStep_of_not_requests hr hno⟩
  · obtain ⟨m, hreq⟩ := not_forall_not.mp hno
    exact hchain _ i m (Nat.lt_succ_self _) hreq

variable [DecidableEq ι]

/-- One thread goes on, and leaves alone what the others rely on. -/
theorem Pool.Inv.goOn {t : Thread P} (hi : p.Inv D)
    (hagree : ∀ j ≠ i, D.Agree (p.workers j).held p.state t.state)
    (hrunning : ∀ prog, t.running = some prog → D.Guarded prog ended t.held t.state)
    (houtside : t.running = none → t.held = [])
    (hwaiting : ∀ next ∈ t.waiting, ∀ r s, D.Guarded (next r) ended [] s)
    (hnodup : t.held.Nodup) (hexclusive : ∀ j ≠ i, ∀ m ∈ t.held, m ∉ (p.workers j).held)
    (hsound : ∀ m, m ∉ t.held → (∀ j ≠ i, m ∉ (p.workers j).held) →
      D.Sound m (D.part m t.state)) : (p.put i t).Inv D := by
  refine ⟨fun j prog h => ?_, fun j h => ?_, fun j next h => ?_, fun j => ?_, fun j k m hj hk => ?_,
    fun m hm => hsound m ?_ fun j hj => ?_⟩
  · by_cases hj : j = i
    · subst hj
      rw [Pool.put_self] at h ⊢
      exact hrunning prog h
    · rw [Pool.put_of_ne t hj] at h ⊢
      exact (hi.running j prog h).congr ended_congr (hagree j hj)
  · by_cases hj : j = i
    · subst hj
      rw [Pool.put_self] at h ⊢
      exact houtside h
    · rw [Pool.put_of_ne t hj] at h ⊢
      exact hi.outside j h
  · by_cases hj : j = i
    · subst hj
      rw [Pool.put_self] at h
      exact hwaiting next h
    · rw [Pool.put_of_ne t hj] at h
      exact hi.waiting j next h
  · by_cases hj : j = i
    · subst hj
      rw [Pool.put_self]
      exact hnodup
    · rw [Pool.put_of_ne t hj]
      exact hi.nodup j
  · by_cases hji : j = i
    · by_cases hki : k = i
      · rw [hji, hki]
      · rw [hji, Pool.put_self] at hj
        rw [Pool.put_of_ne t hki] at hk
        exact absurd hk (hexclusive k hki m hj)
    · rw [Pool.put_of_ne t hji] at hj
      by_cases hki : k = i
      · rw [hki, Pool.put_self] at hk
        exact absurd hj (hexclusive j hji m hk)
      · rw [Pool.put_of_ne t hki] at hk
        exact hi.exclusive j k m hj hk
  · have := hm i
    rwa [Pool.put_self] at this
  · have := hm j
    rwa [Pool.put_of_ne t hj] at this

/-- A step of a thread. -/
theorem Pool.inv_step (hi : p.Inv D) (hstep : p.CanStep i)
    (hk : (p.thread i).Accesses D.meets (ThreadAction.step : ThreadAction P O)) :
    (p.put i (p.thread i).step).Inv D := by
  have hothers : ∀ j ≠ i, ∀ m ∈ (p.workers i).held, m ∉ (p.workers j).held :=
    fun j hj m hm => hi.not_mem_of_ne hm hj
  cases hr : (p.workers i).running with
  | none =>
    unfold Pool.CanStep at hstep
    rw [hr] at hstep
    exact hstep.elim
  | some prog =>
    have hrun : (p.thread i).running = some prog := hr
    have hprog := hi.running i prog hr
    have hwaiting := hi.waiting i
    unfold Thread.step
    rw [hrun]
    cases prog with
    | done r =>
      refine hi.goOn (fun _ _ => .rfl) (fun prog h => ?_) (fun _ => hprog) hwaiting (hi.nodup i)
        hothers fun m hm hne => hi.sound m (Pool.free_of_ne hm hne)
      cases h
    | access f next =>
      obtain ⟨hframe, hnext⟩ := hprog p.state .rfl (hk _ f next hrun)
      refine hi.goOn (fun j hj m hm => ?_) (fun prog h => ?_) (fun h => ?_) hwaiting (hi.nodup i)
        hothers fun m hm hne => ?_
      · exact (hframe m fun h => hothers j hj m h hm).symm
      · cases h
        exact hnext
      · cases h
      · change D.Sound m (D.part m (f p.state).2)
        rw [hframe m hm]
        exact hi.sound m (Pool.free_of_ne hm hne)
    | acquire m next =>
      have hm : p.Free m := by
        unfold Pool.CanStep at hstep
        rw [hr] at hstep
        exact hstep
      obtain ⟨-, hnext⟩ := hprog
      refine hi.goOn (fun _ _ => .rfl) (fun prog h => ?_) (fun h => ?_) hwaiting
        (List.nodup_cons.mpr ⟨hm i, hi.nodup i⟩) (fun j hj m' hm' => ?_) fun m' hm' hne => ?_
      · cases h
        exact hnext p.state .rfl (hi.sound m hm)
      · cases h
      · rcases List.mem_cons.mp hm' with rfl | hm'
        · exact hm j
        · exact hothers j hj m' hm'
      · exact hi.sound m' (Pool.free_of_ne (List.not_mem_of_not_mem_cons hm') hne)
    | release m next =>
      obtain ⟨hm, hsound, hnext⟩ := hprog
      refine hi.goOn (fun _ _ => .rfl) (fun prog h => ?_) (fun h => ?_) hwaiting
        ((hi.nodup i).erase m) (fun j hj m' hm' => hothers j hj m' (List.mem_of_mem_erase hm'))
        fun m' hm' hne => ?_
      · cases h
        exact hnext
      · cases h
      · by_cases hmm : m' = m
        · rw [hmm]
          exact hsound
        · exact hi.sound m' (Pool.free_of_ne (fun h => hm' ((List.mem_erase_of_ne hmm).mpr h)) hne)
    | call c next =>
      obtain ⟨hheld, hnext⟩ := hprog
      refine hi.goOn (fun _ _ => .rfl) (fun prog h => ?_) (fun _ => hheld) (fun k hk => ?_)
        (hi.nodup i) hothers fun m hm hne => hi.sound m (Pool.free_of_ne hm hne)
      · cases h
      · rcases List.mem_cons.mp hk with rfl | hk
        · exact hnext
        · exact hwaiting k hk

/-- What is up to code outside leaves every part alone. -/
def Discipline.Spares (D : Discipline P) (changes : P.State → P.State → Prop) : Prop :=
  ∀ s s', changes s s' → ∀ m, D.part m s' = D.part m s

/-- **One step**: what the operations keep to is kept by every action whose access meets the
condition. -/
theorem Pool.inv_next {code : O → Program P Unit} {changes : P.State → P.State → Prop}
    (hcode : ∀ op, D.Leaves [] (code op)) (hchanges : D.Spares changes) {a : PoolAction P O ι}
    (hi : p.Inv D) (hen : p.Enabled changes a) (hk : p.Accesses D.meets a) :
    (p.next code a).Inv D := by
  cases a with
  | start i op =>
    have hheld : (p.workers i).held = [] := hi.outside i (Option.isNone_iff_eq_none.mp hen)
    refine hi.goOn (fun _ _ => .rfl) (fun prog h => ?_) (fun h => ?_) (hi.waiting i) (hi.nodup i)
      (fun j hj m hm => hi.not_mem_of_ne hm hj) fun m hm hne =>
        hi.sound m (Pool.free_of_ne hm hne)
    · cases h
      change D.Guarded (code op) ended (p.workers i).held p.state
      rw [hheld]
      exact (hcode op p.state).mono fun _ _ _ h => h.1
    · cases h
  | step i => exact Pool.inv_step (O := O) hi hen hk
  | answer i reply state =>
    obtain ⟨hnone, hsome, hstate⟩ := hen
    have hparts := hchanges _ _ hstate
    have hheld : (p.workers i).held = [] := hi.outside i (Option.isNone_iff_eq_none.mp hnone)
    have hwaiting := hi.waiting i
    change (p.put i ((p.thread i).next code (.answer reply state))).Inv D
    unfold Thread.next
    have hthread : (p.thread i).waiting = (p.workers i).waiting := rfl
    cases hw : (p.workers i).waiting with
    | nil =>
      rw [hw] at hsome
      cases hsome
    | cons next rest =>
      rw [hw] at hwaiting
      rw [hthread, hw]
      refine hi.goOn (fun j _ m _ => (hparts m).symm) (fun prog h => ?_) (fun h => ?_)
        (fun k hk => hwaiting k (List.mem_cons_of_mem _ hk)) (hi.nodup i)
        (fun j hj m hm => hi.not_mem_of_ne hm hj) fun m hm hne => ?_
      · cases h
        change D.Guarded (next reply) ended (p.workers i).held state
        rw [hheld]
        exact hwaiting next List.mem_cons_self reply state
      · cases h
      · change D.Sound m (D.part m state)
        rw [hparts m]
        exact hi.sound m (Pool.free_of_ne hm hne)
  | outside state => exact hi.changed (hchanges _ _ hen)

variable {init : P.State → Prop} {changes : P.State → P.State → Prop} {code : O → Program P Unit}
  {h : List (Pool P ι × PoolAction P O ι)}

/-- **Runs**: where the operations keep to the discipline and nothing else touches the parts, every
state of a run whose accesses meet the condition satisfies the invariant. -/
theorem inv_run (hcode : ∀ op, D.Leaves [] (code op)) (hchanges : D.Spares changes)
    (hinit : ∀ s, init s → ∀ m, D.Sound m (D.part m s)) (hr : Run (pool init changes code) h p)
    (hk : ∀ x ∈ h, x.1.Accesses D.meets x.2) : p.Inv D := by
  refine Run.invariant_of_guard ?_
    (fun p a hi hen hk => Pool.inv_next hcode hchanges hi hen hk) hr hk
  rintro p ⟨hstate, hworkers⟩
  refine ⟨fun i prog h => ?_, fun i _ => ?_, fun i next h => ?_, fun i => ?_, fun i j m h => ?_,
    fun m _ => hinit p.state hstate m⟩
  · rw [hworkers i] at h
    cases h
  · rw [hworkers i]
  · rw [hworkers i] at h
    cases h
  · rw [hworkers i]
    exact List.nodup_nil
  · rw [hworkers i] at h
    cases h

/-- **Protection**: a step leaves alone the part of every mutex that the thread does not have, and
so does everything that is no step. -/
theorem Pool.Inv.part_next (hi : p.Inv D) (hchanges : D.Spares changes) {a : PoolAction P O ι}
    (hen : p.Enabled changes a) (hk : p.Accesses D.meets a)
    (hm : ∀ i, a = .step i → m ∉ (p.workers i).held) :
    D.part m (p.next code a).state = D.part m p.state := by
  cases a with
  | start i op => rfl
  | answer i reply state =>
    obtain ⟨-, hsome, hstate⟩ := hen
    have hthread : (p.thread i).waiting = (p.workers i).waiting := rfl
    change D.part m ((p.thread i).next code (.answer reply state)).state = _
    unfold Thread.next
    cases hw : (p.workers i).waiting with
    | nil =>
      rw [hw] at hsome
      cases hsome
    | cons next rest =>
      rw [hthread, hw]
      exact hchanges _ _ hstate m
  | outside state => exact hchanges _ _ hen m
  | step i =>
    change D.part m (p.thread i).step.state = _
    unfold Thread.step
    cases hr : (p.workers i).running with
    | none =>
      rw [show (p.thread i).running = none from hr]
      rfl
    | some prog =>
      have hrun : (p.thread i).running = some prog := hr
      rw [hrun]
      cases prog with
      | access f next => exact (hi.running i _ hr p.state .rfl (hk _ f next hrun)).1 m (hm i rfl)
      | _ => rfl

end Runs

end ObjectLink.Foundation
